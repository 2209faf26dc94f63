import MessageSchema.Binary64.Shortest

/-!
# How a number is laid out

A written number is its shortest digits in one of two notations, positional or with an exponent.
Where each begins and which marks are written is data; one function lays the digits out.

## Main definitions

* `NumberLayout`: the choices.
* `NumberLayout.text`: the text of a number under these choices.
* `NumberLayout.document`, `NumberLayout.code`, `NumberLayout.plain`, `NumberLayout.pointed`: the
  four layouts in use.
-/

namespace MessageSchema

/-- The choices that fix the text of a number. -/
structure NumberLayout where
  /-- The scientific exponents that are written without an exponent; nothing means all of them. -/
  positional : Option (Int × Int)
  /-- Whether a whole number keeps `.0` in positional notation. -/
  keepsPoint : Bool
  /-- Whether a positive exponent has a plus sign. -/
  signsExponent : Bool
  tie : TieRule

namespace NumberLayout

/-- Numbers in a document: positional from `1e-5` up to, not including, `1e+16`. -/
def document : NumberLayout := ⟨some (-5, 15), true, true, .toEven⟩

/-- Numbers in emitted code: positional from `1e-4`, and no sign on a positive exponent. -/
def code : NumberLayout := ⟨some (-4, 15), true, false, .up⟩

/-- Numbers in messages on bounds: always positional, whole numbers without a point. -/
def plain : NumberLayout := ⟨none, false, false, .up⟩

/-- Numbers in messages on mismatched types: always positional, always with a point. -/
def pointed : NumberLayout := ⟨none, true, false, .up⟩

/-- As many zeros. -/
def zeros (n : Nat) : List Char :=
  List.replicate n '0'

/-- The digits with the point where the exponent puts it. -/
def layPositional (keepsPoint : Bool) (digits : List Char) (exponent : Int) : List Char :=
  if 0 ≤ exponent then
    digits ++ zeros exponent.toNat ++ if keepsPoint then ['.', '0'] else []
  else
    let places := (-exponent).toNat
    if places < digits.length then
      digits.take (digits.length - places) ++ '.' :: digits.drop (digits.length - places)
    else '0' :: '.' :: zeros (places - digits.length) ++ digits

/-- One digit, the point and the others, then the exponent. -/
def layScientific (signsExponent : Bool) (digits : List Char) (scientific : Int) : List Char :=
  let mantissa := match digits with
    | [] => ['0']
    | [d] => [d]
    | d :: rest => d :: '.' :: rest
  let sign := if scientific < 0 then ['-'] else if signsExponent then ['+'] else []
  mantissa ++ 'e' :: sign ++ Nat.toDigits 10 scientific.natAbs

/-- The text of a number. -/
def text (layout : NumberLayout) (x : Binary64) : String :=
  let decimal := x.shortest layout.tie
  let digits := Nat.toDigits 10 decimal.digits
  let scientific := decimal.exponent + digits.length - 1
  let isPositional := match layout.positional with
    | none => true
    | some (least, greatest) => x.isZero || (least ≤ scientific && scientific ≤ greatest)
  let magnitude :=
    if isPositional then layPositional layout.keepsPoint digits decimal.exponent
    else layScientific layout.signsExponent digits scientific
  String.ofList (if x.negative then '-' :: magnitude else magnitude)

end NumberLayout

end MessageSchema
