import MessageSchema.Pattern.Property
import MessageSchema.Pattern.Reader

/-!
# Which patterns compile

A text compiles if it is an expression of bounded depth whose groups have different names and whose
classes have a meaning. Where the characters of Unicode are switched off, an expression may match
whole characters of ASCII only, so that nothing that reaches beyond ASCII has a meaning there.

## Main definitions

* `Pattern.compiles`: whether a text compiles.
-/

namespace MessageSchema.Pattern

/-- How deep parts may nest. -/
def levelLimit : Nat := 250

/-- Whether a property is known. -/
def isKnown : PropertyName → Bool
  | .single name => isProperty name
  | .withValue name value => isPropertyValue name value

mutual

/-- Whether the inside of a class has a meaning. -/
def setHasMeaning (unicode : Bool) : CharSet → Bool
  | .empty => true
  | .char c => unicode || c.char.toNat < 0x80
  | .range first last => unicode || (first.char.toNat < 0x80 && last.char.toNat < 0x80)
  | .standard negated => unicode || !negated
  | .property name => unicode && isKnown name
  | .bracketed negated set => (unicode || !negated) && setHasMeaning unicode set
  | .union items => setsHaveMeaning unicode items
  | .combination left right => setHasMeaning unicode left && setHasMeaning unicode right

/-- Whether all items of a class have a meaning. -/
def setsHaveMeaning (unicode : Bool) : List CharSet → Bool
  | [] => true
  | item :: rest => setHasMeaning unicode item && setsHaveMeaning unicode rest

end

mutual

/-- Whether Unicode is switched on behind an expression, given whether it is in front of it; nothing
if the expression has no meaning. -/
def unicodeAfter (unicode : Bool) : Pattern → Option Bool
  | .empty | .assertion => some unicode
  | .flags change => some (change.unicode.getD unicode)
  | .char c => if unicode || !c.isByteEscape || c.char.toNat < 0x80 then some unicode else none
  | .dot => if unicode then some unicode else none
  | .standard negated => if unicode || !negated then some unicode else none
  | .property name => if unicode && isKnown name then some unicode else none
  | .bracketed negated set =>
    if (unicode || !negated) && setHasMeaning unicode set then some unicode else none
  | .repetition body => unicodeAfter unicode body
  | .group _ change body =>
    (unicodeAfter ((change.bind (·.unicode)).getD unicode) body).map fun _ => unicode
  | .alternation branches => unicodeAfterAll unicode branches
  | .concatenation parts => unicodeAfterAll unicode parts

/-- The same behind several expressions, one after the other. -/
def unicodeAfterAll (unicode : Bool) : List Pattern → Option Bool
  | [] => some unicode
  | part :: rest => (unicodeAfter unicode part).bind fun unicode => unicodeAfterAll unicode rest

end

/-- Whether a text compiles. -/
def compiles (text : String) : Bool :=
  match read? text with
  | none => false
  | some pattern =>
    decide (pattern.levels ≤ levelLimit) && decide pattern.groupNames.Nodup &&
      (unicodeAfter true pattern).isSome

end MessageSchema.Pattern
