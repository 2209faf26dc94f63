import MessageSchema.Binary64.Numeral
import MessageSchema.Proofs.Cut
import MessageSchema.Schema.Basic

/-!
# References as pointers

A reference in a document is a URI reference, and what stands behind its `#` is a JSON pointer. Octets
may be escaped as `%` with two hexadecimal digits; behind each slash stands a token, in which `~1`
means a slash and `~0` a tilde. From the document on, the tokens lead through keywords, keys and
positions to a node.

The references of a registry are written with the keys as they are, and nothing in them is escaped. So
a reference leads to the entry of its key if the key holds none of the three characters that a pointer
reads in a way of its own. All others stand for themselves, also those that a URI should not hold
unescaped.

## Main definitions

* `Pointer.decode?`, `Pointer.tokens?`: a pointer without its escapes, and its tokens.
* `Schema.at?`: the node that tokens lead to.
* `Schema.resolve?`: the node that a reference leads to.
* `Pointer.IsLiteral`: a key that a pointer spells as it is.

## Main results

* `Schema.resolve?_refStart`: the reference of a literal key leads to its entry.
-/

namespace MessageSchema

namespace Pointer

/-- The octets of a text in which `%` and two hexadecimal digits stand for one octet. -/
def octets? : List Char → Option (List UInt8)
  | [] => some []
  | c :: cs =>
    if c = '%' then match cs with
      | first :: second :: rest => do
        let octet ← digitsValue 16 [first, second]
        let octets ← octets? rest
        return .ofNat octet :: octets
      | _ => none
    else (octets? cs).map (String.utf8EncodeChar c ++ ·)

/-- A text with its escaped octets decoded, if all octets together are those of a text. -/
def decode? (text : String) : Option String :=
  (octets? text.toList).bind fun octets => String.fromUTF8? octets.toByteArray

/-- A token in which `~1` stands for a slash and `~0` for a tilde. -/
def unescape? : List Char → Option (List Char)
  | [] => some []
  | c :: cs =>
    if c = '~' then match cs with
      | '0' :: rest => (unescape? rest).map ('~' :: ·)
      | '1' :: rest => (unescape? rest).map ('/' :: ·)
      | _ => none
    else (unescape? cs).map (c :: ·)

/-- The tokens of a pointer, one behind each slash. The empty pointer has none. -/
def tokens? (pointer : String) : Option (List String) :=
  match Text.pieces '/' pointer.toList with
  | [] :: pieces => pieces.mapM fun piece => (unescape? piece).map String.ofList
  | _ => none

/-- The node in a list whose position is written as a token. -/
def item? (nodes : List Schema) (token : String) : Option Schema :=
  (nodes.zipIdx.find? fun (_, position) => toString position = token).map (·.1)

end Pointer

/-- The node that some tokens lead to from a node. Nothing but nodes can be referred to. -/
def Schema.at? : List String → Schema → Option Schema
  | [], node => some node
  | "items" :: rest, node => node.items.bind (at? rest)
  | "additionalProperties" :: rest, node => node.additionalProperties.bind (at? rest)
  | "propertyNames" :: rest, node => node.propertyNames.bind (at? rest)
  | "properties" :: key :: rest, node => (Dictionary.get? key node.properties).bind (at? rest)
  | "oneOf" :: position :: rest, node => (Pointer.item? node.oneOf position).bind (at? rest)
  | "allOf" :: position :: rest, node => (Pointer.item? node.allOf position).bind (at? rest)
  | "$defs" :: key :: rest, node => (Dictionary.get? key node.defs).bind (at? rest)
  | _, _ => none

/-- The node that a reference in a document leads to. -/
def Schema.resolve? (document : Schema) (ref : String) : Option Schema := do
  let fragment ← Text.stripStart? "#" ref
  let pointer ← Pointer.decode? fragment
  let tokens ← Pointer.tokens? pointer
  document.at? tokens

/-! ### Literal keys -/

namespace Pointer

/-- A key that a pointer spells as it is. -/
def IsLiteral (key : String) : Prop :=
  '/' ∉ key.toList ∧ '~' ∉ key.toList ∧ '%' ∉ key.toList

instance (key : String) : Decidable (IsLiteral key) :=
  inferInstanceAs (Decidable (_ ∧ _ ∧ _))

theorem octets?_of_not_mem {cs : List Char} (h : '%' ∉ cs) :
    octets? cs = some (cs.flatMap String.utf8EncodeChar) := by
  induction cs with
  | nil => rfl
  | cons c cs ih =>
    obtain ⟨hc, hcs⟩ : '%' ≠ c ∧ '%' ∉ cs := by simpa using h
    unfold octets?
    rw [if_neg (Ne.symm hc), ih hcs, List.flatMap_cons]
    rfl

/-- A text without escapes is decoded to itself. -/
theorem decode?_of_not_mem {text : String} (h : '%' ∉ text.toList) : decode? text = some text := by
  have hoctets : (text.toList.flatMap String.utf8EncodeChar).toByteArray = text.toByteArray := by
    have hlist := String.toByteArray_ofList (l := text.toList)
    rw [String.ofList_toList] at hlist
    exact hlist.symm
  rw [decode?, octets?_of_not_mem h, Option.bind_some, hoctets, String.fromUTF8?,
    dif_pos text.isValidUTF8]
  rfl

theorem unescape?_of_not_mem {cs : List Char} (h : '~' ∉ cs) : unescape? cs = some cs := by
  induction cs with
  | nil => rfl
  | cons c cs ih =>
    obtain ⟨hc, hcs⟩ : '~' ≠ c ∧ '~' ∉ cs := by simpa using h
    unfold unescape?
    rw [if_neg (Ne.symm hc), ih hcs]
    rfl

/-- The pointer to the entry of a literal key has two tokens. -/
theorem tokens?_of_isLiteral {key : String} (h : IsLiteral key) :
    tokens? ("/$defs/" ++ key) = some ["$defs", key] := by
  obtain ⟨hslash, htilde, -⟩ := h
  have hpieces : Text.pieces '/' ("/$defs/" ++ key).toList = [[], "$defs".toList, key.toList] := by
    rw [String.toList_append, show "/$defs/".toList = '/' :: ("$defs".toList ++ ['/']) by decide,
      List.cons_append, Text.pieces_separator_cons, List.append_assoc, List.singleton_append,
      Text.pieces_append, Text.pieces_of_not_mem hslash]
    rfl
  have hkeyword : unescape? "$defs".toList = some "$defs".toList := unescape?_of_not_mem (by decide)
  rw [tokens?, hpieces]
  simp only [List.mapM_cons, List.mapM_nil, hkeyword, unescape?_of_not_mem htilde, Option.map_some,
    String.ofList_toList]
  rfl

end Pointer

/-- The reference of a literal key leads to its entry. -/
theorem Schema.resolve?_refStart {key : String} (h : Pointer.IsLiteral key) (document : Schema) :
    document.resolve? (refStart ++ key) = Dictionary.get? key document.defs := by
  have hfragment : refStart ++ key = "#" ++ ("/$defs/" ++ key) := by
    rw [← String.append_assoc]
    rfl
  have hpercent : '%' ∉ ("/$defs/" ++ key).toList := by
    have hstart : '%' ∉ "/$defs/".toList := by decide
    rw [String.toList_append, List.mem_append]
    exact not_or_intro hstart h.2.2
  simp only [resolve?, hfragment, Text.stripStart?_append, Option.bind_eq_bind, Option.bind_some,
    Pointer.decode?_of_not_mem hpercent, Pointer.tokens?_of_isLiteral h]
  rw [at?]
  cases Dictionary.get? key document.defs <;> rfl

end MessageSchema
