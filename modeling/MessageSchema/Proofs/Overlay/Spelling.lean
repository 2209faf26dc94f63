import MessageSchema.Overlay.Basic
import MessageSchema.Proofs.Blank
import MessageSchema.Proofs.Document.RoundTrip
import MessageSchema.Proofs.Numeral

/-!
# Spellings of an overlay

An option may be written under a name in camel case or under one with underscores, and a count as a
number or as a text with its decimal digits. Spellings of one overlay have the same option behind each
member, whatever the order of the members.

## Main definitions

* `Json.IsCount`: a value that spells a count.
* `FieldOptions.Spells`: the two names of an option.
* `FieldOptions.Respelled`: another spelling of the members of an overlay.

## Main results

* `readCount_eq_ok_iff`: the counts that are read are those that are spelled.
* `FieldOptions.ofJson_respelled`: spellings of one overlay give the same options.
-/

namespace MessageSchema

/-! ### Decimal texts -/

/-- The digits spell the number, with any zeros in front. -/
def IsDecimal (n : ℕ) (digits : List Char) : Prop :=
  digits ≠ [] ∧ (∀ c ∈ digits, c.isDigit = true) ∧ Nat.ofDigitChars 10 digits 0 = n

theorem digitValue_ten_eq_some_iff {c : Char} {d : ℕ} :
    digitValue 10 c = some d ↔ c.isDigit = true ∧ c.toNat - '0'.toNat = d := by
  have hdigit : c.isDigit = true ↔ '0' ≤ c ∧ c ≤ '9' := by
    simp [Char.isDigit, Char.le_def]
  rw [hdigit, digitValue]
  by_cases h : '0' ≤ c ∧ c ≤ '9'
  · have hsmall : c.toNat - '0'.toNat < 10 := by
      have hle : c.toNat ≤ '9'.toNat := h.2
      have hnine : '9'.toNat = '0'.toNat + 9 := rfl
      omega
    simp only [if_pos h, Option.filter_some, decide_eq_true hsmall, if_true, Option.some.injEq]
    exact (and_iff_right h).symm
  · simp only [if_neg h, Option.filter_eq_some_iff, decide_eq_true_eq]
    constructor
    · rintro ⟨hvalue, hlt⟩
      split at hvalue
      · obtain rfl := Option.some.inj hvalue
        omega
      · split at hvalue
        · obtain rfl := Option.some.inj hvalue
          omega
        · cases hvalue
    · exact fun hd => absurd hd.1 h

theorem digitsValue_ten_eq_some_iff {cs : List Char} {n : ℕ} :
    digitsValue 10 cs = some n ↔ (∀ c ∈ cs, c.isDigit = true) ∧ Nat.ofDigitChars 10 cs 0 = n := by
  rw [digitsValue]
  generalize 0 = k
  induction cs generalizing k with
  | nil => simp [Nat.ofDigitChars]
  | cons c cs ih =>
    simp only [List.foldlM_cons, Option.bind_eq_bind, Option.bind_eq_some_iff, Option.map_eq_some_iff,
      digitValue_ten_eq_some_iff, List.forall_mem_cons, Nat.ofDigitChars_cons]
    constructor
    · rintro ⟨_, ⟨_, ⟨hc, rfl⟩, rfl⟩, h⟩
      obtain ⟨hcs, hvalue⟩ := (ih _).mp h
      exact ⟨⟨hc, hcs⟩, by rwa [Nat.mul_comm 10]⟩
    · rintro ⟨⟨hc, hcs⟩, hvalue⟩
      exact ⟨_, ⟨_, ⟨hc, rfl⟩, rfl⟩, (ih _).mpr ⟨hcs, by rwa [Nat.mul_comm]⟩⟩

/-- A whole number is read from its digits, with or without a plus sign in front. -/
theorem readNatural_ten_eq_some_iff {cs : List Char} {n : ℕ} :
    readNatural 10 cs = some n ↔ ∃ sign digits, cs = sign ++ digits ∧ (sign = [] ∨ sign = ['+']) ∧
      IsDecimal n digits := by
  have hunsigned {digits : List Char} : (if digits.isEmpty then none else digitsValue 10 digits) =
      some n ↔ IsDecimal n digits := by
    rw [IsDecimal, ← digitsValue_ten_eq_some_iff]
    cases digits <;> simp
  constructor
  · intro h
    unfold readNatural at h
    split at h
    · exact ⟨['+'], _, rfl, .inr rfl, hunsigned.mp h⟩
    · exact ⟨[], cs, rfl, .inl rfl, hunsigned.mp h⟩
  · rintro ⟨sign, digits, rfl, rfl | rfl, h⟩
    · rw [List.nil_append, readNatural_of_isDigit h.1 h.2.1]
      exact digitsValue_ten_eq_some_iff.mpr h.2
    · exact hunsigned.mpr h

/-! ### Counts -/

/-- The value spells a count: a number, or a text with its decimal digits, which may have a plus sign
in front and white space around. -/
def Json.IsCount (n : ℕ) : Json → Prop
  | .integer k => k = n
  | .text s => ∃ before sign digits behind, s.toList = before ++ (sign ++ digits) ++ behind ∧
      Text.IsBlank before ∧ Text.IsBlank behind ∧ (sign = [] ∨ sign = ['+']) ∧ IsDecimal n digits
  | _ => False

theorem isBlank_of_isDigit {c : Char} (h : c.isDigit = true) : Text.isBlank c = false := by
  have hrange : '0'.val ≤ c.val ∧ c.val ≤ '9'.val := by simpa [Char.isDigit] using h
  have hlow : '0'.toNat ≤ c.toNat := hrange.1
  have hhigh : c.toNat ≤ '9'.toNat := hrange.2
  have hzero : '0'.toNat = 0x30 := rfl
  have hnine : '9'.toNat = 0x39 := rfl
  simp only [Text.isBlank, Bool.or_eq_false_iff, Bool.and_eq_false_iff, decide_eq_false_iff_not,
    beq_eq_false_iff_ne]
  omega

/-- The count of a text is read between the white space around it. -/
theorem readNatural_trim_eq_some_iff {s : String} {n : ℕ} :
    readNatural 10 (Text.trim s.toList) = some n ↔ (Json.text s).IsCount n := by
  rw [Json.IsCount]
  constructor
  · intro h
    obtain ⟨before, behind, hs, hbefore, hbehind⟩ := Text.exists_trim s.toList
    obtain ⟨sign, digits, htrim, hsign, hdigits⟩ := readNatural_ten_eq_some_iff.mp h
    exact ⟨before, sign, digits, behind, htrim ▸ hs, hbefore, hbehind, hsign, hdigits⟩
  · rintro ⟨before, sign, digits, behind, hs, hbefore, hbehind, hsign, hdigits⟩
    have hdigit : ∀ c ∈ digits, Text.isBlank c = false := fun c hc =>
      isBlank_of_isDigit (hdigits.2.1 c hc)
    have hall : ∀ c ∈ sign ++ digits, Text.isBlank c = false := by
      intro c hc
      rcases List.mem_append.mp hc with hc | hc
      · rcases hsign with rfl | rfl
        · cases hc
        · rw [List.mem_singleton.mp hc]
          rfl
      · exact hdigit c hc
    rw [hs, Text.trim_append hbefore hbehind (fun c hc => hall c (List.mem_of_mem_head? hc))
      (fun c hc => hall c (List.mem_of_mem_getLast? hc)) (by simp [hdigits.1])]
    exact readNatural_ten_eq_some_iff.mpr ⟨sign, digits, rfl, hsign, hdigits⟩

/-- A value spells no more than one count. -/
theorem Json.IsCount.unique {node : Json} {n m : ℕ} (hn : node.IsCount n) (hm : node.IsCount m) :
    n = m := by
  cases node with
  | integer k => exact Int.ofNat.inj (hn.symm.trans hm)
  | text s =>
    have heq := (readNatural_trim_eq_some_iff.mpr hn).symm.trans (readNatural_trim_eq_some_iff.mpr hm)
    exact Option.some.inj heq
  | _ => cases hn

/-- **Which counts are read.** A value is read as a count exactly if it spells one of 64 bits. -/
theorem readCount_eq_ok_iff {node : Json} {n : UInt64} :
    readCount node = .ok n ↔ node.IsCount n.toNat := by
  unfold readCount
  extract_lets count
  have hcount (k : ℕ) : count = some k ↔ node.IsCount k := by
    subst count
    cases node with
    | integer n =>
      have hcast : n = (k : ℤ) ↔ 0 ≤ n ∧ n.toNat = k := by omega
      simp [Json.IsCount, hcast]
    | text s => exact readNatural_trim_eq_some_iff
    | _ => simp [Json.IsCount]
  rw [← hcount]
  clear_value count
  cases count with
  | none => simp [Decoded.reject]
  | some k =>
    by_cases hk : k < twoTo 64
    · have hvalue : UInt64.ofNat k = n ↔ k = n.toNat := by
        rw [← UInt64.toNat_inj, UInt64.toNat_ofNat_of_lt' hk]
      simp [Option.filter, hk, hvalue]
    · have hlt := n.toNat_lt
      have hne : k ≠ n.toNat := fun h => hk (h ▸ hlt)
      simp [Option.filter, hk, hne, Decoded.reject]

/-! ### Options -/

namespace FieldOptions

/-- The two names of an option: in camel case, and with underscores. -/
def Spells (name key : String) : Prop :=
  key = name ∨ key = withUnderscores name

/-- The options that are counts. -/
def countNames : List String :=
  ["minLength", "maxLength", "minItems", "maxItems", "minProperties", "maxProperties"]

/-- The member of an overlay has the same option behind it as another one: under either name of the
option, with the same value or, for a count, with another spelling of it. -/
def RespelledMember (member other : String × Json) : Prop :=
  ∃ name ∈ members.map (·.name), Spells name member.1 ∧ Spells name other.1 ∧
    (other.2 = member.2 ∨
      name ∈ countNames ∧ ∃ n, Json.IsCount n member.2 ∧ Json.IsCount n other.2)

/-- Another spelling of the members of an overlay, in any order. -/
def Respelled (overlay other : List (String × Json)) : Prop :=
  ∃ arranged, overlay.Perm arranged ∧ List.Forall₂ RespelledMember arranged other

/-- The table by which overlays are read. -/
def record : Record Json FieldOptions :=
  { Member.record "FieldSchemaOptions" blank members with closed := true }

theorem ofJson_eq : ofJson = record.decode := rfl

theorem nodup_names : record.names.Nodup := by
  decide

theorem mem_names_of_spells {member : Member FieldOptions} (hmember : member ∈ members)
    {key : String} (h : Spells member.name key) : key ∈ member.names := by
  have haliases : ∀ member ∈ members, member.aliases =
      if withUnderscores member.name = member.name then [] else [withUnderscores member.name] := by
    simp only [members, List.forall_mem_cons, List.not_mem_nil, false_imp_iff, implies_true, and_true]
    and_intros <;> rfl
  rw [Slot.names, haliases member hmember]
  rcases h with rfl | rfl
  · exact List.mem_cons_self
  · split
    · rename_i hsame
      rw [hsame]
      exact List.mem_cons_self
    · exact List.mem_cons_of_mem _ List.mem_cons_self

example : (members.map (·.name)).map (fun name => (name, withUnderscores name)) =
    [("ignore", "ignore"), ("title", "title"), ("description", "description"), ("format", "format"),
      ("pattern", "pattern"), ("minimum", "minimum"), ("maximum", "maximum"),
      ("exclusiveMinimum", "exclusive_minimum"), ("exclusiveMaximum", "exclusive_maximum"),
      ("minLength", "min_length"), ("maxLength", "max_length"), ("minItems", "min_items"),
      ("maxItems", "max_items"), ("uniqueItems", "unique_items"),
      ("minProperties", "min_properties"), ("maxProperties", "max_properties"),
      ("contentEncoding", "content_encoding"), ("contentMediaType", "content_media_type")] := by
  decide

theorem exists_count_of_mem_countNames :
    ∀ name ∈ countNames, ∃ get set, count name get set ∈ members := by
  simp only [countNames, List.forall_mem_cons, List.not_mem_nil, false_imp_iff, implies_true, and_true]
  exact ⟨⟨_, _, List.mem_of_getElem? (i := 9) rfl⟩, ⟨_, _, List.mem_of_getElem? (i := 10) rfl⟩,
    ⟨_, _, List.mem_of_getElem? (i := 11) rfl⟩, ⟨_, _, List.mem_of_getElem? (i := 12) rfl⟩,
    ⟨_, _, List.mem_of_getElem? (i := 14) rfl⟩, ⟨_, _, List.mem_of_getElem? (i := 15) rfl⟩⟩

theorem writesApart : record.WritesApart := by
  simp only [Record.WritesApart, record, Member.record, members, List.map_cons, List.map_nil,
    List.pairwise_cons, List.forall_mem_cons, List.not_mem_nil, false_imp_iff, implies_true, and_true,
    List.Pairwise.nil]
  and_intros <;> exact Slot.apart_of_sets rfl rfl fun _ _ _ => rfl

/-- What contributes to the options, does so in each of its spellings. -/
theorem restates_of_respelledMember {member other : String × Json} (h : RespelledMember member other) :
    record.Restates member other := by
  intro c hgives
  obtain ⟨name, hname, hkey, hkey', hvalue⟩ := h
  -- Both keys lead to each option of that name.
  have hslots : ∀ option ∈ members, option.name = name →
      record.slot? member.1 = some option.toSlot ∧ record.slot? other.1 = some option.toSlot := by
    rintro option hoption rfl
    have hslot : option.toSlot ∈ record.slots := List.mem_map_of_mem hoption
    exact ⟨Record.slot?_eq_some nodup_names hslot (mem_names_of_spells hoption hkey),
      Record.slot?_eq_some nodup_names hslot (mem_names_of_spells hoption hkey')⟩
  rcases hvalue with hvalue | ⟨hcount, n, hn, hn'⟩
  · obtain ⟨option, hoption, hoptionName⟩ := List.mem_map.mp hname
    obtain ⟨hslot, hslot'⟩ := hslots option hoption hoptionName
    exact ⟨hslot'.trans (hslot.symm.trans hgives.1), hvalue ▸ hgives.2⟩
  · obtain ⟨get, set, hoption⟩ := exists_count_of_mem_countNames name hcount
    obtain ⟨hslot, hslot'⟩ := hslots _ hoption rfl
    have hsame : c.slot = (count name get set).toSlot := Option.some.inj (hgives.1.symm.trans hslot)
    refine ⟨hslot'.trans (congrArg some hsame.symm), ?_⟩
    have hread := hgives.2
    rw [hsame] at hread ⊢
    obtain ⟨k, hk, hchange⟩ := Except.map_eq_ok.mp hread
    have hkn : k.toNat = n := (readCount_eq_ok_iff.mp hk).unique hn
    exact Except.map_eq_ok.mpr ⟨k, readCount_eq_ok_iff.mpr (hkn ▸ hn'), hchange⟩

/-- **Spellings of one overlay give the same options.** -/
theorem ofJson_respelled {overlay other : List (String × Json)} (h : Respelled overlay other)
    {o : FieldOptions} (ho : ofJson (.object overlay) = .ok o) : ofJson (.object other) = .ok o := by
  obtain ⟨arranged, hperm, hrespelled⟩ := h
  exact Record.decode_restated rfl writesApart hperm
    (hrespelled.imp fun _ _ => restates_of_respelledMember) ho

end FieldOptions

end MessageSchema
