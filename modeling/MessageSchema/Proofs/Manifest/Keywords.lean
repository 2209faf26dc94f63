import MessageSchema.Proofs.Manifest.Messages

/-!
# Keywords that hide declared types

A type is read as a scalar wherever it spells the keyword of one, and keywords are read in any case,
with or without `TYPE_` in front. Every other name is looked up. So a declared type is out of reach of
a name that spells a keyword, although the name is not one.

## Main definitions

* `FieldKind.IsScalar`: a kind that is neither a message nor an enum.
* `Manifest.Spells`: a text spells the keyword of a scalar kind.

## Main results

* `Manifest.scalarKind?_eq_some_iff`: types are read as scalars where they spell a keyword.
* `Manifest.references_iff_not_spells`: a name that means a declared type leads to it unless it spells
  a keyword.
-/

namespace MessageSchema

namespace FieldKind

variable {name : String} {kind : FieldKind}

/-- A kind whose values are neither messages nor numbers of an enum. -/
def IsScalar (kind : FieldKind) : Prop :=
  kind.isMessage = false ∧ kind ≠ .enum

/-- The keyword of a scalar kind. -/
def IsKeyword (name : String) : Prop :=
  ∃ kind : FieldKind, kind.IsScalar ∧ name = kind.keyword

theorem mem_all (kind : FieldKind) : kind ∈ all := by
  cases kind <;> simp [all]

theorem keyword_injective : Function.Injective keyword := by
  intro kind other h
  cases kind <;> cases other <;> first | rfl | (exact absurd h (by decide))

theorem ofKeyword?_eq_some_iff : ofKeyword? name = some kind ↔ kind.keyword = name := by
  constructor
  · intro h
    simpa using List.find?_some h
  · rintro rfl
    obtain ⟨found, hfound⟩ : ∃ found, ofKeyword? kind.keyword = some found :=
      Option.isSome_iff_exists.mp (List.find?_isSome.mpr ⟨kind, mem_all kind, by simp⟩)
    have hkeyword : found.keyword = kind.keyword := by simpa using List.find?_some hfound
    rw [hfound, keyword_injective hkeyword]

end FieldKind

namespace Manifest

variable {manifest : Manifest} {names : Dictionary Declared} {set : DescriptorSet}
  {full text : String} {kind : FieldKind}

/-- A text with its capital letters replaced by small ones. -/
def lowered (text : String) : String :=
  String.ofList (text.toList.map Char.toLower)

/-- A text spells the keyword of a scalar kind: it is the keyword in any case, with or without `TYPE_`
in front. -/
def Spells (text : String) (kind : FieldKind) : Prop :=
  kind.IsScalar ∧ ∃ bare, (text = bare ∨ text = "TYPE_" ++ bare) ∧ lowered bare = kind.keyword

theorem lowered_append (front rest : String) : lowered (front ++ rest) = lowered front ++ lowered rest := by
  simp [lowered]

/-- No keyword begins with the prefix that may stand in front of it. -/
theorem keyword_ne_prefixed (kind : FieldKind) (rest : String) : kind.keyword ≠ "type_" ++ rest := by
  intro h
  have hstrip := Text.stripStart?_eq_some_iff.mpr h
  cases kind <;> exact absurd hstrip (by simp [FieldKind.keyword, Text.stripStart?, Text.after?])

theorem ofName?_eq_some_iff : FieldKind.ofName? text = some kind ↔
    ∃ bare, (text = bare ∨ text = "TYPE_" ++ bare) ∧ lowered bare = kind.keyword := by
  rw [FieldKind.ofName?, FieldKind.ofKeyword?_eq_some_iff]
  cases hstrip : Text.stripStart? "TYPE_" text with
  | some rest =>
    obtain rfl := Text.stripStart?_eq_some_iff.mp hstrip
    constructor
    · exact fun h => ⟨rest, .inr rfl, h.symm⟩
    · rintro ⟨bare, rfl | h, hkeyword⟩
      · rw [lowered_append] at hkeyword
        exact absurd hkeyword.symm (keyword_ne_prefixed kind _)
      · rw [String.append_right_inj] at h
        subst h
        exact hkeyword.symm
  | none =>
    constructor
    · exact fun h => ⟨text, .inl rfl, h.symm⟩
    · rintro ⟨bare, rfl | rfl, hkeyword⟩
      · exact hkeyword.symm
      · simp at hstrip

/-- Types are read as scalars where they spell a keyword. -/
theorem scalarKind?_eq_some_iff : scalarKind? text = some kind ↔ Spells text kind := by
  rw [scalarKind?, Option.filter_eq_some_iff, ofName?_eq_some_iff, Spells, and_comm,
    FieldKind.IsScalar]
  simp

theorem scalarKind?_eq_none_iff : scalarKind? text = none ↔ ¬ ∃ kind, Spells text kind := by
  simp only [← scalarKind?_eq_some_iff, not_exists]
  exact Option.eq_none_iff_forall_ne_some

/-- A field references what is declared under a full name. -/
def References (full : String) (declared : Declared) (field : Field) : Prop :=
  field.kind = declared.kind ∧ field.typeName = some full

theorem references_iff_of_typedBy (hnames : manifest.declared = .ok names) {scope target : String}
    {declared : Declared} {field : Field}
    (htyped : manifest.TypedBy scope text field.kind field.typeName)
    (hmeans : manifest.Means scope text target declared) :
    References target declared field ↔ ¬ ∃ kind, Spells text kind := by
  rw [← scalarKind?_eq_none_iff]
  constructor
  · rintro ⟨-, hname⟩
    refine Option.eq_none_iff_forall_ne_some.mpr fun kind hkind => ?_
    rw [(htyped.eq_scalar hkind).2] at hname
    cases hname
  · intro hscalar
    obtain ⟨full, other, hother, hkind, hname⟩ := htyped.exists_means hscalar
    obtain ⟨rfl, rfl⟩ := hother.unique hnames hmeans
    exact ⟨hkind, hname⟩

/-- **What keywords hide.** In an accepted manifest, let a field of a declared message have a type, or
a map whose values have a type, that means a declared message or enum. The descriptor references what
is meant unless the type spells the keyword of a scalar kind; then it does not. -/
theorem references_iff_not_spells (h : manifest.descriptors = .ok set) {spec : MessageSpec}
    (hspec : manifest.Declares full spec) : ∃ message ∈ set.messages, message.fullName = full ∧
      List.Forall₂ (fun spec field =>
        (∀ text target declared, spec.type = some text → manifest.Means full text target declared →
          (References target declared field ↔ ¬ ∃ kind, Spells text kind)) ∧
        ∀ map target declared, spec.map = some map →
          manifest.Means full map.value target declared →
          ∃ entry ∈ message.nested, field.typeName = some entry.fullName ∧
            ∃ value, entry.fieldByNumber? Message.valueNumber = some value ∧
              (References target declared value ↔ ¬ ∃ kind, Spells map.value kind))
        spec.fields message.fields := by
  obtain ⟨names, hnames, -⟩ := descriptors_eq_ok h
  obtain ⟨message, hmessage, hdescribes⟩ := exists_descriptor h hspec
  refine ⟨message, hmessage, hdescribes.fullName, hdescribes.fields.imp fun spec field hfield => ?_⟩
  rcases hfield.typed with ⟨text, htype, hmap, -, htyped⟩ |
    ⟨map, entry, htype, hmap, -, hname, hentry, his⟩
  · refine ⟨fun other target declared hother hmeans => ?_, by simp [hmap]⟩
    obtain rfl := Option.some.inj (htype.symm.trans hother)
    exact references_iff_of_typedBy hnames htyped hmeans
  · refine ⟨by simp [htype], fun other target declared hother hmeans => ?_⟩
    obtain rfl := Option.some.inj (hmap.symm.trans hother)
    obtain ⟨key, value, hfields, hkey, hvalue, -, -, -, -, htyped⟩ := his.fields
    refine ⟨entry, hentry, hname, value, ?_, references_iff_of_typedBy hnames htyped hmeans⟩
    simp [Message.fieldByNumber?, hfields, hkey, hvalue, Message.keyNumber, Message.valueNumber]

/-- A message with a field of a type whose name spells a keyword, and a field of its own type. -/
def holder : MessageSpec where
  name := "M"
  fields := [{ name := "x", type := some "String" }, { name := "y", type := some "M" }]

/-- A file with that message, and another of the name that spells a keyword. -/
def stringsFile : FileSpec where
  path := "a.proto"
  messages := [{ name := "String" }, holder]

/-- The manifest of that file. -/
def strings : Manifest where
  files := [stringsFile]

theorem strings_declares_holder : strings.Declares "M" holder :=
  .of_file (List.mem_singleton_self stringsFile)
    (List.mem_cons_of_mem _ (List.mem_singleton_self holder)) (by decide)

theorem strings_means : strings.Means "M" "String" "String" .message ∧
    strings.Means "M" "M" "M" .message := by
  obtain ⟨names, hnames, hfound⟩ : ∃ names, strings.declared = .ok names ∧ decide (
      resolve? names "M" "String" = some ("String", .message) ∧
      resolve? names "M" "M" = some ("M", .message)) = true :=
    Except.exists_of_succeedsWith (by decide +kernel)
  obtain ⟨hstring, hm⟩ := of_decide_eq_true hfound
  exact ⟨(resolve?_eq_some_iff hnames).mp hstring, (resolve?_eq_some_iff hnames).mp hm⟩

/-- The name that spells a keyword does not lead to its message, the other one does. -/
theorem references_iff_not_spells_strings : ∃ set, strings.descriptors = .ok set ∧
    strings.Declares "M" holder ∧ ∃ message ∈ set.messages, message.fullName = "M" ∧
      ∃ x y, message.fields = [x, y] ∧ ¬ References "String" .message x ∧
        References "M" .message y := by
  obtain ⟨set, hset, -⟩ : ∃ set, strings.descriptors = .ok set ∧ true = true :=
    Except.exists_of_succeedsWith (by decide +kernel)
  obtain ⟨message, hmessage, hname, hfields⟩ := references_iff_not_spells hset strings_declares_holder
  obtain ⟨hstring, hm⟩ := strings_means
  generalize hfieldsOf : message.fields = fields at hfields
  obtain _ | ⟨⟨hx, -⟩, _ | ⟨⟨hy, -⟩, hnil⟩⟩ := hfields
  obtain rfl := List.forall₂_nil_left_iff.mp hnil
  refine ⟨set, hset, strings_declares_holder, message, hmessage, hname, _, _, hfieldsOf, ?_, ?_⟩
  · rw [hx "String" "String" .message rfl hstring, not_not]
    exact ⟨.string, ⟨rfl, by decide⟩, "String", .inl rfl, by decide +kernel⟩
  · rw [hy "M" "M" .message rfl hm, ← scalarKind?_eq_none_iff]
    decide +kernel

/-- **A declared type may be hidden.** It is not true that every type which is no keyword, and which
means a declared message or enum, leads to it. -/
theorem not_references_of_not_keyword :
    ¬ ∀ (manifest : Manifest) (set : DescriptorSet) (full : String) (spec : MessageSpec),
      manifest.descriptors = .ok set → manifest.Declares full spec →
      ∃ message ∈ set.messages, message.fullName = full ∧ List.Forall₂ (fun spec field =>
        ∀ text target declared, spec.type = some text → ¬ FieldKind.IsKeyword text →
          manifest.Means full text target declared → References target declared field)
        spec.fields message.fields := by
  intro h
  obtain ⟨set, hset, hnone⟩ : ∃ set, strings.descriptors = .ok set ∧
      (set.messages.all fun message => message.fields.head?.all (·.typeName.isNone)) = true :=
    Except.exists_of_succeedsWith (by decide +kernel)
  obtain ⟨message, hmessage, -, hfields⟩ := h strings set "M" holder hset strings_declares_holder
  have hkeyword : ¬ FieldKind.IsKeyword "String" := by
    rintro ⟨kind, -, hkind⟩
    cases kind <;> exact absurd hkind (by decide)
  have hhidden := List.all_eq_true.mp hnone message hmessage
  generalize message.fields = fields at hfields hhidden
  obtain _ | ⟨hx, -⟩ := hfields
  obtain ⟨-, hname⟩ := hx "String" "String" .message rfl hkeyword strings_means.1
  simp [hname] at hhidden

end Manifest

end MessageSchema
