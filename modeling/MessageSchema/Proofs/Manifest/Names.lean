import MessageSchema.Manifest.Load
import MessageSchema.Proofs.Dictionary
import MessageSchema.Proofs.Except
import MessageSchema.Proofs.Scopes

/-!
# What names mean in a manifest

A manifest declares messages, the entries of map fields and enums, each under the name of everything
around it. A name in a field means the declaration in the innermost scope that has one. The lookup,
which cuts scopes at their dots, finds exactly that declaration.

## Main definitions

* `Manifest.Declares`: a message is declared under a full name.
* `Manifest.DeclaresType`: a message, an entry or an enum is declared under a full name.
* `Manifest.Means`: what a name means in a scope.

## Main results

* `Manifest.mem_declarations`: the listed names are those that are declared.
* `Manifest.nodup_declarations`: in an accepted manifest each name is declared once.
* `Manifest.resolve?_eq_some_iff`: lookup finds what a name means.
-/

namespace MessageSchema

namespace Manifest

variable {manifest : Manifest} {names : Dictionary Declared} {scope name full : String}
  {kind : Declared}

/-! ### Declarations -/

/-- A message is declared under a full name, at the top of a file or inside another message. -/
inductive Declares (manifest : Manifest) : String → MessageSpec → Prop
  | ofFile {file spec} : file ∈ manifest.files → spec ∈ file.messages →
      Declares manifest (Text.qualified file.package spec.name) spec
  | ofMessage {full outer spec} : Declares manifest full outer → spec ∈ outer.messages →
      Declares manifest (Text.qualified full spec.name) spec

theorem Declares.of_file {file : FileSpec} {spec : MessageSpec} (hfile : file ∈ manifest.files)
    (hspec : spec ∈ file.messages) (hname : Text.qualified file.package spec.name = full) :
    manifest.Declares full spec :=
  hname ▸ .ofFile hfile hspec

/-- Something is declared under a full name. -/
inductive DeclaresType (manifest : Manifest) : String → Declared → Prop
  | message {full spec} : Declares manifest full spec → DeclaresType manifest full .message
  | entry {full spec field} : Declares manifest full spec → field ∈ spec.fields →
      field.map.isSome = true →
      DeclaresType manifest (Text.qualified full (entryName field.name)) .message
  | enumOfMessage {full spec e} : Declares manifest full spec → e ∈ spec.enums →
      DeclaresType manifest (Text.qualified full e.name) .enum
  | enumOfFile {file e} : file ∈ manifest.files → e ∈ file.enums →
      DeclaresType manifest (Text.qualified file.package e.name) .enum

/-- No declared name begins with a dot. -/
def Undotted (manifest : Manifest) : Prop :=
  ∀ full kind, manifest.DeclaresType full kind → ¬ Text.BeginsWithDot full

theorem declaredByMessage_eq (scope : String) (spec : MessageSpec) :
    declaredByMessage scope spec =
      declaredByMessages (Text.qualified scope spec.name) spec.messages ++
        spec.enums.map (declaredByEnum (Text.qualified scope spec.name)) ++
        (spec.fields.filter (·.map.isSome)).map (fun field =>
          (Text.qualified (Text.qualified scope spec.name) (entryName field.name), .message)) ++
        [(Text.qualified scope spec.name, .message)] := by
  cases spec
  rfl

theorem declaredByMessages_eq (scope : String) (specs : List MessageSpec) :
    declaredByMessages scope specs = specs.flatMap (declaredByMessage scope) := by
  induction specs with
  | nil => rfl
  | cons spec rest ih => rw [declaredByMessages, ih, List.flatMap_cons]

mutual

theorem declaresType_of_mem_declaredByMessage {item : String × Declared} :
    ∀ (scope : String) (spec : MessageSpec), manifest.Declares (Text.qualified scope spec.name) spec →
      item ∈ declaredByMessage scope spec → manifest.DeclaresType item.1 item.2
  | scope, ⟨name, comment, options, fields, messages, enums⟩, hspec, hitem => by
    rw [declaredByMessage_eq] at hitem
    simp only [List.append_assoc, List.mem_append, List.mem_map, List.mem_filter,
      List.mem_singleton] at hitem
    rcases hitem with hitem | ⟨e, he, rfl⟩ | ⟨field, ⟨hfield, hmap⟩, rfl⟩ | rfl
    · exact declaresType_of_mem_declaredByMessages _ messages (fun _ => .ofMessage hspec) hitem
    · exact .enumOfMessage hspec he
    · exact .entry hspec hfield hmap
    · exact .message hspec

/-- Every name that messages declare is declared, if they are. -/
theorem declaresType_of_mem_declaredByMessages {item : String × Declared} :
    ∀ (scope : String) (specs : List MessageSpec),
      (∀ spec ∈ specs, manifest.Declares (Text.qualified scope spec.name) spec) →
      item ∈ declaredByMessages scope specs → manifest.DeclaresType item.1 item.2
  | _, [], _, hitem => by simp [declaredByMessages] at hitem
  | scope, spec :: rest, hspecs, hitem => by
    rw [declaredByMessages] at hitem
    rcases List.mem_append.mp hitem with hitem | hitem
    · exact declaresType_of_mem_declaredByMessage scope spec (hspecs spec (by simp)) hitem
    · exact declaresType_of_mem_declaredByMessages scope rest
        (fun spec hspec => hspecs spec (List.mem_cons_of_mem _ hspec)) hitem

end

/-- What one item of a list gives stands in order among what all items give. -/
theorem sublist_flatMap {α β : Type} {f : α → List β} {items : List α} {item : α}
    (h : item ∈ items) : (f item).Sublist (items.flatMap f) := by
  obtain ⟨before, behind, rfl⟩ := List.append_of_mem h
  rw [List.flatMap_append, List.flatMap_cons]
  exact (List.sublist_append_left _ _).trans (List.sublist_append_right _ _)

/-- What a declared message declares is listed, in order. -/
theorem Declares.sublist_declarations {spec : MessageSpec} (h : manifest.Declares full spec) :
    ∃ scope, full = Text.qualified scope spec.name ∧
      (declaredByMessage scope spec).Sublist manifest.declarations := by
  have hmessages {scope : String} {specs : List MessageSpec} {spec : MessageSpec}
      (hspec : spec ∈ specs) :
      (declaredByMessage scope spec).Sublist (declaredByMessages scope specs) :=
    declaredByMessages_eq scope specs ▸ sublist_flatMap hspec
  induction h with
  | @ofFile file spec hfile hspec =>
    have hdeclared : (declaredByMessages file.package file.messages ++
        file.enums.map (declaredByEnum file.package)).Sublist manifest.declarations :=
      sublist_flatMap (f := fun file => declaredByMessages file.package file.messages ++
        file.enums.map (declaredByEnum file.package)) hfile
    exact ⟨_, rfl, ((hmessages hspec).trans (List.sublist_append_left _ _)).trans hdeclared⟩
  | @ofMessage full outer spec _ hspec ih =>
    obtain ⟨scope, rfl, hsub⟩ := ih
    refine ⟨_, rfl, List.Sublist.trans ?_ hsub⟩
    rw [declaredByMessage_eq scope outer]
    simp only [List.append_assoc]
    exact (hmessages hspec).trans (List.sublist_append_left _ _)

theorem Declares.mem_declarations {spec : MessageSpec} (h : manifest.Declares full spec) :
    ∃ scope, full = Text.qualified scope spec.name ∧
      ∀ item ∈ declaredByMessage scope spec, item ∈ manifest.declarations := by
  obtain ⟨scope, hname, hsub⟩ := h.sublist_declarations
  exact ⟨scope, hname, fun _ hitem => hsub.subset hitem⟩

/-- The listed names are those that are declared. -/
theorem mem_declarations : (full, kind) ∈ manifest.declarations ↔ manifest.DeclaresType full kind := by
  constructor
  · intro h
    obtain ⟨file, hfile, h⟩ := List.mem_flatMap.mp h
    rcases List.mem_append.mp h with h | h
    · exact declaresType_of_mem_declaredByMessages _ file.messages (fun _ => .ofFile hfile) h
    · obtain ⟨e, he, heq⟩ := List.mem_map.mp h
      obtain ⟨rfl, rfl⟩ := Prod.ext_iff.mp heq
      exact .enumOfFile hfile he
  · rintro (h | ⟨h, hfield, hmap⟩ | ⟨h, he⟩ | ⟨hfile, he⟩)
    · obtain ⟨scope, rfl, hmem⟩ := h.mem_declarations
      exact hmem _ (by simp [declaredByMessage_eq])
    · obtain ⟨scope, rfl, hmem⟩ := h.mem_declarations
      refine hmem _ ?_
      rw [declaredByMessage_eq]
      simp only [List.append_assoc, List.mem_append, List.mem_map, List.mem_filter]
      exact .inr (.inr (.inl ⟨_, ⟨hfield, hmap⟩, rfl⟩))
    · obtain ⟨scope, rfl, hmem⟩ := h.mem_declarations
      refine hmem _ ?_
      rw [declaredByMessage_eq]
      simp only [List.append_assoc, List.mem_append, List.mem_map]
      exact .inr (.inl ⟨_, he, rfl⟩)
    · exact List.mem_flatMap.mpr
        ⟨_, hfile, List.mem_append_right _ (List.mem_map.mpr ⟨_, he, rfl⟩)⟩

instance (manifest : Manifest) : Decidable manifest.Undotted :=
  decidable_of_iff (∀ item ∈ manifest.declarations, ¬ Text.BeginsWithDot item.1)
    ⟨fun h _ _ hdeclared => h _ (mem_declarations.mpr hdeclared),
      fun h _ hitem => h _ _ (mem_declarations.mp hitem)⟩

/-! ### The names of an accepted manifest -/

/-- Names that are added one after the other, as long as each is new. -/
theorem get?_of_foldlM {items : List (String × Declared)} {start : Dictionary Declared}
    (h : items.foldlM (fun names (name, kind) =>
      if names.contains name then Except.error (LoadError.duplicateType name)
      else .ok (names.insert name kind)) start = .ok names) :
    (items.map (·.1)).Nodup ∧ (∀ item ∈ items, start.get? item.1 = none) ∧
      ∀ name kind, names.get? name = some kind ↔
        (name, kind) ∈ items ∨ start.get? name = some kind := by
  induction items generalizing start with
  | nil =>
    obtain rfl := Except.pure_eq_ok.mp h
    simp
  | cons item rest ih =>
    obtain ⟨name, kind⟩ := item
    rw [List.foldlM_cons] at h
    obtain ⟨next, hnext, h⟩ := Except.bind_eq_ok.mp h
    dsimp only at hnext
    split at hnext
    · cases hnext
    · obtain rfl := Except.ok.inj hnext
      rename_i hnew
      have hfree : start.get? name = none :=
        Dictionary.contains_eq_false_iff.mp (Bool.eq_false_iff.mpr hnew)
      obtain ⟨hnodup, hfresh, hget⟩ := ih h
      have hother : ∀ item ∈ rest, item.1 ≠ name ∧ start.get? item.1 = none := fun item hitem => by
        have := hfresh item hitem
        rw [Dictionary.get?_insert] at this
        split at this
        · cases this
        · exact ⟨‹_›, this⟩
      refine ⟨?_, ?_, fun other otherKind => ?_⟩
      · refine List.nodup_cons.mpr ⟨fun hmem => ?_, hnodup⟩
        obtain ⟨item, hitem, heq⟩ := List.mem_map.mp hmem
        exact (hother item hitem).1 heq
      · rintro item (_ | ⟨_, hitem⟩)
        · exact hfree
        · exact (hother item hitem).2
      · rw [hget, Dictionary.get?_insert, List.mem_cons, Prod.mk.injEq]
        split
        · rename_i heq
          subst heq
          simp [hfree, eq_comm, or_comm]
        · rename_i hne
          simp [hne]

/-- An accepted manifest declares each name once. -/
theorem nodup_declarations (h : manifest.declared = .ok names) :
    (manifest.declarations.map (·.1)).Nodup :=
  (get?_of_foldlM h).1

/-- The names of an accepted manifest are those that it declares. -/
theorem get?_declared (h : manifest.declared = .ok names) :
    names.get? full = some kind ↔ manifest.DeclaresType full kind := by
  rw [(get?_of_foldlM h).2.2, mem_declarations]
  simp [Dictionary.get?]

/-! ### Lookup -/

/-- What a name means in a scope. Behind a dot it is a full name. Otherwise it means the declaration
in the innermost of the scopes around that have one. -/
inductive Means (manifest : Manifest) (scope : String) : String → String → Declared → Prop
  | absolute {target declared} : manifest.DeclaresType target declared →
      Means manifest scope ("." ++ target) target declared
  | relative {text inner declared} : ¬ Text.BeginsWithDot text → Text.Encloses inner scope →
      manifest.DeclaresType (Text.qualified inner text) declared →
      (∀ outer other, Text.Encloses outer scope →
        manifest.DeclaresType (Text.qualified outer text) other → Text.Encloses outer inner) →
      Means manifest scope text (Text.qualified inner text) declared

theorem Means.declaresType (h : manifest.Means scope name full kind) :
    manifest.DeclaresType full kind := by
  cases h with
  | absolute hdeclared => exact hdeclared
  | relative _ _ hdeclared _ => exact hdeclared

theorem means_absolute_iff {rest : String} :
    manifest.Means scope ("." ++ rest) full kind ↔ rest = full ∧ manifest.DeclaresType full kind := by
  constructor
  · intro h
    generalize hname : "." ++ rest = name at h
    cases h with
    | absolute hdeclared => exact ⟨String.append_right_inj _ |>.mp hname, hdeclared⟩
    | relative hdot => exact absurd ⟨rest, hname.symm⟩ hdot
  · rintro ⟨rfl, hdeclared⟩
    exact .absolute hdeclared

theorem means_relative_iff (hdot : ¬ Text.BeginsWithDot name) :
    manifest.Means scope name full kind ↔
      ∃ inner, Text.Encloses inner scope ∧ full = Text.qualified inner name ∧
        manifest.DeclaresType full kind ∧
        ∀ outer other, Text.Encloses outer scope →
          manifest.DeclaresType (Text.qualified outer name) other → Text.Encloses outer inner := by
  constructor
  · intro h
    cases h with
    | absolute => exact absurd ⟨_, rfl⟩ hdot
    | relative _ hinner hdeclared hinnermost => exact ⟨_, hinner, rfl, hdeclared, hinnermost⟩
  · rintro ⟨inner, hinner, rfl, hdeclared, hinnermost⟩
    exact .relative hdot hinner hdeclared hinnermost

theorem resolveFrom?_eq_some_iff (h : manifest.declared = .ok names) {parts : ℕ}
    (hparts : scope.length < parts) :
    resolveFrom? names name parts scope = some (full, kind) ↔
      ∃ inner, Text.Encloses inner scope ∧ full = Text.qualified inner name ∧
        manifest.DeclaresType full kind ∧
        ∀ outer other, Text.Encloses outer scope →
          manifest.DeclaresType (Text.qualified outer name) other → Text.Encloses outer inner := by
  induction parts generalizing scope with
  | zero => omega
  | succ parts ih =>
    rw [resolveFrom?]
    cases hfound : names.get? (Text.qualified scope name) with
    | some found =>
      have hdeclared := (get?_declared h).mp hfound
      constructor
      · intro heq
        obtain ⟨rfl, rfl⟩ := Prod.ext_iff.mp (Option.some.inj heq)
        exact ⟨scope, .refl scope, rfl, hdeclared, fun outer _ houter _ => houter⟩
      · rintro ⟨inner, hinner, rfl, hkind, hinnermost⟩
        obtain rfl := hinner.antisymm (hinnermost scope found (.refl scope) hdeclared)
        rw [(get?_declared h).mpr hkind, Option.some.injEq] at hfound
        rw [hfound]
    | none =>
      have hfree : ∀ other, ¬ manifest.DeclaresType (Text.qualified scope name) other := by
        intro other hother
        rw [(get?_declared h).mpr hother] at hfound
        cases hfound
      by_cases hroot : scope = ""
      · subst hroot
        refine ⟨nofun, ?_⟩
        rintro ⟨inner, hinner, rfl, hkind, -⟩
        exact absurd (hinner.eq_root ▸ hkind) (hfree kind)
      · have hempty : scope.isEmpty = false := by simpa using hroot
        have hlength := Text.length_enclosing_lt hroot
        simp only [hempty, Bool.false_eq_true, if_false]
        rw [ih (by omega)]
        -- The scope itself declares nothing, so the scopes that matter are those around it.
        constructor
        · rintro ⟨inner, hinner, rfl, hkind, hinnermost⟩
          refine ⟨inner, (Text.encloses_iff hroot).mpr (.inr hinner), rfl, hkind,
            fun outer other houter hother => ?_⟩
          rcases (Text.encloses_iff hroot).mp houter with rfl | houter
          · exact absurd hother (hfree other)
          · exact hinnermost outer other houter hother
        · rintro ⟨inner, hinner, rfl, hkind, hinnermost⟩
          rcases (Text.encloses_iff hroot).mp hinner with rfl | hinner
          · exact absurd hkind (hfree kind)
          · exact ⟨inner, hinner, rfl, hkind, fun outer other houter hother =>
              hinnermost outer other ((Text.encloses_iff hroot).mpr (.inr houter)) hother⟩

/-- **Names mean the innermost declaration.** Lookup in the names of an accepted manifest finds what a
name means, and fails where it means nothing. -/
theorem resolve?_eq_some_iff (h : manifest.declared = .ok names) :
    resolve? names scope name = some (full, kind) ↔ manifest.Means scope name full kind := by
  rw [resolve?]
  cases hstrip : Text.stripStart? "." name with
  | some rest =>
    obtain rfl := Text.stripStart?_eq_some_iff.mp hstrip
    rw [means_absolute_iff, ← get?_declared h, Option.map_eq_some_iff]
    simp only [Prod.mk.injEq]
    constructor
    · rintro ⟨found, hfound, rfl, rfl⟩
      exact ⟨rfl, hfound⟩
    · rintro ⟨rfl, hfound⟩
      exact ⟨kind, hfound, rfl, rfl⟩
  | none =>
    have hdot : ¬ Text.BeginsWithDot name := by
      rintro ⟨rest, rfl⟩
      simp at hstrip
    rw [means_relative_iff hdot]
    exact resolveFrom?_eq_some_iff h (Nat.lt_succ_self _)

/-- A name means one thing. -/
theorem Means.unique (h : manifest.declared = .ok names) {other : String} {otherKind : Declared}
    (hmeans : manifest.Means scope name full kind)
    (hother : manifest.Means scope name other otherKind) : full = other ∧ kind = otherKind := by
  have hfound := (resolve?_eq_some_iff h).mpr hmeans
  rw [(resolve?_eq_some_iff h).mpr hother, Option.some.injEq, Prod.mk.injEq] at hfound
  exact ⟨hfound.1.symm, hfound.2.symm⟩

end Manifest

end MessageSchema
