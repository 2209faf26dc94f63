import MessageSchema.Proofs.Selection.Exactness
import MessageSchema.Proofs.Synthesis.Exactness

/-!
# Schemas of what is selected

A selection takes with it exactly what the schemas of its messages refer to, so the schemas of a
selection leave no message out. Both sides look at the fields of a message by themselves: the
selection at the messages that a field holds, the schema at the references of its property. They
agree as long as the entries of map fields, which are never selected, stay inside map fields.

## Main definitions

* `DescriptorSet.MapsHoldMessages`, `DescriptorSet.EntriesStayInMaps`, `DescriptorSet.MapsAreFlat`:
  how the entries of map fields are used.
* `Synthesis.Tolerated`: the faults that a selection does not rule out.

## Main results

* `Synthesis.error_of_root_selected`: the root of a selected message fails only with such a fault.
* `Synthesis.unresolved_map_of_maps`: a map field whose values are a map field does not agree.
-/

namespace MessageSchema

namespace DescriptorSet

variable {set : DescriptorSet} {owner message : Message} {field : Field}

/-- Every map field has the kind of a message. -/
def MapsHoldMessages (set : DescriptorSet) : Prop :=
  ∀ owner ∈ set.messages, ∀ field ∈ owner.fields, field.isMap = true → field.kind.isMessage = true

/-- A field that is no map field does not name the entry of a map field. -/
def EntriesStayInMaps (set : DescriptorSet) : Prop :=
  ∀ owner ∈ set.messages, ∀ field ∈ owner.fields, field.isMap = false →
    ∀ message, set.pool.message? field.target = some message → message.mapEntry = false

/-- The values of a map field are not a map field themselves. -/
def MapsAreFlat (set : DescriptorSet) : Prop :=
  ∀ owner ∈ set.messages, ∀ field ∈ owner.fields, field.isMap = true →
    ∀ entry, set.pool.message? field.target = some entry →
      ∀ value, entry.fieldByNumber? Message.valueNumber = some value → value.isMap = false

instance (set : DescriptorSet) : Decidable set.MapsHoldMessages :=
  inferInstanceAs (Decidable (∀ owner ∈ set.messages, ∀ field ∈ owner.fields,
    field.isMap = true → field.kind.isMessage = true))

instance (set : DescriptorSet) : Decidable set.EntriesStayInMaps :=
  inferInstanceAs (Decidable (∀ owner ∈ set.messages, ∀ field ∈ owner.fields,
    field.isMap = false → ∀ message ∈ set.pool.message? field.target, message.mapEntry = false))

instance (set : DescriptorSet) : Decidable set.MapsAreFlat :=
  inferInstanceAs (Decidable (∀ owner ∈ set.messages, ∀ field ∈ owner.fields,
    field.isMap = true → ∀ entry ∈ set.pool.message? field.target,
      ∀ value ∈ entry.fieldByNumber? Message.valueNumber, value.isMap = false))

/-- What a field holds is no entry of a map field. -/
theorem mapEntry_of_holds (hentries : set.EntriesStayInMaps) (hflat : set.MapsAreFlat)
    (howner : owner ∈ set.messages) (hfield : field ∈ owner.fields)
    (hholds : set.pool.Holds field message) : message.mapEntry = false := by
  rw [Pool.Holds] at hholds
  split at hholds
  · rename_i hmap
    obtain ⟨entry, value, hentry, hvalue, -, hmessage⟩ := hholds
    exact hentries entry (mem_messages_of_message? hentry) value (List.mem_of_find?_eq_some hvalue)
      (hflat owner howner field hfield hmap entry hentry value hvalue) message hmessage
  · rename_i hmap
    exact hentries owner howner field hfield (Bool.eq_false_iff.mpr hmap) message hholds.2

end DescriptorSet

namespace Synthesis

variable {set : DescriptorSet} {candidates selected : List Message} {default : Bool}
  {names : List String} {message : Message} {e : SchemaError}

/-- A fault that a selection does not rule out: an unsupported field, options that cannot be read, or
an enum that is not declared. -/
inductive Tolerated (set : DescriptorSet) : SchemaError → Prop
  | unsupported {owner : Message} {field : UnsupportedField} (howner : owner ∈ set.messages)
      (hfield : field ∈ owner.unsupported) : Tolerated set (owner.unsupportedFault field)
  | malformed (scope reason : String) : Tolerated set (.malformedOption scope reason)
  | undeclared {owner : Message} {field : Field} (howner : owner ∈ set.messages)
      (hfield : field ∈ owner.fields) (hkind : field.kind = .enum)
      (hnone : set.pool.enumeration? field.target = none) :
      Tolerated set (Pool.unresolved owner field field.target)

theorem error_of_readOverlay {α : Type} {read : Json → Decoded α} {scope : String}
    {overlay : Option Json} (h : readOverlay read scope overlay = .error e) :
    ∃ reason, e = .malformedOption scope reason := by
  unfold readOverlay at h
  split at h
  · cases h
  · cases h
  · split at h
    · cases h
    · exact ⟨_, (Except.error.inj h).symm⟩

theorem error_of_fieldOptions {owner : Message} {field : Field}
    (h : field.options owner = .error e) : ∃ scope reason, e = .malformedOption scope reason := by
  rcases Except.bind_eq_error.mp h with h | ⟨options, -, h⟩
  · exact ⟨_, error_of_readOverlay h⟩
  · split at h
    · rcases Except.bind_eq_error.mp h with h | ⟨_, -, h⟩
      · unfold FieldOptions.check at h
        split at h
        · exact ⟨_, _, (Except.error.inj h).symm⟩
        · cases h
      · exact absurd h Except.pure_ne_error
    · exact absurd h Except.pure_ne_error

/-- The schema of a sound message fails only with a tolerated fault, as long as every message that
its fields hold is selected. -/
theorem tolerated_of_ofMessage (hmaps : set.MapsHoldMessages) (hmessage : message ∈ set.messages)
    (hsound : Selection.Sound set.pool message)
    (hselected : ∀ field ∈ message.fields, ∀ other, set.pool.Holds field other →
      other.fullName ∈ names)
    (h : Shape.ofMessage set.pool names message = .error e) : Tolerated set e := by
  rcases Shape.error_of_ofMessage h with ⟨field, hfield, rfl⟩ | ⟨field, hfield, h⟩
  · exact .unsupported hmessage hfield
  · rcases Shape.error_of_property? h with h | h | ⟨other, hother, hout, -⟩
    · obtain ⟨scope, reason, rfl⟩ := error_of_fieldOptions h
      exact .malformed scope reason
    · rcases h with ⟨hneeds, hfail⟩ | ⟨holder, inner, hinner, hkind, hnone, rfl⟩
      · exact absurd (hsound.1 field hfield (hneeds.elim (hmaps message hmessage field hfield) id)) hfail
      · rcases hinner with ⟨rfl, rfl⟩ | ⟨hholder, hinner⟩
        · exact .undeclared hmessage hfield hkind hnone
        · exact .undeclared (DescriptorSet.mem_messages_of_message? hholder) hinner hkind hnone
    · exact absurd (hselected field hfield other hother) hout

/-- The messages that the fields of a selected message hold are selected, unless they are entries of
map fields. -/
theorem mem_of_holds (hmaps : set.MapsHoldMessages)
    (hselects : ∀ message, message ∈ selected ↔
      Selection.Selects set.pool candidates default [] message)
    (hmessage : message ∈ selected) (hmem : message ∈ set.messages) {field : Field}
    (hfield : field ∈ message.fields) {other : Message} (hholds : set.pool.Holds field other)
    (hentry : other.mapEntry = false) : other ∈ selected := by
  have hkind : field.kind.isMessage = true := by
    by_cases hmap : field.isMap = true
    · exact hmaps message hmem field hfield hmap
    · rw [Pool.Holds, if_neg hmap] at hholds
      exact hholds.1
  have htakes : Selection.Takes set.pool message other :=
    ⟨.inl ⟨field, hfield, hkind, hholds⟩, hentry⟩
  exact (hselects other).mpr (((hselects message).mp hmessage).step htakes (by simp))

/-- A name that is added to a registry for a selected message is that of a selected message. -/
theorem mem_of_adds (hunique : set.DeclaredOnce) (hdot : set.Undotted)
    (hmem : ∀ message ∈ selected, message ∈ set.messages) {k : String}
    (hmessage : message ∈ selected)
    (hadds : Adds set.pool (selected.map (·.fullName)) [] message.fullName k) :
    ∃ other ∈ selected, other.fullName = k := by
  induction hadds with
  | start hs => exact ⟨message, hmessage, hs.symm⟩
  | @step k k' _ hedge _ ih =>
    obtain ⟨other, hother, rfl⟩ := ih
    obtain ⟨shape, hshape, hk'⟩ := hedge
    obtain ⟨ref, href, hname⟩ := List.mem_filterMap.mp hk'
    rw [shapeOf, hunique.message?_fullName hdot (hmem other hother)] at hshape
    obtain ⟨_, -, target, -, rfl, htarget⟩ := Shape.ref_of_ofMessage hshape href
    obtain rfl : target.fullName = k' := by simpa using hname
    exact List.mem_map.mp htarget

theorem error_of_root {pool : Pool} {name : String} (h : root pool names name = .error e) :
    ∃ k, Adds pool names [] name k ∧ shapeOf pool names k = .error e := by
  refine error_of_fill ?_
  unfold root at h
  split at h
  · cases h
  · rename_i hfill
    cases h
    rw [hfill]

/-- The root of a selected message fails because a selected message has no schema. -/
theorem exists_selected_of_error_of_root (hunique : set.DeclaredOnce) (hdot : set.Undotted)
    (hmem : ∀ message ∈ selected, message ∈ set.messages) (hmessage : message ∈ selected)
    (h : root set.pool (selected.map (·.fullName)) message.fullName = .error e) :
    ∃ other ∈ selected, Shape.ofMessage set.pool (selected.map (·.fullName)) other = .error e := by
  obtain ⟨k, hadds, hfail⟩ := error_of_root h
  obtain ⟨other, hother, rfl⟩ := mem_of_adds hunique hdot hmem hmessage hadds
  rw [shapeOf, hunique.message?_fullName hdot (hmem other hother)] at hfail
  exact ⟨other, hother, hfail⟩

/-- **Agreement.** In a set that declares each name once and without a dot in front, where map fields
hold messages, their values are no map fields and their entries are named by map fields only, the
root of a selected message fails only with an unsupported field, unreadable options or an enum that
is not declared: never for lack of a message. -/
theorem error_of_root_selected (hunique : set.DeclaredOnce) (hdot : set.Undotted)
    (hmaps : set.MapsHoldMessages) (hentries : set.EntriesStayInMaps) (hflat : set.MapsAreFlat)
    (hcandidates : ∀ m ∈ candidates, m ∈ set.messages) (default : Bool)
    (hselect : (Selection.select set.pool candidates default []).2 = .ok selected)
    (hmessage : message ∈ selected)
    (hroot : root set.pool (selected.map (·.fullName)) message.fullName = .error e) :
    Tolerated set e := by
  obtain ⟨-, hselects, -, hsound⟩ := Selection.mem_of_select_eq_ok hunique hcandidates
    (Prod.ext rfl hselect : Selection.select set.pool candidates default [] = (_, .ok selected))
  have hmem : ∀ message ∈ selected, message ∈ set.messages := fun message h =>
    Selection.mem_messages_of_selects hcandidates ((hselects message).mp h)
  obtain ⟨other, hother, hfail⟩ := exists_selected_of_error_of_root hunique hdot hmem hmessage hroot
  refine tolerated_of_ofMessage hmaps (hmem other hother) (hsound other hother)
    (fun field hfield target hholds => ?_) hfail
  have hentry : target.mapEntry = false :=
    DescriptorSet.mapEntry_of_holds hentries hflat (hmem other hother) hfield hholds
  exact List.mem_map_of_mem
    (mem_of_holds hmaps hselects hother (hmem other hother) hfield hholds hentry)

/-- An order fails because the state of its lines is not declared. -/
theorem error_of_root_selected_orders :
    Selection.orders.DeclaredOnce ∧ Selection.orders.Undotted ∧
    Selection.orders.MapsHoldMessages ∧ Selection.orders.EntriesStayInMaps ∧
    Selection.orders.MapsAreFlat ∧
    ∃ selected, (Selection.select Selection.orders.pool [Selection.order] true []).2 =
        .ok selected ∧
      ∃ e, root Selection.orders.pool (selected.map (·.fullName)) "shop.Order" = .error e ∧
        e = .unresolvedReference "shop.Line" (some "state") "shop.State" ∧
        Tolerated Selection.orders e := by
  have horder : Selection.order ∈ Selection.orders.messages :=
    DescriptorSet.mem_messages_of_file (List.mem_singleton_self _) (List.mem_cons_self ..)
  have hcandidates : ∀ m ∈ [Selection.order], m ∈ Selection.orders.messages := by
    simpa using horder
  refine ⟨by decide, by decide, by decide, by decide, by decide, [Selection.order, Selection.line, Selection.note],
    rfl, _, rfl, rfl, ?_⟩
  have hfirst : Selection.order ∈ [Selection.order, Selection.line, Selection.note] :=
    List.mem_cons_self ..
  exact error_of_root_selected (by decide) (by decide) (by decide) (by decide) (by decide)
    hcandidates true rfl hfirst rfl

/-- A message with a map field whose values are a map field. -/
def mapOfMaps : DescriptorSet where
  files := [{
    path := "a.proto"
    package := "a"
    messages := [
      { name := "M", fullName := "a.M", file := "a.proto",
        fields := [
          { name := "m", number := 1, kind := .message, cardinality := .map,
            typeName := some "a.M.Outer" }],
        nested := [
          { name := "Outer", fullName := "a.M.Outer", file := "a.proto",
            fields := [
              { name := "key", number := 1, kind := .string },
              { name := "value", number := 2, kind := .message, cardinality := .map,
                typeName := some "a.M.Inner" }],
            mapEntry := true },
          { name := "Inner", fullName := "a.M.Inner", file := "a.proto",
            fields := [
              { name := "key", number := 1, kind := .string },
              { name := "value", number := 2, kind := .string }],
            mapEntry := true }] }] }]
  targets := []

/-- **Maps of maps do not agree.** The entry of the inner map field is never selected, but the outer
map field refers to it, so that the root of a selected message fails for lack of a message that is
declared. -/
theorem unresolved_map_of_maps :
    ¬ ∀ (set : DescriptorSet) (candidates selected : List Message) (default : Bool),
      set.DeclaredOnce → set.Undotted → set.MapsHoldMessages → set.EntriesStayInMaps →
      (∀ m ∈ candidates, m ∈ set.messages) →
      (Selection.select set.pool candidates default []).2 = .ok selected →
      ∀ message ∈ selected, ∀ owner field target,
        root set.pool (selected.map (·.fullName)) message.fullName =
          .error (.unresolvedReference owner field target) →
        set.pool.message? target = none := by
  intro h
  have hfile : ∀ m ∈ (mapOfMaps.files.flatMap (·.messages)), m ∈ mapOfMaps.messages := by
    intro m hm
    obtain ⟨file, hfile, hm⟩ := List.mem_flatMap.mp hm
    exact DescriptorSet.mem_messages_of_file hfile hm
  have hnone := h mapOfMaps _ _ true (by decide) (by decide) (by decide) (by decide) hfile rfl
    _ (List.mem_cons_self ..) "a.M" (some "m") "a.M.Inner" rfl
  cases hnone

end Synthesis

end MessageSchema
