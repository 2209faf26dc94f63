import MessageSchema.Proofs.Synthesis.Filling

/-!
# A registry is filled with exactly what is reached

Filling a registry with a message adds the message and everything it refers to, directly or not,
apart from what is registered already. Names that were there before are neither changed nor looked
behind.

## Main definitions

* `Synthesis.Adds`: the names that filling a registry with a message adds.

## Main results

* `Synthesis.withRegistry_exact`: when filling succeeds, and what the registry holds then.
-/

namespace MessageSchema

namespace Synthesis

variable {pool : Pool} {selected : List String} {registry filled : Registry} {name k : String}
  {shape : Schema}

/-- The names that filling a registry with a message adds: the message, unless it is registered, and
what is reached from it through names that are not registered. -/
def Adds (pool : Pool) (selected : List String) (registry : Registry) (name : String) :
    String → Prop :=
  Reached (Refers pool selected) (registry.contains · = true) (· = name)

theorem adds_iff_reached : Adds pool selected registry name k ↔
    Reached (Refers pool selected) (registry.contains · = true)
      (.register · ∈ [Task.register name]) k :=
  reached_congr fun b _ => by simp

/-- Filling fails with the fault of a name that it adds. -/
theorem error_of_fill {e : SchemaError} (h : (fill pool selected name registry).2 = .error e) :
    ∃ k, Adds pool selected registry name k ∧ shapeOf pool selected k = .error e := by
  obtain ⟨k, hk, hfail⟩ := (filled_fill pool selected name registry).failed e h
  exact ⟨k, adds_iff_reached.mpr hk, hfail⟩

theorem fill_ok_iff : (fill pool selected name registry).2 = .ok () ↔
    ∀ k, Adds pool selected registry name k → ∃ shape, shapeOf pool selected k = .ok shape := by
  constructor
  · intro hok k hk
    obtain ⟨shape, hshape, -⟩ :=
      (filled_fill pool selected name registry).shaped hok k (adds_iff_reached.mp hk)
    exact ⟨shape, hshape⟩
  · intro hall
    cases hresult : (fill pool selected name registry).2 with
    | ok => rfl
    | error e =>
      obtain ⟨k, hk, hfail⟩ := error_of_fill hresult
      obtain ⟨shape, hshape⟩ := hall k hk
      rw [hfail] at hshape
      cases hshape

/-- What is in a registry that has been filled. -/
structure FilledWith (pool : Pool) (selected : List String) (registry : Registry) (name : String)
    (filled : Registry) : Prop where
  added : ∀ k, Adds pool selected registry name k →
    ∃ shape, shapeOf pool selected k = .ok shape ∧ filled.get? k = some shape
  kept : ∀ k, ¬ Adds pool selected registry name k → filled.get? k = registry.get? k
  sorted : registry.Sorted → filled.Sorted

theorem filledWith_of_fill (h : fill pool selected name registry = (filled, .ok ())) :
    FilledWith pool selected registry name filled := by
  have hfilled := filled_fill pool selected name registry
  rw [h] at hfilled
  exact
    { added k hk := hfilled.shaped rfl k (adds_iff_reached.mp hk)
      kept k hk := hfilled.kept rfl k (fun hk' => hk (adds_iff_reached.mpr hk')) (by simp)
      sorted := hfilled.sorted }

theorem FilledWith.contains_iff (h : FilledWith pool selected registry name filled)
    (hk : registry.contains k = false) :
    filled.contains k = true ↔ Adds pool selected registry name k := by
  refine ⟨fun hfilled => ?_, fun hadds => ?_⟩
  · by_contra hadds
    rw [Dictionary.contains, h.kept k hadds] at hfilled
    exact absurd hfilled (by simpa [Dictionary.contains] using hk)
  · obtain ⟨shape, -, hget⟩ := h.added k hadds
    exact Dictionary.contains_iff.mpr ⟨shape, hget⟩

/-- The message itself is registered once the registry is filled. -/
theorem FilledWith.contains_self (h : FilledWith pool selected registry name filled) :
    filled.contains name = true := by
  by_cases hname : registry.contains name = true
  · have hout : ¬ Adds pool selected registry name name := fun hk => hk.not_blocked hname
    rw [Dictionary.contains, h.kept name hout]
    exact hname
  · exact (h.contains_iff (Bool.eq_false_iff.mpr hname)).mpr (.start rfl hname)

/-- A registry that has been filled from nothing is closed under references. -/
theorem FilledWith.closed (h : FilledWith pool selected [] name filled) {e : String × Schema}
    (he : e ∈ filled) {ref : String} (href : ref ∈ e.2.references) :
    ∃ other, ref = Schema.refStart ++ other ∧ filled.contains other = true := by
  obtain ⟨k, schema⟩ := e
  have hget := (h.sorted List.Pairwise.nil).get?_iff_mem.mpr he
  have hadds : Adds pool selected [] name k :=
    (h.contains_iff rfl).mp (Dictionary.contains_iff.mpr ⟨schema, hget⟩)
  obtain ⟨shape, hshape, hget'⟩ := h.added k hadds
  obtain rfl : schema = shape := Option.some.inj (hget.symm.trans hget')
  have hstart : ∃ other, ref = Schema.refStart ++ other := by
    unfold shapeOf at hshape
    split at hshape
    · cases hshape
    · obtain ⟨_, -, message, -, href, -⟩ := Shape.ref_of_ofMessage hshape href
      exact ⟨message.fullName, href⟩
  obtain ⟨other, rfl⟩ := hstart
  have hrefers : Refers pool selected k other :=
    ⟨schema, hshape, List.mem_filterMap.mpr ⟨_, href, Schema.refName?_refStart other⟩⟩
  exact ⟨other, rfl, (h.contains_iff rfl).mpr (hadds.step hrefers (by simp))⟩

theorem shapeOf_eq_ok : shapeOf pool selected name = .ok shape ↔
    ∃ message, pool.message? name = some message ∧
      Shape.ofMessage pool selected message = .ok shape := by
  unfold shapeOf
  cases pool.message? name <;> simp

theorem withRegistry_eq (pool : Pool) (selected : List String) (name : String)
    (registry : Registry) : withRegistry pool selected name registry =
      ((fill pool selected name registry).1,
        (fill pool selected name registry).2.map fun _ => .reference name) := rfl

theorem withRegistry_eq_ok {node : Schema}
    (h : withRegistry pool selected name registry = (filled, .ok node)) :
    node = .reference name ∧ fill pool selected name registry = (filled, .ok ()) := by
  rw [withRegistry_eq] at h
  cases hfill : fill pool selected name registry with
  | mk registry' result =>
    cases result with
    | error e => simp [hfill, Except.map] at h
    | ok =>
      rw [hfill] at h
      cases h
      exact ⟨rfl, rfl⟩

theorem root_eq (pool : Pool) (selected : List String) (name : String) :
    root pool selected name =
      match withRegistry pool selected name [] with
      | (filled, .ok _) => .ok (.rootReference name filled)
      | (_, .error e) => .error e := by
  rw [root, withRegistry_eq]
  cases fill pool selected name [] with
  | mk registry' result => cases result <;> rfl

/-- A root leaves no reference open. -/
theorem danglingReferences_root {node : Schema} (h : root pool selected name = .ok node) :
    node.danglingReferences = [] := by
  unfold root at h
  split at h
  · rename_i filled hfill
    cases h
    have hholds := filledWith_of_fill hfill
    exact Schema.danglingReferences_rootReference hholds.contains_self
      fun e he ref => hholds.closed he
  · cases h

/-- **Exactness.** Filling a registry with a message succeeds if and only if every name that it adds
is known and has a schema. It then gives a reference to the message; what was registered before is
unchanged, the names that are added are exactly those that are reached, and each of them holds its
own schema. A root is a registry that has been filled from nothing, and leaves no reference open. -/
theorem withRegistry_exact (pool : Pool) (selected : List String) (name : String)
    (registry : Registry) :
    ((∃ node, (withRegistry pool selected name registry).2 = .ok node) ↔
      ∀ k, Adds pool selected registry name k →
        ∃ message shape, pool.message? k = some message ∧
          Shape.ofMessage pool selected message = .ok shape) ∧
    (∀ filled node, withRegistry pool selected name registry = (filled, .ok node) →
      node = .reference name ∧
      (∀ k schema, registry.get? k = some schema → filled.get? k = some schema) ∧
      (∀ k, registry.contains k = false →
        (filled.contains k = true ↔ Adds pool selected registry name k)) ∧
      (∀ k, Adds pool selected registry name k →
        ∃ message shape, pool.message? k = some message ∧
          Shape.ofMessage pool selected message = .ok shape ∧ filled.get? k = some shape) ∧
      (registry.Sorted → filled.Sorted)) ∧
    (root pool selected name =
      match withRegistry pool selected name [] with
      | (filled, .ok _) => .ok (.rootReference name filled)
      | (_, .error e) => .error e) ∧
    ∀ node, root pool selected name = .ok node → node.danglingReferences = [] := by
  refine ⟨?_, fun filled node h => ?_, root_eq pool selected name,
    fun node => danglingReferences_root⟩
  · have hok : (∃ node, (withRegistry pool selected name registry).2 = .ok node) ↔
        (fill pool selected name registry).2 = .ok () := by
      rw [withRegistry_eq]
      cases (fill pool selected name registry).2 <;> simp [Except.map]
    rw [hok, fill_ok_iff]
    refine forall₂_congr fun k _ => ?_
    simp only [shapeOf_eq_ok]
    exact exists_comm
  · obtain ⟨rfl, hfill⟩ := withRegistry_eq_ok h
    have hholds := filledWith_of_fill hfill
    refine ⟨rfl, fun k schema hget => ?_, fun k => hholds.contains_iff, fun k hk => ?_,
      hholds.sorted⟩
    · have hout : ¬ Adds pool selected registry name k := fun hk =>
        hk.not_blocked (Dictionary.contains_iff.mpr ⟨schema, hget⟩)
      rw [hholds.kept k hout, hget]
    · obtain ⟨shape, hshape, hget⟩ := hholds.added k hk
      obtain ⟨message, hmessage, hshape⟩ := shapeOf_eq_ok.mp hshape
      exact ⟨message, shape, hmessage, hshape, hget⟩

end Synthesis

end MessageSchema
