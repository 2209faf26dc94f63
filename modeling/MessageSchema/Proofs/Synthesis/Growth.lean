import MessageSchema.Proofs.Synthesis.Exactness

/-!
# Registries that grow along references

A registry grows from some names when they and all that is reached from them through names that are
not registered are added, each with its own schema. Unlike the tasks of a run, growth does not say in
which order names are added, and so what is done first and what is done next make up one growth from
all names together.

## Main definitions

* `Synthesis.Grown`: growth from some names.

## Main results

* `Synthesis.Grown.append`: growth in two parts.
* `Synthesis.Grown.visit`: a message that is registered before what it refers to, and completed
  afterwards, makes a growth from its own name.
* `Synthesis.Grown.eq_fill`: a registry that has grown from nothing is the one that is filled.
-/

namespace MessageSchema

namespace Synthesis

variable {pool : Pool} {selected : List String} {names others : List String}
  {registry grown further filled : Registry} {name k : String} {shape : Schema}

/-- The registry has grown from some names. -/
structure Grown (pool : Pool) (selected : List String) (names : List String)
    (registry grown : Registry) : Prop where
  kept : ∀ k schema, registry.get? k = some schema → grown.get? k = some schema
  contains : ∀ k ∈ names, grown.contains k = true
  /-- What has been added is reached, and holds its own schema. -/
  reached : ∀ k, registry.contains k = false → grown.contains k = true →
    Reached (Refers pool selected) (registry.contains · = true) (· ∈ names) k
  shaped : ∀ k, registry.contains k = false → grown.contains k = true →
    ∃ shape, shapeOf pool selected k = .ok shape ∧ grown.get? k = some shape
  /-- What an added message refers to is registered. -/
  closed : ∀ k other, registry.contains k = false → grown.contains k = true →
    Refers pool selected k other → grown.contains other = true
  sorted : registry.Sorted → grown.Sorted

namespace Grown

theorem nil (registry : Registry) : Grown pool selected [] registry registry where
  kept _ _ h := h
  contains := by simp
  reached k hk hk' := by simp [hk] at hk'
  shaped k hk hk' := by simp [hk] at hk'
  closed k _ hk hk' := by simp [hk] at hk'
  sorted := id

/-- What is registered stays registered. -/
theorem contains_of (h : Grown pool selected names registry grown)
    (hk : registry.contains k = true) : grown.contains k = true := by
  obtain ⟨schema, hget⟩ := Dictionary.contains_iff.mp hk
  exact Dictionary.contains_iff.mpr ⟨schema, h.kept k schema hget⟩

/-- A name that is registered needs no growth. -/
theorem of_contains (h : registry.contains name = true) :
    Grown pool selected [name] registry registry :=
  { (nil registry : Grown pool selected [] registry registry) with
    contains := by simpa using h
    reached := fun k hk hk' => by simp [hk] at hk' }

theorem congr (h : Grown pool selected names registry grown) (hnames : ∀ k, k ∈ others ↔ k ∈ names) :
    Grown pool selected others registry grown where
  kept := h.kept
  contains k hk := h.contains k ((hnames k).mp hk)
  reached k hk hk' := (h.reached k hk hk').mono (fun _ => id) fun b hb => .inl ((hnames b).mpr hb)
  shaped := h.shaped
  closed := h.closed
  sorted := h.sorted

/-- **Growth in two parts.** -/
theorem append (h : Grown pool selected names registry grown)
    (h' : Grown pool selected others grown further) :
    Grown pool selected (names ++ others) registry further where
  kept k schema hget := h'.kept k schema (h.kept k schema hget)
  contains k hk := by
    rcases List.mem_append.mp hk with hk | hk
    · exact h'.contains_of (h.contains k hk)
    · exact h'.contains k hk
  reached k hk hk' := by
    by_cases hmid : grown.contains k = true
    · exact (h.reached k hk hmid).mono (fun _ => id) fun b hb => .inl (List.mem_append_left _ hb)
    · exact (h'.reached k (Bool.eq_false_iff.mpr hmid) hk').mono (fun _ => h.contains_of)
        fun b hb => .inl (List.mem_append_right _ hb)
  shaped k hk hk' := by
    by_cases hmid : grown.contains k = true
    · obtain ⟨shape, hshape, hget⟩ := h.shaped k hk hmid
      exact ⟨shape, hshape, h'.kept k shape hget⟩
    · exact h'.shaped k (Bool.eq_false_iff.mpr hmid) hk'
  closed k other hk hk' hrefers := by
    by_cases hmid : grown.contains k = true
    · exact h'.contains_of (h.closed k other hk hmid hrefers)
    · exact h'.closed k other (Bool.eq_false_iff.mpr hmid) hk' hrefers
  sorted hs := h'.sorted (h.sorted hs)

/-- **One message.** It is registered under a placeholder, the registry grows from what it refers to,
and the placeholder is replaced. -/
theorem visit (hname : registry.contains name = false)
    (hshape : shapeOf pool selected name = .ok shape) {placeholder : Schema}
    (h : Grown pool selected shape.referencedNames (registry.insert name placeholder) grown) :
    Grown pool selected [name] registry (grown.insert name shape) := by
  have hfree : ∀ k, k ≠ name → registry.contains k = false →
      (registry.insert name placeholder).contains k = false := by
    intro k hne hk
    rwa [Dictionary.contains_insert_of_ne hne]
  have hback : ∀ k, k ≠ name → (grown.insert name shape).contains k = true →
      grown.contains k = true := by
    intro k hne hk
    rwa [Dictionary.contains_insert_of_ne hne] at hk
  have hself : Reached (Refers pool selected) (registry.contains · = true) (· ∈ [name]) name :=
    .start (by simp) (by simp [hname])
  refine
    { kept := fun k schema hget => ?_
      contains := fun k hk => (Dictionary.contains_insert name k shape grown).mpr
        (.inl (by simpa using hk))
      reached := fun k hk hk' => ?_
      shaped := fun k hk hk' => ?_
      closed := fun k other hk hk' hrefers => ?_
      sorted := fun hs => (h.sorted (hs.insert name placeholder)).insert name shape }
  · have hne : k ≠ name := by
      rintro rfl
      rw [Dictionary.contains_eq_false_iff.mp hname] at hget
      cases hget
    rw [Dictionary.get?_insert_of_ne hne]
    exact h.kept k schema (by rwa [Dictionary.get?_insert_of_ne hne])
  · by_cases hne : k = name
    · exact hne ▸ hself
    · exact (h.reached k (hfree k hne hk) (hback k hne hk')).from_successors hself
        (fun b hb => Dictionary.contains_insert_of_contains hb name placeholder)
        fun b hb => (refers_iff hshape).mpr hb
  · by_cases hne : k = name
    · exact ⟨shape, hne ▸ hshape, by rw [hne, Dictionary.get?_insert_self]⟩
    · obtain ⟨found, hfound, hget⟩ := h.shaped k (hfree k hne hk) (hback k hne hk')
      exact ⟨found, hfound, by rwa [Dictionary.get?_insert_of_ne hne]⟩
  · refine Dictionary.contains_insert_of_contains ?_ name shape
    by_cases hne : k = name
    · exact h.contains other ((refers_iff hshape).mp (hne ▸ hrefers))
    · exact h.closed k other (hfree k hne hk) (hback k hne hk') hrefers

/-- What is reached from the names has been added. -/
theorem contains_of_reached (h : Grown pool selected names registry grown)
    (hk : Reached (Refers pool selected) (registry.contains · = true) (· ∈ names) k) :
    grown.contains k = true := by
  induction hk with
  | start hstart => exact h.contains _ hstart
  | step hreached hedge _ ih =>
    exact h.closed _ _ (Bool.eq_false_iff.mpr hreached.not_blocked) ih hedge

/-- A registry that has grown from one name is filled with it. -/
theorem filledWith (h : Grown pool selected [name] registry grown) :
    FilledWith pool selected registry name grown := by
  have hiff : ∀ k, Adds pool selected registry name k ↔
      Reached (Refers pool selected) (registry.contains · = true) (· ∈ [name]) k := fun k =>
    reached_congr fun b _ => by simp
  refine
    { added := fun k hk => ?_
      kept := fun k hk => ?_
      sorted := h.sorted }
  · exact h.shaped k (Bool.eq_false_iff.mpr hk.not_blocked) (h.contains_of_reached ((hiff k).mp hk))
  · cases hget : registry.get? k with
    | some schema => exact h.kept k schema hget
    | none =>
      have hfree := Dictionary.contains_eq_false_iff.mpr hget
      refine Dictionary.contains_eq_false_iff.mp (Bool.eq_false_iff.mpr fun hk' => hk ?_)
      exact (hiff k).mpr (h.reached k hfree hk')

/-- **Filling from nothing.** Only one registry has grown from nothing. -/
theorem eq_fill (h : Grown pool selected [name] [] grown)
    (hfill : fill pool selected name [] = (filled, .ok ())) : grown = filled := by
  have hgrown := h.filledWith
  have hfilled := filledWith_of_fill hfill
  refine Dictionary.Sorted.ext (hgrown.sorted List.Pairwise.nil)
    (hfilled.sorted List.Pairwise.nil) fun k => ?_
  by_cases hk : Adds pool selected [] name k
  · obtain ⟨shape, hshape, hget⟩ := hgrown.added k hk
    obtain ⟨shape', hshape', hget'⟩ := hfilled.added k hk
    obtain rfl : shape = shape' := Except.ok.inj (hshape.symm.trans hshape')
    rw [hget, hget']
  · rw [hgrown.kept k hk, hfilled.kept k hk]

end Grown

end Synthesis

end MessageSchema
