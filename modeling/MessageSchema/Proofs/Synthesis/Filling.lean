import MessageSchema.Proofs.Reached
import MessageSchema.Proofs.Shape
import MessageSchema.Synthesis

/-!
# What filling a registry does

A registry is filled by tasks: a message is registered under a placeholder, everything that it
refers to is dealt with, and then the message is completed. The invariant is carried by the tasks
that are left: each of them that completes a message holds the schema of that message, and the
message is registered already. So a registered name is one that is either complete, waits for its
completion among the tasks, or was there before.

## Main definitions

* `Synthesis.shapeOf`: the schema of the message that a name stands for.
* `Synthesis.Refers`: one message refers to another in its schema.
* `Synthesis.Filled`: what carrying out tasks does to a registry.

## Main results

* `Synthesis.filled_run`: a run with a large enough budget does exactly this.
* `Synthesis.filled_fill`: the budget that is used is large enough.
-/

namespace MessageSchema

namespace Synthesis

variable {pool : Pool} {selected : List String} {names : List String} {tasks front : List Task}
  {registry registry' : Registry} {name k : String} {shape : Schema} {budget : ℕ}

/-- The schema of the message that a name stands for. -/
def shapeOf (pool : Pool) (selected : List String) (name : String) : Except SchemaError Schema :=
  match pool.message? name with
  | none => .error (.unknownType name)
  | some message => Shape.ofMessage pool selected message

/-- The schema of one message refers to the other. -/
def Refers (pool : Pool) (selected : List String) (name other : String) : Prop :=
  ∃ shape, shapeOf pool selected name = .ok shape ∧ other ∈ shape.referencedNames

theorem refers_iff (h : shapeOf pool selected name = .ok shape) {other : String} :
    Refers pool selected name other ↔ other ∈ shape.referencedNames := by
  refine ⟨?_, fun hmem => ⟨shape, h, hmem⟩⟩
  rintro ⟨found, hfound, hmem⟩
  obtain rfl : shape = found := Except.ok.inj (h.symm.trans hfound)
  exact hmem

/-! ### Completing what is at hand -/

/-- What completing some tasks does: their messages hold their schemas, all other entries stay, and
no name is registered. -/
structure Settled (front : List Task) (registry registry' : Registry) : Prop where
  /-- What was to be registered is registered already. -/
  registered : ∀ k, .register k ∈ front → registry.contains k
  contains_iff : ∀ k, registry'.contains k = true ↔ registry.contains k = true
  completed : ∀ k shape, .complete k shape ∈ front →
    ∃ last, .complete k last ∈ front ∧ registry'.get? k = some last
  kept : ∀ k, (∀ shape, .complete k shape ∉ front) → registry'.get? k = registry.get? k
  sorted : registry.Sorted → registry'.Sorted

theorem Settled.nil (registry : Registry) : Settled [] registry registry where
  registered := by simp
  contains_iff _ := Iff.rfl
  completed := by simp
  kept _ _ := rfl
  sorted := id

theorem Settled.cons_register (hname : registry.contains name)
    (h : Settled front registry registry') : Settled (.register name :: front) registry registry' where
  registered k hk := by
    rcases List.mem_cons.mp hk with hk | hk
    · cases hk
      exact hname
    · exact h.registered k hk
  contains_iff := h.contains_iff
  completed k shape hk := by
    obtain ⟨last, hlast, hget⟩ := h.completed k shape (by simpa using hk)
    exact ⟨last, List.mem_cons_of_mem _ hlast, hget⟩
  kept k hk := h.kept k fun shape hmem => hk shape (List.mem_cons_of_mem _ hmem)
  sorted := h.sorted

theorem Settled.cons_complete (hname : registry.contains name)
    (h : Settled front (registry.insert name shape) registry') :
    Settled (.complete name shape :: front) registry registry' where
  registered k hk := by
    exact (Dictionary.contains_insert_iff hname k shape).mp (h.registered k (by simpa using hk))
  contains_iff k := (h.contains_iff k).trans (Dictionary.contains_insert_iff hname k shape)
  completed k last hk := by
    by_cases hlater : ∃ later, Task.complete k later ∈ front
    · obtain ⟨later, hlater⟩ := hlater
      obtain ⟨last, hlast, hget⟩ := h.completed k later hlater
      exact ⟨last, List.mem_cons_of_mem _ hlast, hget⟩
    · have hkept := h.kept k fun later hmem => hlater ⟨later, hmem⟩
      rcases List.mem_cons.mp hk with hk | hk
      · cases hk
        exact ⟨shape, by simp, by rw [hkept, Dictionary.get?_insert_self]⟩
      · exact absurd ⟨last, hk⟩ hlater
  kept k hk := by
    rw [h.kept k fun later hmem => hk later (List.mem_cons_of_mem _ hmem)]
    refine Dictionary.get?_insert_of_ne ?_ _ _
    rintro rfl
    exact hk shape (by simp)
  sorted hs := h.sorted (hs.insert name shape)

theorem settle_complete (rest : List Task) (registry : Registry) :
    settle (.complete name shape :: rest) registry = settle rest (registry.insert name shape) := rfl

theorem settle_register (h : registry.contains name = true) (rest : List Task) :
    settle (.register name :: rest) registry = settle rest registry :=
  if_pos h

/-- Tasks are completed up to the first message that has to be registered. -/
theorem settled_settle (hcomplete : ∀ k shape, .complete k shape ∈ tasks → registry.contains k) :
    ∃ front, Settled front registry (settle tasks registry).1 ∧
      match (settle tasks registry).2 with
      | none => tasks = front
      | some (name, rest) =>
        tasks = front ++ .register name :: rest ∧ registry.contains name = false := by
  induction tasks generalizing registry with
  | nil => exact ⟨[], .nil registry, rfl⟩
  | cons task rest ih =>
    cases task with
    | complete name shape =>
      have hname := hcomplete name shape (by simp)
      have hrest : ∀ k later, .complete k later ∈ rest → (registry.insert name shape).contains k :=
        fun k later hmem => Dictionary.contains_insert_of_contains
          (hcomplete k later (List.mem_cons_of_mem _ hmem)) name shape
      obtain ⟨front, hfront, hnext⟩ := ih hrest
      refine ⟨.complete name shape :: front, hfront.cons_complete hname, ?_⟩
      rw [settle_complete]
      cases hsettle : (settle rest (registry.insert name shape)).2 with
      | none => simpa only [hsettle, List.cons.injEq, true_and] using hnext
      | some next =>
        simp only [hsettle] at hnext
        obtain ⟨hrest, hfree⟩ := hnext
        rw [Bool.eq_false_iff, ne_eq, Dictionary.contains_insert] at hfree
        exact ⟨by rw [hrest]; rfl, Bool.eq_false_iff.mpr fun h => hfree (.inr h)⟩
    | register name =>
      by_cases hname : registry.contains name = true
      · obtain ⟨front, hfront, hnext⟩ := ih fun k later hmem =>
          hcomplete k later (List.mem_cons_of_mem _ hmem)
        rw [settle_register hname]
        refine ⟨.register name :: front, hfront.cons_register hname, ?_⟩
        cases hsettle : (settle rest registry).2 with
        | none => simpa only [hsettle, List.cons.injEq, true_and] using hnext
        | some next =>
          simp only [hsettle] at hnext
          exact ⟨by rw [hnext.1]; rfl, hnext.2⟩
      · have hsettle : settle (.register name :: rest) registry = (registry, some (name, rest)) :=
          if_neg hname
        rw [hsettle]
        exact ⟨[], .nil registry, rfl, Bool.eq_false_iff.mpr hname⟩

/-! ### Carrying out all tasks -/

/-- What carrying out tasks leads to. The names that are reached from those to be registered, without
entering names that are registered already, decide whether the tasks succeed, and are the names
that are added. -/
structure Filled (pool : Pool) (selected : List String) (tasks : List Task) (registry : Registry)
    (result : Registry × Except SchemaError Unit) : Prop where
  /-- On success every name that is reached holds its schema. -/
  shaped : result.2 = .ok () → ∀ k,
    Reached (Refers pool selected) (registry.contains · = true) (.register · ∈ tasks) k →
      ∃ shape, shapeOf pool selected k = .ok shape ∧ result.1.get? k = some shape
  /-- On success every message that was to be completed holds its schema. -/
  completed : result.2 = .ok () → ∀ k shape, .complete k shape ∈ tasks →
    result.1.get? k = some shape
  /-- On success nothing else changes. -/
  kept : result.2 = .ok () → ∀ k,
    ¬ Reached (Refers pool selected) (registry.contains · = true) (.register · ∈ tasks) k →
      (∀ shape, .complete k shape ∉ tasks) → result.1.get? k = registry.get? k
  /-- A failure is that of a name that is reached. -/
  failed : ∀ e, result.2 = .error e → ∃ k,
    Reached (Refers pool selected) (registry.contains · = true) (.register · ∈ tasks) k ∧
      shapeOf pool selected k = .error e
  sorted : registry.Sorted → result.1.Sorted

/-- What the tasks that are left rely on: a message to be completed is registered already, and its
schema is at hand. -/
def Ready (pool : Pool) (selected : List String) (registry : Registry) (tasks : List Task) : Prop :=
  ∀ k shape, .complete k shape ∈ tasks →
    registry.contains k ∧ shapeOf pool selected k = .ok shape

/-- Nothing is left to register. -/
theorem Settled.filled (h : Settled tasks registry registry')
    (hready : Ready pool selected registry tasks) :
    Filled pool selected tasks registry (registry', .ok ()) where
  shaped _ k hk := absurd hk (not_reached_of_start_blocked h.registered)
  completed _ k shape hk := by
    obtain ⟨last, hlast, hget⟩ := h.completed k shape hk
    obtain rfl : shape = last :=
      Except.ok.inj ((hready k shape hk).2.symm.trans (hready k last hlast).2)
    exact hget
  kept _ k _ hk := h.kept k hk
  failed _ he := nomatch he
  sorted := h.sorted

/-- The tasks once a message is registered: what it refers to, and then its completion. -/
def expansion (name : String) (shape : Schema) (rest : List Task) : List Task :=
  shape.referencedNames.map .register ++ .complete name shape :: rest

theorem register_mem_expansion {rest : List Task} :
    .register k ∈ expansion name shape rest ↔ k ∈ shape.referencedNames ∨ .register k ∈ rest := by
  simp [expansion]

theorem complete_mem_expansion {rest : List Task} {other : Schema} :
    .complete k other ∈ expansion name shape rest ↔
      k = name ∧ other = shape ∨ .complete k other ∈ rest := by
  simp [expansion]

section Step

variable {rest : List Task} {registry₂ : Registry} {result : Registry × Except SchemaError Unit}

/-- The registry after some tasks were completed and a message was registered. -/
structure Registered (name : String) (front : List Task) (registry registry₂ : Registry) :
    Prop where
  free : registry.contains name = false
  settled : ∃ registry₁, Settled front registry registry₁ ∧
    registry₂ = registry₁.insert name .blank

theorem Registered.contains_iff (h : Registered name front registry registry₂) (k : String) :
    registry₂.contains k = true ↔ k = name ∨ registry.contains k = true := by
  obtain ⟨registry₁, hsettled, rfl⟩ := h.settled
  rw [Dictionary.contains_insert, hsettled.contains_iff]

theorem Registered.ne (h : Registered name front registry registry₂)
    (hk : registry.contains k = true) : k ≠ name := by
  rintro rfl
  rw [h.free] at hk
  cases hk

/-- The names that are reached before and after a message is registered. -/
theorem Registered.reached_iff (h : Registered name front registry registry₂)
    (hshape : shapeOf pool selected name = .ok shape) :
    Reached (Refers pool selected) (registry.contains · = true)
        (.register · ∈ front ++ .register name :: rest) k ↔
      k = name ∨ Reached (Refers pool selected) (registry₂.contains · = true)
        (.register · ∈ expansion name shape rest) k := by
  obtain ⟨registry₁, hsettled, -⟩ := h.settled
  have hcongr : ∀ b, ¬ registry.contains b = true →
      (.register b ∈ front ++ .register name :: rest ↔ b = name ∨ Task.register b ∈ rest) := by
    intro b hb
    have hfront : Task.register b ∉ front := fun hmem => hb (hsettled.registered b hmem)
    simp [hfront]
  have hexpand : ∀ b, ¬ registry₂.contains b = true →
      (.register b ∈ expansion name shape rest ↔
        Refers pool selected name b ∨ Task.register b ∈ rest) := by
    intro b _
    rw [register_mem_expansion, refers_iff hshape]
  rw [reached_congr hcongr, reached_congr hexpand]
  refine reached_visit (.inl rfl) (by simp [h.free]) (fun b hb => (h.contains_iff b).mpr (.inr hb))
    (fun b hb hb' => ?_) (fun b hb => hb) (fun b hb => .inr hb)
  exact ((h.contains_iff b).mp hb').resolve_right hb.not_blocked

theorem Registered.ready (h : Registered name front registry registry₂)
    (hready : Ready pool selected registry (front ++ .register name :: rest))
    (hshape : shapeOf pool selected name = .ok shape) :
    Ready pool selected registry₂ (expansion name shape rest) := by
  intro k other hmem
  rcases complete_mem_expansion.mp hmem with ⟨rfl, rfl⟩ | hmem
  · exact ⟨(h.contains_iff k).mpr (.inl rfl), hshape⟩
  · obtain ⟨hk, hother⟩ := hready k other (by simp [hmem])
    exact ⟨(h.contains_iff k).mpr (.inr hk), hother⟩

/-- **One step.** Registering a message and carrying out what follows from it is carrying out the
tasks. -/
theorem Registered.filled (h : Registered name front registry registry₂)
    (hready : Ready pool selected registry (front ++ .register name :: rest))
    (hshape : shapeOf pool selected name = .ok shape)
    (hfilled : Filled pool selected (expansion name shape rest) registry₂ result) :
    Filled pool selected (front ++ .register name :: rest) registry result where
  shaped hok k hk := by
    rcases (h.reached_iff hshape).mp hk with rfl | hk
    · exact ⟨shape, hshape, hfilled.completed hok k shape (complete_mem_expansion.mpr (by simp))⟩
    · exact hfilled.shaped hok k hk
  completed hok k other hmem := by
    by_cases hlater : ∃ later, Task.complete k later ∈ rest
    · obtain ⟨later, hlater⟩ := hlater
      obtain rfl : later = other := Except.ok.inj
        ((hready k later (by simp [hlater])).2.symm.trans (hready k other hmem).2)
      exact hfilled.completed hok k later (complete_mem_expansion.mpr (.inr hlater))
    · have hne := h.ne (hready k other hmem).1
      have hunreached : ¬ Reached (Refers pool selected) (registry₂.contains · = true)
          (.register · ∈ expansion name shape rest) k := fun hk =>
        hk.not_blocked ((h.contains_iff k).mpr (.inr (hready k other hmem).1))
      obtain ⟨registry₁, hsettled, rfl⟩ := h.settled
      have hrest : Task.complete k other ∉ rest := fun hmem => hlater ⟨other, hmem⟩
      have hfront : Task.complete k other ∈ front := by simpa [hrest] using hmem
      obtain ⟨last, hlast, hget⟩ := hsettled.completed k other hfront
      obtain rfl : last = other := Except.ok.inj
        ((hready k last (by simp [hlast])).2.symm.trans (hready k other hmem).2)
      rw [hfilled.kept hok k hunreached fun later hmem => ?_, Dictionary.get?_insert_of_ne hne, hget]
      rcases complete_mem_expansion.mp hmem with ⟨rfl, -⟩ | hmem
      · exact hne rfl
      · exact hlater ⟨later, hmem⟩
  kept hok k hk hnone := by
    have hunreached := fun hk' => hk ((h.reached_iff hshape).mpr (.inr hk'))
    have hne : k ≠ name := fun hk' => hk ((h.reached_iff hshape).mpr (.inl hk'))
    obtain ⟨registry₁, hsettled, rfl⟩ := h.settled
    rw [hfilled.kept hok k hunreached fun later hmem => ?_, Dictionary.get?_insert_of_ne hne,
      hsettled.kept k fun later hmem => hnone later (by simp [hmem])]
    rcases complete_mem_expansion.mp hmem with ⟨rfl, -⟩ | hmem
    · exact hne rfl
    · exact hnone later (by simp [hmem])
  failed e he := by
    obtain ⟨k, hk, hfail⟩ := hfilled.failed e he
    exact ⟨k, (h.reached_iff hshape).mpr (.inr hk), hfail⟩
  sorted hs := by
    obtain ⟨registry₁, hsettled, rfl⟩ := h.settled
    exact hfilled.sorted ((hsettled.sorted hs).insert name .blank)

/-- A step that fails is the failure of the name that is to be registered. -/
theorem Registered.failed (h : Registered name front registry registry₂) {registry' : Registry}
    {e : SchemaError} (hfail : shapeOf pool selected name = .error e)
    (hsorted : registry.Sorted → registry'.Sorted) :
    Filled pool selected (front ++ .register name :: rest) registry (registry', .error e) where
  shaped hok := nomatch hok
  completed hok := nomatch hok
  kept hok := nomatch hok
  failed e' he := by
    cases he
    exact ⟨name, .start (by simp) (by simp [h.free]), hfail⟩
  sorted := hsorted

end Step

theorem run_succ (budget : ℕ) (tasks : List Task) (registry : Registry) :
    run pool selected (budget + 1) tasks registry =
      match (settle tasks registry).2 with
      | none => ((settle tasks registry).1, .ok ())
      | some (name, rest) =>
        match pool.message? name, shapeOf pool selected name with
        | none, _ => ((settle tasks registry).1, .error (.unknownType name))
        | some _, .error e => ((settle tasks registry).1.insert name .blank, .error e)
        | some _, .ok shape => run pool selected budget (expansion name shape rest)
            ((settle tasks registry).1.insert name .blank) := by
  rw [run]
  cases settle tasks registry with
  | mk registry₁ next =>
    cases next with
    | none => rfl
    | some next =>
      obtain ⟨name, rest⟩ := next
      simp only [shapeOf]
      cases pool.message? name with
      | none => rfl
      | some message =>
        cases hshape : Shape.ofMessage pool selected message with
        | error e => simp only [hshape]
        | ok shape =>
          simp only [hshape]
          rfl

/-- What a message refers to is a message that lookup can give. -/
theorem mem_messages_of_refers (h : Refers pool selected name k) :
    k ∈ pool.messages.map (·.fullName) := by
  obtain ⟨shape, hshape, hk⟩ := h
  obtain ⟨ref, href, hname⟩ := List.mem_filterMap.mp hk
  unfold shapeOf at hshape
  split at hshape
  · cases hshape
  · obtain ⟨field, -, message, hholds, rfl, -⟩ := Shape.ref_of_ofMessage hshape href
    obtain rfl : message.fullName = k := by simpa using hname
    obtain ⟨_, hfound⟩ := hholds.exists_message?
    exact List.mem_map_of_mem (pool.mem_of_message? hfound)

/-- **A run.** With a budget beyond the count of names that are not registered, tasks are carried out
to their end. -/
theorem filled_run (hready : Ready pool selected registry tasks)
    (hnames : ∀ k, .register k ∈ tasks → k ∈ names)
    (hclosed : ∀ name k, Refers pool selected name k → k ∈ names)
    (hbudget : (names.filter (!registry.contains ·)).length < budget) :
    Filled pool selected tasks registry (run pool selected budget tasks registry) := by
  induction budget generalizing tasks registry with
  | zero => omega
  | succ budget ih =>
    obtain ⟨front, hsettled, hnext⟩ := settled_settle fun k shape hmem => (hready k shape hmem).1
    rw [run_succ]
    cases hsettle : (settle tasks registry).2 with
    | none =>
      rw [hsettle] at hnext
      subst hnext
      exact hsettled.filled hready
    | some next =>
      obtain ⟨name, rest⟩ := next
      rw [hsettle] at hnext
      obtain ⟨rfl, hfree⟩ := hnext
      have hregistered : Registered name front registry
          ((settle (front ++ .register name :: rest) registry).1.insert name .blank) :=
        ⟨hfree, _, hsettled, rfl⟩
      have hname : name ∈ names := hnames name (by simp)
      dsimp only
      cases hmessage : pool.message? name with
      | none =>
        have hfail : shapeOf pool selected name = .error (.unknownType name) := by
          rw [shapeOf, hmessage]
        exact hregistered.failed hfail hsettled.sorted
      | some message =>
        cases hshape : shapeOf pool selected name with
        | error e =>
          exact hregistered.failed hshape fun hs => (hsettled.sorted hs).insert name .blank
        | ok shape =>
          refine hregistered.filled hready hshape (ih (hregistered.ready hready hshape) ?_ ?_)
          · intro k hk
            rcases register_mem_expansion.mp hk with hk | hk
            · exact hclosed name k ((refers_iff hshape).mpr hk)
            · exact hnames k (by simp [hk])
          · have := length_filter_visit_lt hname hfree hregistered.contains_iff
            omega

theorem mem_reachableNames :
    k ∈ reachableNames pool name ↔ k = name ∨ k ∈ pool.messages.map (·.fullName) := by
  simp [reachableNames]

/-- The registry of a message is filled to the end. -/
theorem filled_fill (pool : Pool) (selected : List String) (name : String) (registry : Registry) :
    Filled pool selected [.register name] registry (fill pool selected name registry) := by
  have hname : ∀ k, .register k ∈ [Task.register name] → k ∈ reachableNames pool name :=
    fun k hk => mem_reachableNames.mpr (.inl (by simpa using hk))
  have hclosed : ∀ other k, Refers pool selected other k → k ∈ reachableNames pool name :=
    fun other k h => mem_reachableNames.mpr (.inr (mem_messages_of_refers h))
  exact filled_run (by simp [Ready]) hname hclosed (Nat.lt_succ_self _)

end Synthesis

end MessageSchema
