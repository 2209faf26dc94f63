import Mathlib.Data.Finset.Card
import Mathlib.Data.Finset.SDiff
import Mathlib.Data.Finset.Dedup
import Mathlib.Data.List.Nodup

/-!
# Depth-first descents

Two traversals go through the types of a set: selection follows dependencies and nested messages,
and filling a registry follows references. Both keep a record of names that is shared by everything
that happens in one call, and both come back to names that they have met. What they have in common
is said here once: a descent through several items, of which each is passed over, refused, or
entered under a name that is recorded before anything else happens.

A descent is given as a relation and not as a function with a budget, so that it is a theorem that
there is one: a recursion that does not end has no derivation. What ends it is the number of names
that are left. It falls whenever an item is entered, before what the item leads to and also before
the items behind it, and neither of the two lists gets shorter in a way that could be used instead.

## Main definitions

* `Move`: what a traversal does with an item.
* `Descent`: the names that a traversal expands, and how it ends.
* `Records`, `Stays`: what is recorded, and which names can be met.
* `Ends`: there is one descent, and it expands no name twice.

## Main results

* `Descent.recorded_iff`: the names that are expanded are new, and they are those that are recorded.
* `exists_descent`: every descent among finitely many names ends.
* `exists_ends`: it ends in one way only, after a bounded number of expansions.
-/

namespace MessageSchema

universe u v w

/-- What a descent does with an item in a state. -/
inductive Move (ι : Type u) (σ : Type v) (ε : Type w) where
  /-- The item is passed over. -/
  | skip
  /-- The descent fails before anything is recorded. -/
  | refuse (error : ε)
  /-- A name is recorded, and the descent fails. -/
  | fail (name : String) (state : σ) (error : ε)
  /-- A name is recorded, the descent goes through further items, and what is left open is closed
  when it comes back. -/
  | enter (name : String) (state : σ) (inner : List ι) (close : σ → σ)

variable {ι : Type u} {σ : Type v} {ε : Type w}

/-- A descent through several items, one after the other: the names that it expands, in order, and
how it ends. Whatever an item leads to comes before the items behind it, and the first failure ends
everything. -/
inductive Descent (move : ι → σ → Move ι σ ε) :
    List ι → σ → List String → σ × Except ε Unit → Prop
  | done (state : σ) : Descent move [] state [] (state, .ok ())
  | skip {item : ι} {rest : List ι} {state : σ} {expanded : List String}
      {result : σ × Except ε Unit} (hmove : move item state = .skip)
      (hrest : Descent move rest state expanded result) :
    Descent move (item :: rest) state expanded result
  | refuse {item : ι} {rest : List ι} {state : σ} {error : ε}
      (hmove : move item state = .refuse error) :
    Descent move (item :: rest) state [] (state, .error error)
  | fail {item : ι} {rest : List ι} {state next : σ} {name : String} {error : ε}
      (hmove : move item state = .fail name next error) :
    Descent move (item :: rest) state [name] (next, .error error)
  | enterFail {item : ι} {rest inner : List ι} {state next after : σ} {close : σ → σ}
      {name : String} {expanded : List String} {error : ε}
      (hmove : move item state = .enter name next inner close)
      (hinner : Descent move inner next expanded (after, .error error)) :
    Descent move (item :: rest) state (name :: expanded) (after, .error error)
  | enter {item : ι} {rest inner : List ι} {state next between : σ} {close : σ → σ}
      {name : String} {first second : List String} {result : σ × Except ε Unit}
      (hmove : move item state = .enter name next inner close)
      (hinner : Descent move inner next first (between, .ok ()))
      (hrest : Descent move rest (close between) second result) :
    Descent move (item :: rest) state (name :: (first ++ second)) result

/-- What follows a descent that succeeds; a failure stays as it is. -/
def onSuccess (result : σ × Except ε Unit) (next : σ → σ × Except ε Unit) : σ × Except ε Unit :=
  match result with
  | (after, .ok ()) => next after
  | (after, .error error) => (after, .error error)

@[simp] theorem onSuccess_ok (after : σ) (next : σ → σ × Except ε Unit) :
    onSuccess (after, .ok ()) next = next after := rfl

/-- Where nothing follows, a result stays as it is. -/
theorem onSuccess_done (result : σ × Except ε Unit) : onSuccess result (·, .ok ()) = result := by
  obtain ⟨after, outcome⟩ := result
  cases outcome <;> rfl

/-- A name is recorded when an item is entered, and was not recorded before; what has been recorded
stays so. -/
structure Records (move : ι → σ → Move ι σ ε) (recorded : σ → List String) : Prop where
  fail : ∀ {item state name next error}, move item state = .fail name next error →
    name ∉ recorded state ∧ ∀ k, k ∈ recorded next ↔ k = name ∨ k ∈ recorded state
  enter : ∀ {item state name next inner close}, move item state = .enter name next inner close →
    name ∉ recorded state ∧ (∀ k, k ∈ recorded next ↔ k = name ∨ k ∈ recorded state) ∧
      ∀ between, name ∈ recorded between → ∀ k, k ∈ recorded (close between) ↔ k ∈ recorded between

/-- The items that some items lead to are of the same sort, and their names are among given ones. -/
structure Stays (move : ι → σ → Move ι σ ε) (within : ι → Prop) (names : Finset String) : Prop where
  fail : ∀ {item state name next error}, move item state = .fail name next error → within item →
    name ∈ names
  enter : ∀ {item state name next inner close}, move item state = .enter name next inner close →
    within item → name ∈ names ∧ ∀ other ∈ inner, within other

variable {move : ι → σ → Move ι σ ε} {recorded : σ → List String} {within : ι → Prop}
  {names : Finset String} {items : List ι} {state : σ} {expanded : List String}
  {result outcome : σ × Except ε Unit}

namespace Descent

/-- Where a descent leads is settled. -/
theorem unique (h : Descent move items state expanded result) {others : List String}
    (h' : Descent move items state others outcome) : others = expanded ∧ outcome = result := by
  induction h generalizing others outcome with
  | done => cases h'; exact ⟨rfl, rfl⟩
  | skip hmove _ ih =>
    cases h' with
    | skip _ hrest => exact ih hrest
    | refuse hmove' | fail hmove' | enterFail hmove' | enter hmove' => cases hmove.symm.trans hmove'
  | refuse hmove =>
    cases h' with
    | refuse hmove' => cases hmove.symm.trans hmove'; exact ⟨rfl, rfl⟩
    | skip hmove' | fail hmove' | enterFail hmove' | enter hmove' => cases hmove.symm.trans hmove'
  | fail hmove =>
    cases h' with
    | fail hmove' => cases hmove.symm.trans hmove'; exact ⟨rfl, rfl⟩
    | skip hmove' | refuse hmove' | enterFail hmove' | enter hmove' => cases hmove.symm.trans hmove'
  | enterFail hmove hinner ih =>
    cases h' with
    | enterFail hmove' hinner' =>
      cases hmove.symm.trans hmove'
      obtain ⟨rfl, hresult⟩ := ih hinner'
      exact ⟨rfl, hresult⟩
    | enter hmove' hinner' =>
      cases hmove.symm.trans hmove'
      cases (ih hinner').2
    | skip hmove' | refuse hmove' | fail hmove' => cases hmove.symm.trans hmove'
  | enter hmove hinner hrest ihinner ihrest =>
    cases h' with
    | enterFail hmove' hinner' =>
      cases hmove.symm.trans hmove'
      cases (ihinner hinner').2
    | enter hmove' hinner' hrest' =>
      cases hmove.symm.trans hmove'
      obtain ⟨rfl, hbetween⟩ := ihinner hinner'
      cases hbetween
      obtain ⟨rfl, rfl⟩ := ihrest hrest'
      exact ⟨rfl, rfl⟩
    | skip hmove' | refuse hmove' | fail hmove' => cases hmove.symm.trans hmove'

/-- The names that are recorded in a descent are those that it expands, each of them new. -/
theorem recorded_iff (hrecords : Records move recorded)
    (h : Descent move items state expanded result) :
    expanded.Nodup ∧ (∀ k ∈ expanded, k ∉ recorded state) ∧
      ∀ k, k ∈ recorded result.1 ↔ k ∈ expanded ∨ k ∈ recorded state := by
  induction h with
  | done => simp
  | skip _ _ ih => exact ih
  | refuse => simp
  | fail hmove =>
    obtain ⟨hnew, hnext⟩ := hrecords.fail hmove
    simpa using ⟨hnew, hnext⟩
  | enterFail hmove _ ih =>
    obtain ⟨hnew, hnext, -⟩ := hrecords.enter hmove
    obtain ⟨hnodup, hfresh, hafter⟩ := ih
    simp only [hnext, not_or] at hfresh hafter
    refine ⟨List.nodup_cons.mpr ⟨fun hmem => (hfresh _ hmem).1 rfl, hnodup⟩, ?_, fun k => ?_⟩
    · exact List.forall_mem_cons.mpr ⟨hnew, fun k hk => (hfresh k hk).2⟩
    · rw [hafter, List.mem_cons, or_left_comm, or_assoc]
  | @enter _ _ _ _ _ between _ name first second _ hmove _ _ ihinner ihrest =>
    obtain ⟨hnew, hnext, hclose⟩ := hrecords.enter hmove
    obtain ⟨hnodup, hfresh, hbetween⟩ := ihinner
    obtain ⟨hnodup', hfresh', hafter⟩ := ihrest
    have hname : name ∈ recorded between := (hbetween name).mpr (.inr ((hnext name).mpr (.inl rfl)))
    simp only [hclose between hname, hbetween, hnext, not_or] at hfresh hfresh' hafter
    refine ⟨?_, ?_, fun k => ?_⟩
    · refine List.nodup_cons.mpr ⟨fun hmem => ?_, List.nodup_append.mpr ⟨hnodup, hnodup', ?_⟩⟩
      · rcases List.mem_append.mp hmem with hmem | hmem
        · exact (hfresh _ hmem).1 rfl
        · exact (hfresh' _ hmem).2.1 rfl
      · rintro k hk _ hk' rfl
        exact (hfresh' k hk').1 hk
    · refine List.forall_mem_cons.mpr ⟨hnew, fun k hk => ?_⟩
      rcases List.mem_append.mp hk with hk | hk
      · exact (hfresh k hk).2
      · exact (hfresh' k hk).2.2
    · rw [hafter, List.mem_cons, List.mem_append]
      tauto

/-- Items of one sort lead to given names only. -/
theorem mem_names (hstays : Stays move within names) (h : Descent move items state expanded result)
    (hitems : ∀ item ∈ items, within item) : ∀ k ∈ expanded, k ∈ names := by
  induction h with
  | done => simp
  | skip _ _ ih => exact ih fun item hitem => hitems item (List.mem_cons_of_mem _ hitem)
  | refuse => simp
  | fail hmove =>
    exact List.forall_mem_singleton.mpr (hstays.fail hmove (hitems _ List.mem_cons_self))
  | enterFail hmove _ ih =>
    obtain ⟨hname, hinner⟩ := hstays.enter hmove (hitems _ List.mem_cons_self)
    exact List.forall_mem_cons.mpr ⟨hname, ih hinner⟩
  | enter hmove _ _ ihinner ihrest =>
    obtain ⟨hname, hinner⟩ := hstays.enter hmove (hitems _ List.mem_cons_self)
    have hrest := ihrest fun item hitem => hitems item (List.mem_cons_of_mem _ hitem)
    exact List.forall_mem_cons.mpr ⟨hname, List.forall_mem_append.mpr ⟨ihinner hinner, hrest⟩⟩

/-- A descent expands each name at most once, and none that has been recorded before. -/
theorem length_le (hrecords : Records move recorded) (hstays : Stays move within names)
    (h : Descent move items state expanded result) (hitems : ∀ item ∈ items, within item) :
    expanded.length ≤ (names \ (recorded state).toFinset).card := by
  obtain ⟨hnodup, hfresh, -⟩ := h.recorded_iff hrecords
  rw [← List.toFinset_card_of_nodup hnodup]
  refine Finset.card_le_card fun k hk => ?_
  have hk := List.mem_toFinset.mp hk
  exact Finset.mem_sdiff.mpr ⟨h.mem_names hstays hitems k hk, fun hmem =>
    hfresh k hk (List.mem_toFinset.mp hmem)⟩

end Descent

/-- Fewer names are left once one of them is recorded. -/
theorem card_sdiff_lt {known more : List String} {name : String} (hname : name ∈ names)
    (hnew : name ∉ known) (hmore : ∀ k, k = name ∨ k ∈ known → k ∈ more) :
    (names \ more.toFinset).card < (names \ known.toFinset).card := by
  refine Finset.card_lt_card (Finset.ssubset_iff_of_subset (fun k hk => ?_) |>.mpr ⟨name, ?_, ?_⟩)
  · simp only [Finset.mem_sdiff, List.mem_toFinset] at hk ⊢
    exact ⟨hk.1, fun hmem => hk.2 (hmore k (.inr hmem))⟩
  · simpa using ⟨hname, hnew⟩
  · simpa using fun _ => hmore name (.inl rfl)

/-- **A descent ends.** Each name that is entered is recorded, and so there are fewer names left for
all that comes after it, both for what it leads to and for the items behind it. -/
theorem exists_descent (hrecords : Records move recorded) (hstays : Stays move within names)
    (hitems : ∀ item ∈ items, within item) (state : σ) :
    ∃ expanded result, Descent move items state expanded result := by
  induction hcard : (names \ (recorded state).toFinset).card using Nat.strong_induction_on
    generalizing items state with
  | _ left ih =>
    subst hcard
    induction items with
    | nil => exact ⟨[], _, .done state⟩
    | cons item rest ihrest =>
      have hitem := hitems item List.mem_cons_self
      have hrest := fun other hother => hitems other (List.mem_cons_of_mem _ hother)
      cases hmove : move item state with
      | skip =>
        obtain ⟨expanded, result, hdescent⟩ := ihrest hrest
        exact ⟨expanded, result, .skip hmove hdescent⟩
      | refuse error => exact ⟨[], _, .refuse hmove⟩
      | fail name next error => exact ⟨[name], _, .fail hmove⟩
      | enter name next inner close =>
        obtain ⟨hname, hinner⟩ := hstays.enter hmove hitem
        obtain ⟨hnew, hnext, hclose⟩ := hrecords.enter hmove
        have hless := card_sdiff_lt hname hnew fun k => (hnext k).mpr
        obtain ⟨first, ⟨between, outcome⟩, hfirst⟩ := ih _ hless hinner next rfl
        cases outcome with
        | error error => exact ⟨_, _, .enterFail hmove hfirst⟩
        | ok =>
          obtain ⟨-, -, hbetween⟩ := hfirst.recorded_iff hrecords
          have hmore : ∀ k, k = name ∨ k ∈ recorded state → k ∈ recorded between := fun k hk =>
            (hbetween k).mpr (.inr ((hnext k).mpr hk))
          have hless' := card_sdiff_lt hname hnew fun k hk =>
            (hclose between (hmore name (.inl rfl)) k).mpr (hmore k hk)
          obtain ⟨second, result, hsecond⟩ := ih _ hless' hrest (close between) rfl
          exact ⟨_, result, .enter hmove hfirst hsecond⟩

/-- A traversal ends: there is one descent and no other, and it expands no name twice. -/
structure Ends (move : ι → σ → Move ι σ ε) (items : List ι) (state : σ) (expanded : List String)
    (result : σ × Except ε Unit) : Prop where
  descent : Descent move items state expanded result
  unique : ∀ others outcome, Descent move items state others outcome →
    others = expanded ∧ outcome = result
  nodup : expanded.Nodup

/-- A traversal among finitely many names ends, and expands no more of them than have not been
recorded before. -/
theorem exists_ends (hrecords : Records move recorded) (hstays : Stays move within names)
    (hitems : ∀ item ∈ items, within item) (state : σ) :
    ∃ expanded result, Ends move items state expanded result ∧
      expanded.length ≤ (names \ (recorded state).toFinset).card := by
  obtain ⟨expanded, result, h⟩ := exists_descent hrecords hstays hitems state
  exact ⟨expanded, result, ⟨h, fun _ _ => h.unique, (h.recorded_iff hrecords).1⟩,
    h.length_le hrecords hstays hitems⟩

end MessageSchema
