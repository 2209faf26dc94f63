import MessageSchema.Proofs.Descent
import MessageSchema.Proofs.Selection.Exactness
import MessageSchema.Proofs.Synthesis.Filling

/-!
# The traversals of a set end

Selection and the filling of a registry are carried out with a budget, which is a bound on the steps
and not a part of what they mean. Here both are given as the recursions they stand for: a selected
message is followed by everything that its fields depend on and everything nested in it, and a
registered one by everything that its schema refers to, whatever circles the types of a set make.
Both recursions end, and they lead to what is computed with the budget.

The messages that a selection can meet are those of the set and the candidates. A candidate that is
not of the set brings the messages nested in it along.

## Main definitions

* `Selection.move`, `Synthesis.move`: what the two recursions do with a candidate and with a name.
* `fullNames`: the names of several messages.

## Main results

* `Selection.run_of_descent`, `Synthesis.run_of_descent`: a budget that is large enough does not
  matter.
* `DescriptorSet.traversals_end`: both recursions end, each name is expanded at most once, and how
  many names are.
-/

namespace MessageSchema

/-- The full names of several messages, each once. -/
def fullNames (messages : List Message) : Finset String :=
  (messages.map (·.fullName)).toFinset

theorem mem_fullNames {messages : List Message} {name : String} :
    name ∈ fullNames messages ↔ ∃ message ∈ messages, message.fullName = name := by
  simp [fullNames]

/-! ### Selection -/

namespace Selection

variable {pool : Pool} {set : DescriptorSet} {candidate : Candidate}
  {candidates rest : List Candidate} {state : State} {expanded : List String}
  {result : State × Except SchemaError Unit} {budget : ℕ}

/-- What a selection does with a candidate: whatever a selected message depends on comes next, and
then what is nested in it, all of it needed. -/
def move (pool : Pool) (candidate : Candidate) (state : State) :
    Move Candidate State SchemaError :=
  let message := candidate.message
  if message.mapEntry then .skip
  else match shouldGenerate candidate with
    | .error e => .refuse e
    | .ok false => .skip
    | .ok true =>
      if message.fullName ∈ state.visited then .skip
      else
        let next : State := ⟨message.fullName :: state.visited, message :: state.selected⟩
        match dependencies pool message with
        | .error e => .fail message.fullName next e
        | .ok found =>
          .enter message.fullName next (found.map needed ++ message.nested.map needed) id

/-- One step of a run is one move of the descent. -/
theorem run_cons (budget : ℕ) (candidate : Candidate) (rest : List Candidate) (state : State) :
    run pool (budget + 1) (candidate :: rest) state =
      match move pool candidate state with
      | .skip => run pool (budget + 1) rest state
      | .refuse e => (state, .error e)
      | .fail _ next e => (next, .error e)
      | .enter _ next inner _ => run pool budget (inner ++ rest) next := by
  rw [run_succ, next?, move]
  by_cases hentry : candidate.message.mapEntry = true
  · simp only [if_pos hentry, run_succ]
  · simp only [if_neg hentry]
    cases shouldGenerate candidate with
    | error e => rfl
    | ok chosen =>
      cases chosen with
      | false => simp [run_succ, Except.ok_bind]
      | true =>
        by_cases hvisited : candidate.message.fullName ∈ state.visited
        · simp [Except.ok_bind, hvisited, run_succ]
        · have htaken : (true && !state.visited.contains candidate.message.fullName) = true := by
            simpa using hvisited
          simp only [Except.ok_bind, htaken, if_true, if_neg hvisited, pure, Except.pure]
          cases dependencies pool candidate.message with
          | error e => rfl
          | ok found => rfl

/-- A candidate at which a selection fails once it is visited. -/
theorem move_eq_fail {name : String} {next : State} {e : SchemaError}
    (h : move pool candidate state = .fail name next e) :
    name = candidate.message.fullName ∧ name ∉ state.visited ∧
      next = ⟨name :: state.visited, candidate.message :: state.selected⟩ := by
  simp only [move] at h
  split at h
  · cases h
  · split at h
    · cases h
    · cases h
    · split at h
      · cases h
      · rename_i hnew
        split at h <;> cases h
        exact ⟨rfl, hnew, rfl⟩

/-- A candidate that a selection goes on from. -/
theorem move_eq_enter {name : String} {next : State} {inner : List Candidate}
    {close : State → State} (h : move pool candidate state = .enter name next inner close) :
    name = candidate.message.fullName ∧ name ∉ state.visited ∧
      next = ⟨name :: state.visited, candidate.message :: state.selected⟩ ∧
      (∃ found, dependencies pool candidate.message = .ok found ∧
        inner = found.map needed ++ candidate.message.nested.map needed) ∧ close = id := by
  simp only [move] at h
  split at h
  · cases h
  · split at h
    · cases h
    · cases h
    · split at h
      · cases h
      · rename_i hnew
        split at h <;> cases h
        rename_i found hfound
        exact ⟨rfl, hnew, rfl, ⟨found, hfound, rfl⟩, rfl⟩

theorem records_move (pool : Pool) : Records (move pool) State.visited where
  fail h := by
    obtain ⟨rfl, hnew, rfl⟩ := move_eq_fail h
    exact ⟨hnew, fun k => List.mem_cons⟩
  enter h := by
    obtain ⟨rfl, hnew, rfl, -, rfl⟩ := move_eq_enter h
    exact ⟨hnew, fun k => List.mem_cons, fun _ _ _ => Iff.rfl⟩

/-- The messages that a selection from a set can meet: those of the set, and the candidates with all
messages nested in them. -/
def Meets (set : DescriptorSet) (candidates : List Message) (message : Message) : Prop :=
  message ∈ set.messages ++ Message.allWithNested candidates

theorem Meets.needs {roots : List Message} {message other : Message} (h : Meets set roots message)
    (hneeds : Needs set.pool message other) : Meets set roots other := by
  rcases hneeds with ⟨field, -, -, hholds⟩ | hnested
  · obtain ⟨_, hfound⟩ := hholds.exists_message?
    exact List.mem_append_left _ (DescriptorSet.mem_messages_of_message? hfound)
  · rcases List.mem_append.mp h with h | h
    · exact List.mem_append_left _ (DescriptorSet.mem_messages_of_nested h hnested)
    · exact List.mem_append_right _ (Message.mem_allWithNested_of_nested hnested _ h)

/-- A run with a large enough budget goes the way of a descent, and then on to the candidates behind
it. -/
theorem run_of_descent (h : Descent (move pool) candidates state expanded result)
    (rest : List Candidate) (budget : ℕ) :
    run pool (expanded.length + budget + 1) (candidates ++ rest) state =
      onSuccess result (run pool (budget + 1) rest) := by
  induction h generalizing rest budget with
  | done state => simp
  | skip hmove _ ih =>
    rw [List.cons_append, run_cons, hmove]
    exact ih rest budget
  | refuse hmove =>
    rw [List.cons_append, run_cons, hmove]
    rfl
  | fail hmove =>
    rw [List.cons_append, run_cons, hmove]
    rfl
  | @enterFail _ _ _ _ _ _ _ _ expanded _ hmove _ ih =>
    have hbudget : (expanded.length + 1) + budget + 1 = expanded.length + budget + 1 + 1 := by omega
    rw [List.cons_append, List.length_cons, hbudget, run_cons, hmove]
    exact ih _ budget
  | @enter _ behind inner _ next between _ _ first second _ hmove _ _ ihinner ihrest =>
    obtain ⟨-, -, -, -, rfl⟩ := move_eq_enter hmove
    have hbudget : (first.length + second.length + 1) + budget + 1 =
        first.length + (second.length + budget) + 1 + 1 := by omega
    rw [List.cons_append, List.length_cons, List.length_append, hbudget, run_cons, hmove]
    exact (ihinner _ _).trans (ihrest rest budget)

theorem stays_move (set : DescriptorSet) (roots : List Message) :
    Stays (move set.pool) (Meets set roots ·.message)
      (fullNames (set.messages ++ Message.allWithNested roots)) where
  fail h hmeets := by
    obtain ⟨rfl, -⟩ := move_eq_fail h
    exact mem_fullNames.mpr ⟨_, hmeets, rfl⟩
  enter h hmeets := by
    obtain ⟨rfl, -, -, ⟨found, hfound, rfl⟩, -⟩ := move_eq_enter h
    refine ⟨mem_fullNames.mpr ⟨_, hmeets, rfl⟩, fun other hother => ?_⟩
    rw [← List.map_append] at hother
    obtain ⟨message, hmessage, rfl⟩ := List.mem_map.mp hother
    exact hmeets.needs ((mem_dependencies_append_nested hfound).mp hmessage)

section Select

variable {roots : List Message} {default : Bool} {visited : List String}

theorem meets_roots : ∀ candidate ∈ roots.map (⟨·, default, false⟩ : Message → Candidate),
    Meets set roots candidate.message := by
  intro candidate hcandidate
  obtain ⟨message, hmessage, rfl⟩ := List.mem_map.mp hcandidate
  exact List.mem_append_right _ (Message.mem_allWithNested_self hmessage)

/-- The budget of a selection is beyond what a descent expands. -/
theorem length_le_reachableNames
    (h : Descent (move set.pool) (roots.map (⟨·, default, false⟩)) ⟨visited, []⟩ expanded result) :
    expanded.length ≤ ((reachableNames set.pool roots).filter (!visited.contains ·)).length := by
  obtain ⟨hnodup, hfresh, -⟩ := h.recorded_iff (records_move set.pool)
  refine (List.subperm_of_subset hnodup fun k hk => List.mem_filter.mpr ⟨?_, ?_⟩).length_le
  · obtain ⟨message, hmeets, rfl⟩ :=
      mem_fullNames.mp (h.mem_names (stays_move set roots) meets_roots k hk)
    have hmem : message ∈ Message.allWithNested (roots ++ set.pool.messages) := by
      rw [Message.mem_allWithNested]
      rcases List.mem_append.mp hmeets with hmeets | hmeets
      · exact ⟨message, List.mem_append_right _ hmeets, Message.mem_withNested_self message⟩
      · obtain ⟨root, hroot, hmessage⟩ := Message.mem_allWithNested.mp hmeets
        exact ⟨root, List.mem_append_left _ hroot, hmessage⟩
    exact List.mem_eraseDups.mpr (List.mem_map_of_mem hmem)
  · simpa using hfresh k hk

/-- A selection is what the descent through its candidates leads to. -/
theorem select_of_descent
    (h : Descent (move set.pool) (roots.map (⟨·, default, false⟩)) ⟨visited, []⟩ expanded result) :
    select set.pool roots default visited =
      (result.1.visited, result.2.map fun _ => result.1.selected.reverse) := by
  obtain ⟨spare, hspare⟩ := Nat.exists_eq_add_of_le (length_le_reachableNames h)
  have hrun := run_of_descent h [] spare
  have hresult : onSuccess result (run set.pool (spare + 1) []) = result := onSuccess_done result
  rw [List.append_nil, hresult, ← hspare] at hrun
  simp only [select, hrun]

end Select

end Selection

/-! ### Synthesis -/

namespace Synthesis

variable {pool : Pool} {set : DescriptorSet} {selected names expanded : List String} {name : String}
  {registry : Registry} {tasks : List Task} {result : Registry × Except SchemaError Unit}
  {budget : ℕ}

/-- What filling a registry does with a name: a message is registered under a placeholder, what it
refers to comes next, and then the message is completed. -/
def move (pool : Pool) (selected : List String) (name : String) (registry : Registry) :
    Move String Registry SchemaError :=
  if registry.contains name then .skip
  else match pool.message? name with
    | none => .refuse (.unknownType name)
    | some message =>
      let next := registry.insert name .blank
      match Shape.ofMessage pool selected message with
      | .error e => .fail name next e
      | .ok shape => .enter name next shape.referencedNames (·.insert name shape)

theorem move_eq_skip (h : move pool selected name registry = .skip) :
    registry.contains name = true := by
  simp only [move] at h
  split at h
  · assumption
  · split at h
    · cases h
    · split at h <;> cases h

theorem move_eq_refuse {e : SchemaError} (h : move pool selected name registry = .refuse e) :
    registry.contains name = false ∧ pool.message? name = none ∧ e = .unknownType name := by
  simp only [move] at h
  split at h
  · cases h
  · rename_i hnew
    split at h
    · cases h
      exact ⟨Bool.eq_false_iff.mpr hnew, ‹_›, rfl⟩
    · split at h <;> cases h

theorem move_eq_fail {other : String} {next : Registry} {e : SchemaError}
    (h : move pool selected name registry = .fail other next e) :
    other = name ∧ registry.contains name = false ∧ next = registry.insert name .blank ∧
      (∃ message, pool.message? name = some message) ∧ shapeOf pool selected name = .error e := by
  simp only [move] at h
  split at h
  · cases h
  · rename_i hnew
    split at h
    · cases h
    · rename_i message hmessage
      split at h <;> cases h
      rename_i hshape
      refine ⟨rfl, Bool.eq_false_iff.mpr hnew, rfl, ⟨message, hmessage⟩, ?_⟩
      simp only [shapeOf, hmessage, hshape]

theorem move_eq_enter {other : String} {next : Registry} {inner : List String}
    {close : Registry → Registry}
    (h : move pool selected name registry = .enter other next inner close) :
    other = name ∧ registry.contains name = false ∧ next = registry.insert name .blank ∧
      ∃ message shape, pool.message? name = some message ∧ shapeOf pool selected name = .ok shape ∧
        inner = shape.referencedNames ∧ close = (·.insert name shape) := by
  simp only [move] at h
  split at h
  · cases h
  · rename_i hnew
    split at h
    · cases h
    · rename_i message hmessage
      split at h <;> cases h
      rename_i shape hshape
      refine ⟨rfl, Bool.eq_false_iff.mpr hnew, rfl, message, shape, hmessage, ?_, rfl, rfl⟩
      simp only [shapeOf, hmessage, hshape]

theorem mem_keys_insert {k : String} {schema : Schema} :
    k ∈ (registry.insert name schema).keys ↔ k = name ∨ k ∈ registry.keys := by
  rw [← Dictionary.contains_iff_mem_keys, Dictionary.contains_insert,
    Dictionary.contains_iff_mem_keys]

theorem records_move (pool : Pool) (selected : List String) :
    Records (move pool selected) Dictionary.keys where
  fail h := by
    obtain ⟨rfl, hnew, rfl, -⟩ := move_eq_fail h
    refine ⟨fun hmem => ?_, fun k => mem_keys_insert⟩
    simp [Dictionary.contains_iff_mem_keys.mpr hmem] at hnew
  enter h := by
    obtain ⟨rfl, hnew, rfl, _, shape, -, -, -, rfl⟩ := move_eq_enter h
    refine ⟨fun hmem => ?_, fun k => mem_keys_insert, fun between hname k => ?_⟩
    · simp [Dictionary.contains_iff_mem_keys.mpr hmem] at hnew
    · rw [mem_keys_insert, or_iff_right_iff_imp]
      rintro rfl
      exact hname

theorem stays_move (set : DescriptorSet) (selected : List String) (name : String) :
    Stays (move set.pool selected) (· ∈ insert name (fullNames set.messages))
      (insert name (fullNames set.messages)) where
  fail h hmem := by
    obtain ⟨rfl, -⟩ := move_eq_fail h
    exact hmem
  enter h hmem := by
    obtain ⟨rfl, -, -, _, shape, -, hshape, rfl, -⟩ := move_eq_enter h
    refine ⟨hmem, fun k hk => Finset.mem_insert_of_mem ?_⟩
    have hrefers : Refers set.pool selected _ k := ⟨shape, hshape, hk⟩
    exact List.mem_toFinset.mpr (mem_messages_of_refers hrefers)

theorem run_complete {shape : Schema} (budget : ℕ) :
    run pool selected (budget + 1) (.complete name shape :: tasks) registry =
      run pool selected (budget + 1) tasks (registry.insert name shape) := by
  rw [run_succ, run_succ, settle_complete]

theorem settle_register_of_free (h : registry.contains name = false) :
    settle (.register name :: tasks) registry = (registry, some (name, tasks)) :=
  if_neg (by simp [h])

/-- A run with a large enough budget goes the way of a descent, and then on to the tasks behind. -/
theorem run_of_descent (h : Descent (move pool selected) names registry expanded result)
    (tasks : List Task) (budget : ℕ) :
    run pool selected (expanded.length + budget + 1) (names.map .register ++ tasks) registry =
      onSuccess result (run pool selected (budget + 1) tasks) := by
  induction h generalizing tasks budget with
  | done registry => simp
  | skip hmove _ ih =>
    rw [List.map_cons, List.cons_append, run_succ, settle_register (move_eq_skip hmove), ← run_succ]
    exact ih tasks budget
  | refuse hmove =>
    obtain ⟨hnew, hmessage, rfl⟩ := move_eq_refuse hmove
    rw [List.map_cons, List.cons_append, run_succ, settle_register_of_free hnew]
    simp only [hmessage]
    rfl
  | fail hmove =>
    obtain ⟨rfl, hnew, rfl, ⟨message, hmessage⟩, hshape⟩ := move_eq_fail hmove
    rw [List.map_cons, List.cons_append, run_succ, settle_register_of_free hnew]
    simp only [hmessage, hshape]
    rfl
  | @enterFail _ _ _ _ _ _ _ _ expanded _ hmove _ ih =>
    obtain ⟨rfl, hnew, rfl, message, shape, hmessage, hshape, rfl, rfl⟩ := move_eq_enter hmove
    have hbudget : (expanded.length + 1) + budget + 1 = expanded.length + budget + 1 + 1 := by omega
    rw [List.map_cons, List.cons_append, List.length_cons, hbudget, run_succ,
      settle_register_of_free hnew]
    simp only [hmessage, hshape]
    exact ih _ budget
  | @enter _ rest _ _ _ _ _ _ first second _ hmove _ _ ihinner ihrest =>
    obtain ⟨rfl, hnew, rfl, message, shape, hmessage, hshape, rfl, rfl⟩ := move_eq_enter hmove
    have hbudget : (first.length + second.length + 1) + budget + 1 =
        first.length + (second.length + budget) + 1 + 1 := by omega
    rw [List.map_cons, List.cons_append, List.length_cons, List.length_append, hbudget, run_succ,
      settle_register_of_free hnew]
    simp only [hmessage, hshape]
    refine (ihinner _ _).trans ?_
    rw [onSuccess_ok, run_complete]
    exact ihrest tasks budget

/-- The budget for filling a registry is beyond what a descent expands. -/
theorem length_le_reachableNames
    (h : Descent (move set.pool selected) [name] registry expanded result) :
    expanded.length ≤ ((reachableNames set.pool name).filter (!registry.contains ·)).length := by
  obtain ⟨hnodup, hfresh, -⟩ := h.recorded_iff (records_move set.pool selected)
  refine (List.subperm_of_subset hnodup fun k hk => List.mem_filter.mpr ⟨?_, ?_⟩).length_le
  · have hmem := h.mem_names (stays_move set selected name) (by simp) k hk
    rw [Finset.mem_insert] at hmem
    exact mem_reachableNames.mpr (hmem.imp_right fun hk => List.mem_toFinset.mp hk)
  · rw [Bool.not_eq_true', Bool.eq_false_iff, Ne, Dictionary.contains_iff_mem_keys]
    exact hfresh k hk

/-- A registry is filled as the descent from a name does. -/
theorem withRegistry_of_descent
    (h : Descent (move set.pool selected) [name] registry expanded result) :
    withRegistry set.pool selected name registry =
      (result.1, result.2.map fun _ => .reference name) := by
  obtain ⟨spare, hspare⟩ := Nat.exists_eq_add_of_le (length_le_reachableNames h)
  have hrun := run_of_descent h [] spare
  have hresult : onSuccess result (run set.pool selected (spare + 1) []) = result :=
    onSuccess_done result
  rw [List.append_nil, hresult, ← hspare] at hrun
  have hfill : fill set.pool selected name registry = result := hrun
  simp only [withRegistry, hfill]

end Synthesis

/-! ### Both of them -/

namespace DescriptorSet

variable {set : DescriptorSet} {messages : List Message}

/-- Nothing but messages of the set is nested in messages of the set. -/
theorem fullNames_allWithNested_subset (h : ∀ message ∈ messages, message ∈ set.messages) :
    fullNames (set.messages ++ Message.allWithNested messages) ⊆
      fullNames (set.messages ++ messages) := by
  intro name hname
  obtain ⟨message, hmessage, rfl⟩ := mem_fullNames.mp hname
  refine mem_fullNames.mpr ⟨message, List.mem_append_left _ ?_, rfl⟩
  rcases List.mem_append.mp hmessage with hmessage | hmessage
  · exact hmessage
  · exact mem_messages_of_mem_allWithNested h hmessage

/-- **The traversals of a set end.** For any candidates and visited names, and for any name and
registry, there is exactly one descent, it leads to what is computed with a budget, and it expands
no name twice. The names that it expands are new, and they are names of messages of the set and of
candidates, or the name that was asked for. A candidate that is not of the set counts with the names
of all messages nested in it: these are expanded too, as `descent_of_unknown_candidate` shows, and
without them the bound would not hold. -/
theorem traversals_end (set : DescriptorSet) :
    (∀ (candidates : List Message) (default : Bool) (visited : List String), ∃ expanded result,
      Ends (Selection.move set.pool) (candidates.map (⟨·, default, false⟩)) ⟨visited, []⟩ expanded
        result ∧
      Selection.select set.pool candidates default visited =
        (result.1.visited, result.2.map fun _ => result.1.selected.reverse) ∧
      expanded.length ≤
        (fullNames (set.messages ++ Message.allWithNested candidates) \ visited.toFinset).card ∧
      ((∀ message ∈ candidates, message ∈ set.messages) → expanded.length ≤
        (fullNames (set.messages ++ candidates) \ visited.toFinset).card)) ∧
    ∀ (selected : List String) (name : String) (registry : Registry), ∃ expanded result,
      Ends (Synthesis.move set.pool selected) [name] registry expanded result ∧
      Synthesis.withRegistry set.pool selected name registry =
        (result.1, result.2.map fun _ => .reference name) ∧
      expanded.length ≤
        (insert name (fullNames set.messages) \ registry.keys.toFinset).card := by
  refine ⟨fun candidates default visited => ?_, fun selected name registry => ?_⟩
  · obtain ⟨expanded, result, hends, hlength⟩ := exists_ends (Selection.records_move set.pool)
      (Selection.stays_move set candidates) Selection.meets_roots ⟨visited, []⟩
    refine ⟨expanded, result, hends, Selection.select_of_descent hends.descent, hlength,
      fun hcandidates => hlength.trans (Finset.card_le_card ?_)⟩
    exact Finset.sdiff_subset_sdiff (fullNames_allWithNested_subset hcandidates) subset_rfl
  · have hname : ∀ other ∈ [name], other ∈ insert name (fullNames set.messages) := by simp
    obtain ⟨expanded, result, hends, hlength⟩ := exists_ends
      (Synthesis.records_move set.pool selected) (Synthesis.stays_move set selected name) hname
      registry
    exact ⟨expanded, result, hends, Synthesis.withRegistry_of_descent hends.descent, hlength⟩

/-- With the notes left aside a selection from the orders of a shop expands no more than the three
names that remain, although a line refers back to its order. -/
theorem traversals_end_orders :
    (∀ message ∈ [Selection.order], message ∈ Selection.orders.messages) ∧
      ∃ expanded result,
        Ends (Selection.move Selection.orders.pool) [⟨Selection.order, true, false⟩]
          ⟨["shop.Order.Note"], []⟩ expanded result ∧
        Selection.select Selection.orders.pool [Selection.order] true ["shop.Order.Note"] =
          (result.1.visited, result.2.map fun _ => result.1.selected.reverse) ∧
        expanded.length ≤ 3 := by
  have hcandidates : ∀ message ∈ [Selection.order], message ∈ Selection.orders.messages :=
    List.forall_mem_singleton.mpr
      (mem_messages_of_file (List.mem_singleton_self _) (List.mem_cons_self ..))
  obtain ⟨expanded, result, hends, hselect, -, hlength⟩ :=
    (traversals_end Selection.orders).1 [Selection.order] true ["shop.Order.Note"]
  refine ⟨hcandidates, expanded, result, hends, hselect, (hlength hcandidates).trans ?_⟩
  decide

/-- A message that no file declares, with another one nested in it. -/
def crate : Message :=
  { name := "Crate", fullName := "Crate", file := "crate.proto"
    nested := [{ name := "Lid", fullName := "Crate.Lid", file := "crate.proto" }] }

/-- A selection from a message that is not of the set goes on with what is nested in it. The set and
the candidate have one name between them, and two names are expanded. -/
theorem descent_of_unknown_candidate :
    (∃ result, Descent (Selection.move (DescriptorSet.mk [] []).pool) [⟨crate, true, false⟩] ⟨[], []⟩
      ["Crate", "Crate.Lid"] result) ∧
    (fullNames ((DescriptorSet.mk [] []).messages ++ [crate])).card = 1 := by
  constructor
  · exact ⟨_, .enter rfl (.enter rfl (.done _) (.done _)) (.done _)⟩
  · decide

end DescriptorSet

end MessageSchema
