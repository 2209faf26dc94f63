import MessageSchema.Proofs.CompilationUnit

/-!
# What is selected from any set

A set may declare a name more than once. What is selected from it are still messages of the set, and
no two of them share a name, since a name is only visited once.

## Main definitions

* `Selection.Within`: the selected messages are among several, and each name is visited once.

## Main results

* `Selection.within_run`: a run keeps to messages that need no others.
* `CompilationUnit.declared_of_selectionOf`: the messages that are selected for the unit of a file.
-/

namespace MessageSchema

namespace Selection

variable {pool : Pool} {set : DescriptorSet} {message : Message} {candidates : List Candidate}
  {state : State} {domain : Message → Prop}

/-- The selected messages are among several, and each has a name of its own that has been visited. -/
structure Within (domain : Message → Prop) (state : State) : Prop where
  mem : ∀ message ∈ state.selected, domain message
  visited : ∀ message ∈ state.selected, message.fullName ∈ state.visited
  nodup : (state.selected.map (·.fullName)).Nodup

/-- **One step.** A message whose name has not been visited is added. -/
theorem Within.visit (h : Within domain state) (hmessage : domain message)
    (hfresh : message.fullName ∉ state.visited) :
    Within domain ⟨message.fullName :: state.visited, message :: state.selected⟩ where
  mem := List.forall_mem_cons.mpr ⟨hmessage, h.mem⟩
  visited := List.forall_mem_cons.mpr
    ⟨List.mem_cons_self, fun other hother => List.mem_cons_of_mem _ (h.visited other hother)⟩
  nodup := by
    refine List.nodup_cons.mpr ⟨fun hname => hfresh ?_, h.nodup⟩
    obtain ⟨other, hother, heq⟩ : ∃ other ∈ state.selected, other.fullName = message.fullName :=
      List.mem_map.mp hname
    rw [← heq]
    exact h.visited other hother

/-- **A run.** From candidates among messages that need no others, only such messages are selected. -/
theorem within_run {budget : ℕ} (hneeds : ∀ message other, domain message →
      Needs pool message other → domain other)
    (hcandidates : ∀ candidate ∈ candidates, domain candidate.message) (h : Within domain state) :
    Within domain (run pool budget candidates state).1 := by
  induction budget generalizing candidates state with
  | zero => exact h
  | succ budget ih =>
    obtain ⟨front, -, hnext⟩ := passed_next? state.visited candidates
    rw [run_succ]
    cases hresult : next? state.visited candidates with
    | error e => exact h
    | ok next =>
      cases next with
      | none => exact h
      | some next =>
        obtain ⟨message, rest⟩ := next
        rw [hresult] at hnext
        obtain ⟨candidate, hsplit, rfl, -, -, hfresh⟩ := hnext
        have hmessage : domain candidate.message := hcandidates candidate (by simp [hsplit])
        have hvisit := h.visit hmessage hfresh
        dsimp only
        cases hfound : dependencies pool candidate.message with
        | error e => exact hvisit
        | ok found =>
          refine ih (fun other hother => ?_) hvisit
          rcases mem_expansion.mp hother with ⟨inner, hinner, rfl⟩ | hrest
          · exact hneeds candidate.message inner hmessage
              ((mem_dependencies_append_nested hfound).mp hinner)
          · exact hcandidates other (by simp [hsplit, hrest])

/-- What is selected from messages of a set are messages of the set, each under its own name. -/
theorem declared_of_select {candidates selected : List Message} {default : Bool}
    {visited names : List String} (hcandidates : ∀ message ∈ candidates, message ∈ set.messages)
    (h : select set.pool candidates default visited = (names, .ok selected)) :
    (selected.map (·.fullName)).Nodup ∧ ∀ message ∈ selected, message ∈ set.messages := by
  have hwithin : Within (· ∈ set.messages) (run set.pool
      (((reachableNames set.pool candidates).filter (!visited.contains ·)).length + 1)
      (candidates.map (⟨·, default, false⟩)) ⟨visited, []⟩).1 := by
    refine within_run (fun _ _ => mem_messages_of_needs) ?_ ⟨by simp, by simp, List.nodup_nil⟩
    simpa using hcandidates
  obtain ⟨-, h⟩ := Prod.ext_iff.mp h
  obtain ⟨_, -, rfl⟩ := Except.map_eq_ok.mp h
  refine ⟨?_, fun message hmessage => hwithin.mem message (List.mem_reverse.mp hmessage)⟩
  rw [List.map_reverse, List.nodup_reverse]
  exact hwithin.nodup

end Selection

namespace CompilationUnit

/-- The messages that are selected for a file of a set are declared in the set, whether or not the set
declares each name once. -/
theorem declared_of_selectionOf {set : DescriptorSet} {file : File} {selected : List Message}
    (hfile : file ∈ set.files) (h : selectionOf set.pool file = .ok selected) :
    (selected.map (·.fullName)).Nodup ∧ ∀ message ∈ selected, message ∈ set.messages := by
  obtain ⟨options, -, h⟩ := Except.bind_eq_ok.mp h
  exact Selection.declared_of_select (fun _ => DescriptorSet.mem_messages_of_file hfile)
    (Prod.ext rfl h : Selection.select set.pool file.messages _ [] = (_, .ok selected))

end CompilationUnit

end MessageSchema
