import MessageSchema.Proofs.Reached
import MessageSchema.Proofs.Selection.Candidates

/-!
# The walk of a selection

A selection takes candidates one by one. A candidate that is to be selected and has not been visited
is put out, and what it takes with it becomes needed before the candidates behind it. Only names are
marked as visited, so a walk over messages is a walk over names as long as no two messages that it
can meet share one.

## Main definitions

* `Selection.Visits`: the messages that a walk visits.
* `Selection.Walked`: what taking all candidates leads to.

## Main results

* `Selection.walked_run`: a run with a large enough budget does exactly this.
-/

namespace MessageSchema

namespace Selection

variable {pool : Pool} {message other : Message} {candidate : Candidate}
  {candidates front rest : List Candidate} {state : State} {found : List Message}
  {domain : Message → Prop} {names : List String}

/-- The messages at which a walk begins. -/
def Starts (candidates : List Candidate) (message : Message) : Prop :=
  ∃ candidate ∈ candidates, candidate.message = message ∧ Begins candidate

/-- The messages that a walk visits: those it begins at and what they take with them, directly or
not, without going through a message that has been visited before. -/
def Visits (pool : Pool) (candidates : List Candidate) (visited : List String) : Message → Prop :=
  Reached (Takes pool) (·.fullName ∈ visited) (Starts candidates)

/-- What taking all candidates leads to. -/
structure Walked (pool : Pool) (candidates : List Candidate) (state : State)
    (result : State × Except SchemaError Unit) : Prop where
  readable : result.2 = .ok () → ∀ candidate ∈ candidates, candidate.message.mapEntry = false →
    Readable candidate.message
  sound : result.2 = .ok () → ∀ message, Visits pool candidates state.visited message →
    Sound pool message
  failed : ∀ e, result.2 = .error e →
    (∃ candidate ∈ candidates, candidate.message.mapEntry = false ∧
      ¬ Readable candidate.message) ∨
    ∃ message, Visits pool candidates state.visited message ∧ ¬ Sound pool message
  visits : result.2 = .ok () → ∃ new, result.1.selected = new ++ state.selected ∧
    result.1.visited = new.map (·.fullName) ++ state.visited ∧
    (new.map (·.fullName)).Nodup ∧ ∀ message, message ∈ new ↔
      Visits pool candidates state.visited message

/-- Messages among which a walk stays, no two of which share a name. -/
structure Distinct (pool : Pool) (domain : Message → Prop) : Prop where
  needs : ∀ message other, domain message → Needs pool message other → domain other
  eq_of_fullName_eq : ∀ message other, domain message → domain other →
    message.fullName = other.fullName → message = other

theorem Distinct.visits (h : Distinct pool domain)
    (hcandidates : ∀ candidate ∈ candidates, domain candidate.message) {visited : List String}
    (hvisits : Visits pool candidates visited message) : domain message := by
  induction hvisits with
  | start hs =>
    obtain ⟨candidate, hmem, rfl, -⟩ := hs
    exact hcandidates candidate hmem
  | step _ hedge _ ih => exact h.needs _ _ ih hedge.1

/-- All candidates are passed over. -/
theorem walked_of_passed (h : ∀ candidate ∈ candidates, Passed state.visited candidate) :
    Walked pool candidates state (state, .ok ()) := by
  have hnone : ∀ message, ¬ Visits pool candidates state.visited message := fun message =>
    not_reached_of_start_blocked fun other hs => by
      obtain ⟨candidate, hmem, rfl, hbegins⟩ := hs
      exact (h candidate hmem).mem_visited hbegins
  exact
    { readable _ candidate hmem hentry := (h candidate hmem).readable hentry
      sound _ message hvisits := absurd hvisits (hnone message)
      failed _ he := nomatch he
      visits _ := ⟨[], rfl, rfl, List.nodup_nil, fun message => by simp [hnone message]⟩ }

/-! ### One step -/

/-- The candidates once a message is visited: what it takes with it, and then those behind it. -/
def expansion (found : List Message) (message : Message) (rest : List Candidate) :
    List Candidate :=
  found.map needed ++ message.nested.map needed ++ rest

theorem mem_expansion : candidate ∈ expansion found message rest ↔
    (∃ other ∈ found ++ message.nested, needed other = candidate) ∨ candidate ∈ rest := by
  rw [expansion, ← List.map_append, List.mem_append, List.mem_map]

theorem starts_expansion (hfound : dependencies pool message = .ok found) :
    Starts (expansion found message rest) other ↔ Takes pool message other ∨ Starts rest other := by
  simp only [Starts, mem_expansion, or_and_right, exists_or]
  refine or_congr_left ?_
  rw [Takes, ← mem_dependencies_append_nested hfound]
  constructor
  · rintro ⟨_, ⟨inner, hmem, rfl⟩, rfl, hbegins⟩
    exact ⟨hmem, begins_needed.mp hbegins⟩
  · rintro ⟨hmem, hentry⟩
    exact ⟨needed other, ⟨other, hmem, rfl⟩, rfl, begins_needed.mpr hentry⟩

/-- A message is visited: the candidates in front of it are passed over, it is to be selected and
has not been visited before. -/
structure Visited (message : Message) (candidates rest : List Candidate) (visited : List String) :
    Prop where
  split : ∃ front candidate, candidates = front ++ candidate :: rest ∧
    (∀ other ∈ front, Passed visited other) ∧ candidate.message = message ∧
    message.mapEntry = false ∧ shouldGenerate candidate = .ok true
  fresh : message.fullName ∉ visited

variable {visited : List String}

theorem Visited.readable (h : Visited message candidates rest visited)
    (hrest : ∀ candidate ∈ rest, candidate.message.mapEntry = false →
      Readable candidate.message) :
    ∀ candidate ∈ candidates, candidate.message.mapEntry = false → Readable candidate.message := by
  obtain ⟨front, candidate, rfl, hfront, rfl, -, hchosen⟩ := h.split
  intro other hmem hentry
  rcases List.mem_append.mp hmem with hmem | hmem
  · exact (hfront other hmem).readable hentry
  · rcases List.mem_cons.mp hmem with rfl | hmem
    · exact exists_shouldGenerate_iff.mp ⟨true, hchosen⟩
    · exact hrest other hmem hentry

theorem Visited.mem_of_mem_rest (h : Visited message candidates rest visited)
    (hmem : candidate ∈ rest) : candidate ∈ candidates := by
  obtain ⟨front, found, rfl, -⟩ := h.split
  simp [hmem]

theorem Visited.mem_domain (h : Visited message candidates rest visited)
    (hcandidates : ∀ candidate ∈ candidates, domain candidate.message) : domain message := by
  obtain ⟨front, candidate, rfl, -, rfl, -⟩ := h.split
  exact hcandidates candidate (by simp)

/-- What is visited before and after a message is visited. -/
theorem Visited.visits_iff (h : Visited message candidates rest visited)
    (hdistinct : Distinct pool domain)
    (hcandidates : ∀ candidate ∈ candidates, domain candidate.message)
    (hfound : dependencies pool message = .ok found) :
    Visits pool candidates visited other ↔ other = message ∨
      Visits pool (expansion found message rest) (message.fullName :: visited) other := by
  have hmessage : domain message := h.mem_domain hcandidates
  have hstarts : ∀ b : Message, b.fullName ∉ visited →
      (Starts candidates b ↔ b = message ∨ Starts rest b) := by
    obtain ⟨front, candidate, rfl, hfront, rfl, hentry, hchosen⟩ := h.split
    intro b hb
    constructor
    · rintro ⟨found, hmem, rfl, hbegins⟩
      rcases List.mem_append.mp hmem with hmem | hmem
      · exact absurd ((hfront found hmem).mem_visited hbegins) hb
      · rcases List.mem_cons.mp hmem with rfl | hmem
        · exact .inl rfl
        · exact .inr ⟨found, hmem, rfl, hbegins⟩
    · rintro (rfl | ⟨found, hmem, rfl, hbegins⟩)
      · exact ⟨candidate, by simp, rfl, hentry, .inr hchosen⟩
      · exact ⟨found, by simp [hmem], rfl, hbegins⟩
  have hreached : ∀ b, Reached (Takes pool) (·.fullName ∈ visited)
      (fun b => b = message ∨ Starts rest b) b → domain b := fun b hb =>
    hdistinct.visits hcandidates ((reached_congr hstarts).mpr hb)
  rw [Visits, Visits, reached_congr hstarts, reached_congr fun b _ => starts_expansion hfound]
  refine reached_visit (.inl rfl) h.fresh (fun b hb => List.mem_cons_of_mem _ hb)
    (fun b hb hvisited => ?_) (fun b hb => hb) (fun b hb => .inr hb)
  have hname := (List.mem_cons.mp hvisited).resolve_right hb.not_blocked
  exact hdistinct.eq_of_fullName_eq b message (hreached b hb) hmessage hname

theorem readable_of_expansion (hfound : dependencies pool message = .ok found)
    (h : ∀ candidate ∈ expansion found message rest, candidate.message.mapEntry = false →
      Readable candidate.message) : Sound pool message := by
  refine ⟨dependencies_ok_iff.mp ⟨found, hfound⟩, fun other htakes => ?_⟩
  have hmem := (mem_dependencies_append_nested hfound).mpr htakes.1
  exact h (needed other) (mem_expansion.mpr (.inl ⟨other, hmem, rfl⟩)) htakes.2

variable {selected : List Message} {result : State × Except SchemaError Unit}

/-- **One step.** Visiting a message and going on with what it takes is taking all candidates. -/
theorem Visited.walked (h : Visited message candidates rest visited)
    (hdistinct : Distinct pool domain)
    (hcandidates : ∀ candidate ∈ candidates, domain candidate.message)
    (hfound : dependencies pool message = .ok found)
    (hwalked : Walked pool (expansion found message rest)
      ⟨message.fullName :: visited, message :: selected⟩ result) :
    Walked pool candidates ⟨visited, selected⟩ result where
  readable hok := h.readable fun candidate hmem =>
    hwalked.readable hok candidate (mem_expansion.mpr (.inr hmem))
  sound hok other hother := by
    rcases (h.visits_iff hdistinct hcandidates hfound).mp hother with rfl | hother
    · exact readable_of_expansion hfound (hwalked.readable hok)
    · exact hwalked.sound hok other hother
  failed e he := by
    have hself : Visits pool candidates visited message :=
      (h.visits_iff hdistinct hcandidates hfound).mpr (.inl rfl)
    rcases hwalked.failed e he with ⟨candidate, hmem, hentry, hreadable⟩ | ⟨other, hother, hsound⟩
    · rcases mem_expansion.mp hmem with ⟨other, hother, rfl⟩ | hmem
      · refine .inr ⟨message, hself, fun hsound => hreadable ?_⟩
        exact hsound.2 other ⟨(mem_dependencies_append_nested hfound).mp hother, hentry⟩
      · exact .inl ⟨candidate, h.mem_of_mem_rest hmem, hentry, hreadable⟩
    · exact .inr ⟨other, (h.visits_iff hdistinct hcandidates hfound).mpr (.inr hother), hsound⟩
  visits hok := by
    obtain ⟨new, hselected, hvisited, hnodup, hnew⟩ := hwalked.visits hok
    refine ⟨new ++ [message], by simp [hselected], by simp [hvisited], ?_, fun other => ?_⟩
    · rw [List.map_append, List.nodup_append]
      refine ⟨hnodup, by simp, ?_⟩
      rintro name hname _ hself rfl
      obtain ⟨other, hother, rfl⟩ := List.mem_map.mp hname
      exact ((hnew other).mp hother).not_blocked (by simpa using Or.inl hself)
    · rw [List.mem_append, List.mem_singleton, hnew, h.visits_iff hdistinct hcandidates hfound,
        or_comm]

/-- A step that fails is that of a message whose fields do not resolve. -/
theorem Visited.failed (h : Visited message candidates rest visited)
    {e : SchemaError} (hfail : dependencies pool message = .error e) :
    Walked pool candidates ⟨visited, selected⟩ (state, .error e) where
  readable hok := nomatch hok
  sound hok := nomatch hok
  failed _ _ := by
    obtain ⟨front, candidate, rfl, -, rfl, hentry, hchosen⟩ := h.split
    refine .inr ⟨candidate.message, .start ⟨candidate, by simp, rfl, hentry, .inr hchosen⟩ h.fresh,
      fun hsound => ?_⟩
    obtain ⟨found, hfound⟩ := dependencies_ok_iff.mpr hsound.1
    rw [hfail] at hfound
    cases hfound
  visits hok := nomatch hok

/-! ### All steps -/

theorem run_succ (budget : ℕ) (candidates : List Candidate) (state : State) :
    run pool (budget + 1) candidates state =
      match next? state.visited candidates with
      | .error e => (state, .error e)
      | .ok none => (state, .ok ())
      | .ok (some (message, rest)) =>
        match dependencies pool message with
        | .error e => (⟨message.fullName :: state.visited, message :: state.selected⟩, .error e)
        | .ok found => run pool budget (expansion found message rest)
            ⟨message.fullName :: state.visited, message :: state.selected⟩ := rfl

/-- **A run.** With a budget beyond the count of names that have not been visited, all candidates are
taken. -/
theorem walked_run {budget : ℕ} (hdistinct : Distinct pool domain)
    (hcandidates : ∀ candidate ∈ candidates, domain candidate.message)
    (hnames : ∀ message, domain message → message.fullName ∈ names)
    (hbudget : (names.filter (!state.visited.contains ·)).length < budget) :
    Walked pool candidates state (run pool budget candidates state) := by
  induction budget generalizing candidates state with
  | zero => omega
  | succ budget ih =>
    obtain ⟨front, hfront, hnext⟩ := passed_next? state.visited candidates
    rw [run_succ]
    cases hresult : next? state.visited candidates with
    | error e =>
      rw [hresult] at hnext
      obtain ⟨candidate, hmem, hentry, hfail⟩ := hnext
      have hreadable : ¬ Readable candidate.message := by
        rintro ⟨options, hoptions⟩
        rw [hfail] at hoptions
        cases hoptions
      exact
        { readable := nofun
          sound := nofun
          failed _ _ := .inl ⟨candidate, hmem, hentry, hreadable⟩
          visits := nofun }
    | ok next =>
      cases next with
      | none =>
        rw [hresult] at hnext
        obtain rfl : candidates = front := hnext
        exact walked_of_passed hfront
      | some next =>
        obtain ⟨message, rest⟩ := next
        rw [hresult] at hnext
        obtain ⟨candidate, hsplit, hmessage, hentry, hchosen, hfresh⟩ := hnext
        have hvisited : Visited message candidates rest state.visited :=
          ⟨⟨front, candidate, hsplit, hfront, hmessage, hentry, hchosen⟩, hfresh⟩
        dsimp only
        cases hfound : dependencies pool message with
        | error e => exact hvisited.failed hfound
        | ok found =>
          have hmem := hvisited.mem_domain hcandidates
          refine hvisited.walked hdistinct hcandidates hfound (ih (fun candidate hmem' => ?_) ?_)
          · rcases mem_expansion.mp hmem' with ⟨other, hother, rfl⟩ | hmem'
            · exact hdistinct.needs message other hmem
                ((mem_dependencies_append_nested hfound).mp hother)
            · exact hcandidates candidate (hvisited.mem_of_mem_rest hmem')
          · have hblocked : ∀ b, (message.fullName :: state.visited).contains b = true ↔
                b = message.fullName ∨ state.visited.contains b = true := by simp
            have := length_filter_visit_lt (hnames message hmem) (by simpa using hfresh) hblocked
            dsimp only
            omega

end Selection

end MessageSchema
