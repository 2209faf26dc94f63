import MessageSchema.Proofs.Agreement
import MessageSchema.Proofs.CompilationUnit
import MessageSchema.Proofs.Selection.Walk
import MessageSchema.Proofs.Synthesis.Filling

/-!
# Compilation units are isolated

The unit of a file depends on the names that are reached from the file and on nothing else. Both walks,
that of the selection and that of the synthesis, run side by side on two pools that agree on these
names: their steps are the same, and so are the names that each step adds. The budgets of the two
walks differ, since they count all messages of a pool, but each of them is large enough.

## Main results

* `Selection.select_congr`: a selection depends on the names that are reached.
* `Synthesis.root_congr`: so does the root of a message.
* `CompilationUnit.compile_congr`: the unit of a file depends on the names that are reached from it.
-/

namespace MessageSchema

open Pool

variable {pool pool' : Pool} {among : String → Prop} {message : Message}

/-! ### Selections -/

namespace Selection

variable {candidates : List Candidate} {state : State} {known known' : List String}
  {domain domain' : Message → Prop} {budget budget' : ℕ}

/-- A walk stays among some messages, whose names are all known. -/
structure Covered (pool : Pool) (known : List String) (domain : Message → Prop) : Prop where
  needs : ∀ message other, domain message → Needs pool message other → domain other
  known : ∀ message, domain message → message.fullName ∈ known

/-- The messages of a pool and of the candidates cover a walk from the candidates. -/
theorem covered_reachableNames (pool : Pool) (candidates : List Message) :
    Covered pool (reachableNames pool candidates)
      (· ∈ Message.allWithNested (candidates ++ pool.messages)) where
  needs message other hmessage hneeds := by
    rcases hneeds with ⟨field, -, -, hholds⟩ | hnested
    · obtain ⟨_, hfound⟩ := hholds.exists_message?
      exact Message.mem_allWithNested_self (List.mem_append_right _ (pool.mem_of_message? hfound))
    · exact Message.mem_allWithNested_of_nested hnested _ hmessage
  known message hmessage := List.mem_eraseDups.mpr (List.mem_map_of_mem hmessage)

/-- **Two runs side by side.** -/
theorem run_congr (h : pool.AgreeWithin pool' among) (hcovered : Covered pool known domain)
    (hcovered' : Covered pool' known' domain')
    (hcandidates : ∀ candidate ∈ candidates, candidate.message.Within among ∧
      domain candidate.message ∧ domain' candidate.message)
    (hselected : ∀ message ∈ state.selected, message.Within among)
    (hbudget : (known.filter (!state.visited.contains ·)).length < budget)
    (hbudget' : (known'.filter (!state.visited.contains ·)).length < budget') :
    run pool budget candidates state = run pool' budget' candidates state ∧
      ∀ message ∈ (run pool budget candidates state).1.selected, message.Within among := by
  induction budget generalizing budget' candidates state with
  | zero => omega
  | succ budget ih =>
    obtain ⟨budget', rfl⟩ : ∃ k, budget' = k + 1 := ⟨budget' - 1, by omega⟩
    obtain ⟨front, -, hnext⟩ := passed_next? state.visited candidates
    rw [run_succ, run_succ]
    cases hresult : next? state.visited candidates with
    | error e => exact ⟨rfl, hselected⟩
    | ok next =>
      cases next with
      | none => exact ⟨rfl, hselected⟩
      | some next =>
        obtain ⟨message, rest⟩ := next
        rw [hresult] at hnext
        obtain ⟨candidate, hsplit, rfl, -, -, hfresh⟩ := hnext
        obtain ⟨hwithin, hdomain, hdomain'⟩ := hcandidates candidate (by simp [hsplit])
        have hselected' : ∀ message ∈ candidate.message :: state.selected, message.Within among :=
          List.forall_mem_cons.mpr ⟨hwithin, hselected⟩
        dsimp only
        rw [← dependencies_congr h hwithin]
        cases hfound : dependencies pool candidate.message with
        | error e => exact ⟨rfl, hselected'⟩
        | ok found =>
          have hfound' : dependencies pool' candidate.message = .ok found :=
            (dependencies_congr h hwithin).symm.trans hfound
          have hblocked : ∀ b, (candidate.message.fullName :: state.visited).contains b = true ↔
              b = candidate.message.fullName ∨ state.visited.contains b = true := by simp
          have hfresh' : state.visited.contains candidate.message.fullName = false := by
            simpa using hfresh
          have hless := length_filter_visit_lt (hcovered.known _ hdomain) hfresh' hblocked
          have hless' := length_filter_visit_lt (hcovered'.known _ hdomain') hfresh' hblocked
          refine ih (fun other hother => ?_) hselected' (by dsimp only; omega) (by dsimp only; omega)
          rcases mem_expansion.mp hother with ⟨inner, hinner, rfl⟩ | hother
          · have hneeds := (mem_dependencies_append_nested hfound).mp hinner
            have hneeds' := (mem_dependencies_append_nested hfound').mp hinner
            exact ⟨within_of_needs h hwithin hneeds, hcovered.needs _ _ hdomain hneeds,
              hcovered'.needs _ _ hdomain' hneeds'⟩
          · exact hcandidates other (by simp [hsplit, hother])

/-- **A selection depends on the names that are reached.** -/
theorem select_congr (h : pool.AgreeWithin pool' among) {candidates : List Message}
    (hcandidates : ∀ message ∈ candidates, message.Within among) (default : Bool)
    (visited : List String) :
    select pool candidates default visited = select pool' candidates default visited ∧
      ∀ selected, (select pool candidates default visited).2 = .ok selected →
        ∀ message ∈ selected, message.Within among := by
  have hstart : ∀ candidate ∈ candidates.map (⟨·, default, false⟩ : Message → Candidate),
      candidate.message.Within among ∧
        candidate.message ∈ Message.allWithNested (candidates ++ pool.messages) ∧
        candidate.message ∈ Message.allWithNested (candidates ++ pool'.messages) := by
    intro candidate hcandidate
    obtain ⟨message, hmessage, rfl⟩ := List.mem_map.mp hcandidate
    exact ⟨hcandidates message hmessage,
      Message.mem_allWithNested_self (List.mem_append_left _ hmessage),
      Message.mem_allWithNested_self (List.mem_append_left _ hmessage)⟩
  have hnone : ∀ message ∈ (State.mk visited []).selected, message.Within among := by simp
  obtain ⟨hrun, hwithin⟩ := run_congr h (covered_reachableNames pool candidates)
    (covered_reachableNames pool' candidates) hstart hnone (Nat.lt_succ_self _) (Nat.lt_succ_self _)
  unfold select
  refine ⟨by simp only [hrun], fun selected hselected message hmessage => ?_⟩
  obtain ⟨-, -, rfl⟩ := Except.map_eq_ok.mp hselected
  exact hwithin message (List.mem_reverse.mp hmessage)

end Selection

/-! ### Roots -/

namespace Synthesis

variable {selected names names' : List String} {tasks : List Task} {registry : Registry}
  {name k : String} {shape : Schema} {budget budget' : ℕ}

theorem shapeOf_congr (h : pool.AgreeWithin pool' among) (hname : among name) :
    shapeOf pool selected name = shapeOf pool' selected name := by
  unfold shapeOf
  rw [← h.message? name hname]
  cases hmessage : pool.message? name with
  | none => rfl
  | some message => exact Shape.ofMessage_congr h (h.within name message hname hmessage)

/-- What a message refers to in its schema has no other names in it. -/
theorem among_of_refers (h : pool.AgreeWithin pool' among) (hname : among name)
    (hrefers : Refers pool selected name k) : among k := by
  obtain ⟨shape, hshape, hk⟩ := hrefers
  obtain ⟨ref, href, hrefName⟩ := List.mem_filterMap.mp hk
  unfold shapeOf at hshape
  split at hshape
  · cases hshape
  · rename_i message hmessage
    obtain ⟨field, hfield, held, hholds, rfl, -⟩ := Shape.ref_of_ofMessage hshape href
    obtain rfl : held.fullName = k := by simpa using hrefName
    exact (h.within_of_holds (h.within name message hname hmessage) hfield hholds).fullName

/-- **Two runs side by side.** -/
theorem run_congr (h : pool.AgreeWithin pool' among) (hready : Ready pool selected registry tasks)
    (htasks : ∀ k, .register k ∈ tasks → among k ∧ k ∈ names ∧ k ∈ names')
    (hclosed : ∀ name k, Refers pool selected name k → k ∈ names)
    (hclosed' : ∀ name k, Refers pool' selected name k → k ∈ names')
    (hbudget : (names.filter (!registry.contains ·)).length < budget)
    (hbudget' : (names'.filter (!registry.contains ·)).length < budget') :
    run pool selected budget tasks registry = run pool' selected budget' tasks registry := by
  induction budget generalizing budget' tasks registry with
  | zero => omega
  | succ budget ih =>
    obtain ⟨budget', rfl⟩ : ∃ k, budget' = k + 1 := ⟨budget' - 1, by omega⟩
    obtain ⟨front, hsettled, hnext⟩ := settled_settle fun k shape hmem => (hready k shape hmem).1
    rw [run_succ, run_succ]
    cases hsettle : (settle tasks registry).2 with
    | none => rfl
    | some next =>
      obtain ⟨name, rest⟩ := next
      rw [hsettle] at hnext
      obtain ⟨rfl, hfree⟩ := hnext
      have hregistered : Registered name front registry
          ((settle (front ++ .register name :: rest) registry).1.insert name .blank) :=
        ⟨hfree, _, hsettled, rfl⟩
      obtain ⟨hname, hmem, hmem'⟩ := htasks name (by simp)
      dsimp only
      rw [← h.message? name hname, ← shapeOf_congr h hname]
      cases pool.message? name with
      | none => rfl
      | some message =>
        cases hshape : shapeOf pool selected name with
        | error e => rfl
        | ok shape =>
          have hshape' : shapeOf pool' selected name = .ok shape :=
            (shapeOf_congr h hname).symm.trans hshape
          have hless := length_filter_visit_lt hmem hfree hregistered.contains_iff
          have hless' := length_filter_visit_lt hmem' hfree hregistered.contains_iff
          refine ih (hregistered.ready hready hshape) (fun k hk => ?_) (by omega) (by omega)
          rcases register_mem_expansion.mp hk with hk | hk
          · have hrefers := (refers_iff hshape).mpr hk
            exact ⟨among_of_refers h hname hrefers, hclosed name k hrefers,
              hclosed' name k ((refers_iff hshape').mpr hk)⟩
          · exact htasks k (by simp [hk])

theorem fill_congr (h : pool.AgreeWithin pool' among) (hname : among name) (registry : Registry) :
    fill pool selected name registry = fill pool' selected name registry :=
  run_congr h (by simp [Ready])
    (fun k hk => by
      obtain rfl : k = name := by simpa using hk
      exact ⟨hname, mem_reachableNames.mpr (.inl rfl), mem_reachableNames.mpr (.inl rfl)⟩)
    (fun _ _ hrefers => mem_reachableNames.mpr (.inr (mem_messages_of_refers hrefers)))
    (fun _ _ hrefers => mem_reachableNames.mpr (.inr (mem_messages_of_refers hrefers)))
    (Nat.lt_succ_self _) (Nat.lt_succ_self _)

/-- **The root of a message depends on the names that are reached.** -/
theorem root_congr (h : pool.AgreeWithin pool' among) (hname : among name) :
    root pool selected name = root pool' selected name := by
  rw [root, root, fill_congr h hname]

end Synthesis

/-! ### Units -/

namespace CompilationUnit

variable {selected : List String} {settings : Settings} {file : File}

theorem calleeOf_congr (h : pool.AgreeWithin pool' among) (hmessage : message.Within among) :
    calleeOf pool settings file message = calleeOf pool' settings file message := by
  unfold calleeOf
  rw [h.packageOf? _ hmessage.fullName]

theorem generate_congr (h : pool.AgreeWithin pool' among) (hmessage : message.Within among)
    (origin : Origin) :
    generate pool selected file origin message = generate pool' selected file origin message := by
  unfold generate
  rw [Synthesis.root_congr h hmessage.fullName, Shape.ofMessage_congr h hmessage]

theorem generateAll_congr (h : pool.AgreeWithin pool' among) {kept : List (Origin × Message)}
    (hkept : ∀ pair ∈ kept, pair.2.Within among) :
    generateAll pool selected file kept = generateAll pool' selected file kept := by
  induction kept with
  | nil => rfl
  | cons pair rest ih =>
    obtain ⟨hpair, hrest⟩ := List.forall_mem_cons.mp hkept
    rw [generateAll, generateAll, generate_congr h hpair, ih hrest]

/-- **Isolation.** Two pools that agree on the names that are reached from a file compile it to the
same unit, to nothing, or fail with the same fault. -/
theorem compile_congr (settings : Settings) (h : pool.Agree pool' (pool.NamesOf file)) :
    compile pool settings file = compile pool' settings file := by
  have hmessages : ∀ message ∈ file.messages, message.Within (pool.NamesOf file) :=
    fun _ => within_of_mem_messages pool
  have hselect := fun default => Selection.select_congr h.within hmessages default []
  unfold compile
  refine Except.bind_congr_ok fun options _ => ?_
  dsimp only
  rw [← (hselect _).1]
  refine Except.bind_congr_ok fun selected hselected => ?_
  have hwithin := (hselect _).2 selected hselected
  have hkept : ∀ pair ∈ keptOf settings file selected, pair.2.Within (pool.NamesOf file) :=
    fun _ hpair => hwithin _ (mem_keptOf.mp hpair).1
  have htypes : generateAll pool (selected.map (·.fullName)) file (keptOf settings file selected) =
      generateAll pool' (selected.map (·.fullName)) file (keptOf settings file selected) :=
    generateAll_congr h.within hkept
  have hcallees : selected.map (fun message => (message.fullName, calleeOf pool settings file message)) =
      selected.map fun message => (message.fullName, calleeOf pool' settings file message) :=
    List.map_congr_left fun message hmessage => by rw [calleeOf_congr h.within (hwithin message hmessage)]
  rw [keptOf] at htypes
  rw [htypes, hcallees]

/-- A book and its author, who is declared elsewhere. -/
def catalog : File where
  path := "catalog.proto"
  package := "catalog"
  overlay := some (.object [("generate", .boolean true)])
  messages := [
    { name := "Book", fullName := "catalog.Book", file := "catalog.proto",
      fields := [
        { name := "title", number := 1, kind := .string },
        { name := "author", number := 2, kind := .message, typeName := some ".people.Author" }] }]

/-- The author of a book. -/
def author : Message where
  name := "Author"
  fullName := "people.Author"
  file := "people.proto"
  fields := [{ name := "name", number := 1, kind := .string }]

/-- Books, and nothing beyond what they need. -/
def tidy : DescriptorSet where
  files := [catalog, { path := "people.proto", package := "people", messages := [author] }]
  targets := ["catalog.proto"]

/-- The same books, next to a file whose options and fields are faulty. -/
def cluttered : DescriptorSet where
  files := [
    { path := "people.proto", package := "people", overlay := some (.integer 1),
      messages := [author,
        { name := "Editor", fullName := "people.Editor", file := "people.proto",
          fields := [{ name := "desk", number := 1, kind := .message, typeName := some "people.Desk" }] }] },
    catalog]
  targets := ["people.proto", "catalog.proto"]

/-- Books are compiled alike, whatever stands next to their author. -/
theorem compile_congr_catalog :
    tidy.pool.Agree cluttered.pool (tidy.pool.NamesOf catalog) ∧
      tidy.pool.message? "people.Editor" = none ∧
      (cluttered.pool.message? "people.Editor").isSome = true ∧
      compile tidy.pool {} catalog = compile cluttered.pool {} catalog := by
  have hnames : ∀ name, tidy.pool.NamesOf catalog name →
      name ∈ ["catalog.Book", ".people.Author", "people.Author"] :=
    fun _ => mem_of_namesOf (by decide +kernel) (by decide +kernel)
  have hagree : tidy.pool.Agree cluttered.pool (tidy.pool.NamesOf catalog) := by
    constructor <;> intro name hname <;> have hname := hnames name hname <;>
      simp only [List.mem_cons, List.not_mem_nil, or_false] at hname <;>
      rcases hname with rfl | rfl | rfl <;> rfl
  exact ⟨hagree, rfl, rfl, compile_congr {} hagree⟩

end CompilationUnit

end MessageSchema
