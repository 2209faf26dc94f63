import MessageSchema.Command.Generate
import MessageSchema.Proofs.Disk.Atomic

/-!
# The files of a unit while it is written

A unit is written in steps: an artifact is staged, a staged artifact is moved to its place, or a
staged artifact is removed. At any time some artifacts are staged, some are moved, and some are gone
from where they were staged; what stands anywhere else is as it was. Each step keeps this picture,
and a run ends in one of four ways.

## Main definitions

* `Generate.Apart`: the places of the artifacts of a unit are all different.
* `Generate.Layout`: which artifacts are staged, which are moved and which are gone.
* `Generate.Outcome`: the ways in which writing a unit ends.

## Main results

* `Generate.Layout.write`, `Generate.Layout.rename`, `Generate.Layout.remove`: the steps.
* `Generate.stage_cases`, `Generate.place_cases`: what staging and moving one artifact comes to.
* `Generate.Layout.discard`, `Generate.Layout.stage`, `Generate.Layout.place`: the loops.
* `Generate.outcome_writeUnit`: writing a unit ends in one of these ways.
-/

namespace MessageSchema

namespace Generate

/-- Where an artifact is staged. -/
def temporaryOf (directory : Path) (artifact : String × String) : Path :=
  directory.join ⟨artifact.1 ++ ".tmp"⟩

/-- Where an artifact is moved. -/
def finalOf (directory : Path) (artifact : String × String) : Path :=
  directory.join ⟨artifact.1⟩

/-- An artifact when it is staged. -/
def stagedOf (directory : Path) (artifact : String × String) : Staged :=
  ⟨temporaryOf directory artifact, finalOf directory artifact⟩

/-- The place where an artifact is staged. -/
def stagingPlace (memory : Memory) (directory : Path) (artifact : String × String) : List String :=
  (temporaryOf directory artifact).place memory.workingDirectory

/-- The place where an artifact is moved. -/
def finalPlace (memory : Memory) (directory : Path) (artifact : String × String) : List String :=
  (finalOf directory artifact).place memory.workingDirectory

/-- The places of artifacts, and those where they are staged, are all different. -/
structure Apart (memory : Memory) (directory : Path) (all : List (String × String)) : Prop where
  staging : all.Pairwise fun a b =>
    stagingPlace memory directory a ≠ stagingPlace memory directory b
  final : all.Pairwise fun a b => finalPlace memory directory a ≠ finalPlace memory directory b
  crossed : ∀ a ∈ all, ∀ b ∈ all,
    stagingPlace memory directory a ≠ finalPlace memory directory b

variable {directory : Path} {artifact : String × String}
  {all staged moved gone waiting : List (String × String)}
  {base memory after : Memory}

/-- The path where an artifact is staged ends in a name. -/
theorem getLast?_pieces_temporaryOf (directory : Path) (artifact : String × String) :
    (temporaryOf directory artifact).pieces.getLast? ≠ some "" := by
  have hend : ∃ cs, (temporaryOf directory artifact).text.toList = cs ++ ['p'] := by
    have hname : (artifact.1 ++ ".tmp").toList = (artifact.1.toList ++ ".tm".toList) ++ ['p'] := by
      simp
    rcases Path.join_cases directory ⟨artifact.1 ++ ".tmp"⟩ with
      ⟨-, hjoin⟩ | ⟨-, cs, -, hjoin⟩ | ⟨-, -, hjoin⟩
    · exact ⟨_, by rw [temporaryOf, hjoin]; exact hname⟩
    · exact ⟨cs ++ '/' :: (artifact.1.toList ++ ".tm".toList), by
        rw [temporaryOf, hjoin, hname]; simp⟩
    · exact ⟨directory.text.toList ++ '/' :: (artifact.1.toList ++ ".tm".toList), by
        rw [temporaryOf, hjoin, hname]; simp⟩
  obtain ⟨cs, hcs⟩ := hend
  have hp : 'p' ≠ '/' := by decide
  obtain ⟨piece, hpiece⟩ := Text.getLast?_pieces_append hp cs
  rw [Path.pieces, hcs, List.getLast?_map, hpiece]
  simp [String.ext_iff]

/-! ### The picture -/

/-- Some artifacts are staged, some are moved to their places, and some are gone from where they
were staged. Anything else stands as it did. -/
structure Layout (base : Memory) (directory : Path) (staged moved gone : List (String × String))
    (memory : Memory) : Prop where
  keeps : base.Keeps memory
  isStaged : ∀ a ∈ staged,
    memory.locateNew (temporaryOf directory a) = .ok (some (stagingPlace base directory a)) ∧
    memory.view (stagingPlace base directory a) = some (.file a.2)
  isMoved : ∀ a ∈ moved, memory.view (finalPlace base directory a) = some (.file a.2)
  isGone : ∀ a ∈ gone, memory.view (stagingPlace base directory a) = none
  others : ∀ place,
    (∀ a ∈ staged ++ gone, place ≠ stagingPlace base directory a) →
    (∀ a ∈ moved, place ≠ finalPlace base directory a) →
    memory.view place = base.view place

theorem Layout.nil (base : Memory) (directory : Path) : Layout base directory [] [] [] base where
  keeps := .refl base
  isStaged := by simp
  isMoved := by simp
  isGone := by simp
  others _ _ _ := rfl

theorem Layout.workingDirectory (h : Layout base directory staged moved gone memory) :
    memory.workingDirectory = base.workingDirectory :=
  h.keeps.workingDirectory

/-- An artifact is staged. -/
theorem Layout.write (h : Layout base directory staged [] [] memory)
    (hstaged : ∀ a ∈ staged, stagingPlace base directory a ≠
      stagingPlace base directory artifact)
    (hwrite : memory.write (temporaryOf directory artifact) artifact.2 = .ok after) :
    Layout base directory (staged ++ [artifact]) [] [] after := by
  obtain ⟨place, hplace, hold, hupdated⟩ := Memory.updated_of_write hwrite
  have hkeeps := hupdated.keeps hold
  obtain rfl : place = stagingPlace base directory artifact := by
    rw [stagingPlace, ← h.workingDirectory]
    exact (Memory.place_of_locateNew hplace).1
  refine ⟨h.keeps.trans hkeeps, fun a ha => ?_, by simp, by simp, fun place hother _ => ?_⟩
  · rcases List.mem_append.mp ha with ha | ha
    · obtain ⟨hfound, hview⟩ := h.isStaged a ha
      exact ⟨Memory.locateNew_of_keeps hkeeps hfound, by rw [hupdated.view_of_ne (hstaged a ha), hview]⟩
    · obtain rfl := List.mem_singleton.mp ha
      exact ⟨Memory.locateNew_of_keeps hkeeps hplace, hupdated.view_self⟩
  · rw [hupdated.view_of_ne (hother artifact (by simp))]
    refine h.others place (fun a ha => hother a ?_) (by simp)
    rw [List.append_nil] at ha ⊢
    exact List.mem_append_left _ ha

/-- An artifact that is no longer staged is one that is gone. -/
theorem mem_staged_or_gone {a : String × String} (h : a ∈ artifact :: staged ++ gone) :
    a ∈ staged ++ (gone ++ [artifact]) := by
  simp only [List.cons_append, List.mem_cons, List.mem_append, List.not_mem_nil, or_false] at h ⊢
  tauto

/-- A staged artifact is removed. -/
theorem Layout.remove (h : Layout base directory (artifact :: staged) moved gone memory)
    (hstaged : ∀ a ∈ staged, stagingPlace base directory a ≠
      stagingPlace base directory artifact)
    (hmoved : ∀ a ∈ moved, finalPlace base directory a ≠
      stagingPlace base directory artifact) :
    ∃ after, memory.remove (temporaryOf directory artifact) = .ok after ∧
      Layout base directory staged moved (gone ++ [artifact]) after := by
  obtain ⟨hfound, hfile⟩ := h.isStaged artifact List.mem_cons_self
  obtain ⟨after, hremove, hupdated⟩ := Memory.exists_updated_of_remove
    (getLast?_pieces_temporaryOf directory artifact) hfound hfile
  have hkeeps := hupdated.keeps (by simp [hfile])
  refine ⟨after, hremove, h.keeps.trans hkeeps, fun a ha => ?_, fun a ha => ?_, fun a ha => ?_,
    fun place hother hfinal => ?_⟩
  · obtain ⟨hfound, hview⟩ := h.isStaged a (List.mem_cons_of_mem _ ha)
    exact ⟨Memory.locateNew_of_keeps hkeeps hfound, by rw [hupdated.view_of_ne (hstaged a ha), hview]⟩
  · rw [hupdated.view_of_ne (hmoved a ha), h.isMoved a ha]
  · rw [hupdated.view]
    split_ifs with hsame
    · rfl
    · rcases List.mem_append.mp ha with ha | ha
      · exact h.isGone a ha
      · exact absurd (by rw [List.mem_singleton.mp ha]) hsame
  · rw [hupdated.view_of_ne (hother artifact (by simp))]
    exact h.others place (fun a ha => hother a (mem_staged_or_gone ha)) hfinal

/-- The move of an artifact takes a file from where it is staged to where it belongs. -/
theorem updated_of_move (hdirectory : memory.workingDirectory = base.workingDirectory)
    (hrename : memory.rename (temporaryOf directory artifact) (finalOf directory artifact) =
      .ok after) :
    ∃ content, memory.view (stagingPlace base directory artifact) = some (.file content) ∧
      memory.view (finalPlace base directory artifact) ≠ some .directory ∧
      ∃ between, memory.Updated (stagingPlace base directory artifact) none between ∧
        between.Updated (finalPlace base directory artifact) (some (.file content)) after := by
  obtain ⟨old, new, content, hold, hnew, hfile, hfree, between, hremoved, hput⟩ :=
    Memory.updated_of_rename hrename
  obtain rfl : old = stagingPlace base directory artifact := by
    rw [stagingPlace, ← hdirectory]
    exact (Memory.place_of_locateNew hold).1
  obtain rfl : new = finalPlace base directory artifact := by
    rw [finalPlace, ← hdirectory]
    exact (Memory.place_of_locateNew hnew).1
  exact ⟨content, hfile, hfree, between, hremoved, hput⟩

/-- What a move does to the places of an artifact and to all others. -/
theorem Layout.view_of_rename (h : Layout base directory (artifact :: staged) moved gone memory)
    (hself : stagingPlace base directory artifact ≠ finalPlace base directory artifact)
    (hrename : memory.rename (temporaryOf directory artifact) (finalOf directory artifact) =
      .ok after) :
    memory.Keeps after ∧
      after.view (finalPlace base directory artifact) = some (.file artifact.2) ∧
      after.view (stagingPlace base directory artifact) = none ∧
      ∀ place, place ≠ stagingPlace base directory artifact →
        place ≠ finalPlace base directory artifact → after.view place = memory.view place := by
  obtain ⟨-, hfile⟩ := h.isStaged artifact List.mem_cons_self
  obtain ⟨content, hcontent, hfree, between, hremoved, hput⟩ :=
    updated_of_move h.workingDirectory hrename
  obtain rfl : content = artifact.2 := by
    rw [hfile] at hcontent
    cases hcontent
    rfl
  have hfreeStill : between.view (finalPlace base directory artifact) ≠ some .directory := by
    rw [hremoved.view_of_ne hself.symm]
    exact hfree
  refine ⟨(hremoved.keeps (by simp [hfile])).trans (hput.keeps hfreeStill), hput.view_self, ?_,
    fun place hne hne' => ?_⟩
  · rw [hput.view_of_ne hself, hremoved.view_self]
  · rw [hput.view_of_ne hne', hremoved.view_of_ne hne]

/-- A staged artifact is moved to its place. -/
theorem Layout.rename (h : Layout base directory (artifact :: staged) moved gone memory)
    (hstaged : ∀ a ∈ staged, stagingPlace base directory a ≠
      stagingPlace base directory artifact)
    (hmoved : ∀ a ∈ moved, finalPlace base directory a ≠
      stagingPlace base directory artifact)
    (hfinal : ∀ a ∈ moved, finalPlace base directory a ≠
      finalPlace base directory artifact)
    (hcrossed : ∀ a ∈ artifact :: (staged ++ gone),
      stagingPlace base directory a ≠
        finalPlace base directory artifact)
    (hrename : memory.rename (temporaryOf directory artifact) (finalOf directory artifact) =
      .ok after) :
    Layout base directory staged (moved ++ [artifact]) (gone ++ [artifact]) after := by
  obtain ⟨hkeeps, hnew, hold, elsewhere⟩ :=
    h.view_of_rename (hcrossed artifact List.mem_cons_self) hrename
  refine ⟨h.keeps.trans hkeeps, fun a ha => ?_, fun a ha => ?_, fun a ha => ?_,
    fun place hother hplace => ?_⟩
  · obtain ⟨hfound, hview⟩ := h.isStaged a (List.mem_cons_of_mem _ ha)
    refine ⟨Memory.locateNew_of_keeps hkeeps hfound, ?_⟩
    rw [elsewhere _ (hstaged a ha) (hcrossed a (by simp [ha])), hview]
  · rcases List.mem_append.mp ha with ha | ha
    · rw [elsewhere _ (hmoved a ha) (hfinal a ha), h.isMoved a ha]
    · rw [List.mem_singleton.mp ha, hnew]
  · rcases List.mem_append.mp ha with ha | ha
    · by_cases hsame : stagingPlace base directory a = stagingPlace base directory artifact
      · rw [hsame, hold]
      · rw [elsewhere _ hsame (hcrossed a (by simp [ha])), h.isGone a ha]
    · rw [List.mem_singleton.mp ha, hold]
  · rw [elsewhere place (hother artifact (by simp)) (hplace artifact (by simp))]
    exact h.others place (fun a ha => hother a (mem_staged_or_gone ha))
      fun a ha => hplace a (List.mem_append_left _ ha)

/-! ### The loops -/

section Runs

variable {σ : Type} {disk : Disk (StateM σ)} {view : σ → Memory} {state : σ}

theorem run_bind {α β : Type} (action : StateM σ α) (next : α → StateM σ β) (state : σ) :
    (action >>= next) state = next (action state).1 (action state).2 := rfl

theorem discard_cons (disk : Disk (StateM σ)) (artifact : Staged) (rest : List Staged) (state : σ) :
    discard disk (artifact :: rest) state =
      discard disk rest (disk.remove artifact.temporary state).2 := rfl

theorem stage_cons (disk : Disk (StateM σ)) (directory : Path) (artifact : String × String)
    (rest : List (String × String)) (staged : List Staged) (state : σ) :
    stage disk directory (artifact :: rest) staged state =
      match disk.write (temporaryOf directory artifact) artifact.2 state with
      | (.error error, state) =>
        (.error (.stage (temporaryOf directory artifact) error), (discard disk staged state).2)
      | (.ok (), state) => stage disk directory rest (staged ++ [stagedOf directory artifact]) state := by
  obtain ⟨name, text⟩ := artifact
  refine (run_bind (disk.write (temporaryOf directory (name, text)) text) _ state).trans ?_
  cases disk.write (temporaryOf directory (name, text)) text state with
  | mk result state => cases result <;> rfl

theorem place_cons (disk : Disk (StateM σ)) (artifact : Staged) (rest : List Staged) (state : σ) :
    place disk (artifact :: rest) state =
      match disk.rename artifact.temporary artifact.final state with
      | (.error error, state) =>
        (.error (.place artifact.final error), (discard disk (artifact :: rest) state).2)
      | (.ok (), state) => place disk rest state := by
  refine (run_bind (disk.rename artifact.temporary artifact.final) _ state).trans ?_
  cases disk.rename artifact.temporary artifact.final state with
  | mk result state => cases result <;> rfl

/-- The first artifact is not staged, which changes nothing, and all that is staged is removed; or it
is staged, and the others follow. -/
theorem stage_cases (hdisk : disk.Atomic view) (directory : Path) (artifact : String × String)
    (rest : List (String × String)) (staged : List Staged) (state : σ) :
    (∃ error next, view next = view state ∧
      stage disk directory (artifact :: rest) staged state =
        (.error (.stage (temporaryOf directory artifact) error), (discard disk staged next).2)) ∨
      ∃ next, (view state).write (temporaryOf directory artifact) artifact.2 = .ok (view next) ∧
        stage disk directory (artifact :: rest) staged state =
          stage disk directory rest (staged ++ [stagedOf directory artifact]) next := by
  have hwrite := hdisk.write (temporaryOf directory artifact) artifact.2 state
  rw [stage_cons]
  generalize disk.write (temporaryOf directory artifact) artifact.2 state = run at hwrite ⊢
  obtain ⟨result, next⟩ := run
  rcases hwrite with ⟨error, rfl, hsame⟩ | ⟨rfl, hafter⟩
  · exact .inl ⟨error, next, hsame, rfl⟩
  · exact .inr ⟨next, hafter, rfl⟩

/-- The first artifact is not moved, which changes nothing, and it is removed with the others; or it is
moved, and the others follow. -/
theorem place_cases (hdisk : disk.Atomic view) (directory : Path) (artifact : String × String)
    (rest : List (String × String)) (state : σ) :
    (∃ error next, view next = view state ∧
      place disk ((artifact :: rest).map (stagedOf directory)) state =
        (.error (.place (finalOf directory artifact) error),
          (discard disk ((artifact :: rest).map (stagedOf directory)) next).2)) ∨
      ∃ next, (view state).rename (temporaryOf directory artifact) (finalOf directory artifact) =
          .ok (view next) ∧
        place disk ((artifact :: rest).map (stagedOf directory)) state =
          place disk (rest.map (stagedOf directory)) next := by
  have hrename := hdisk.rename (stagedOf directory artifact).temporary
    (stagedOf directory artifact).final state
  rw [List.map_cons, place_cons]
  generalize disk.rename (stagedOf directory artifact).temporary
    (stagedOf directory artifact).final state = run at hrename ⊢
  obtain ⟨result, next⟩ := run
  rcases hrename with ⟨error, rfl, hsame⟩ | ⟨rfl, hafter⟩
  · exact .inl ⟨error, next, hsame, rfl⟩
  · exact .inr ⟨next, hafter, rfl⟩

theorem writeUnit_eq (disk : Disk (StateM σ)) (options : Options) (unit : CompilationUnit)
    (state : σ) :
    writeUnit disk options unit state =
      match disk.createDirectories (unitDirectory options.output unit.source) state with
      | (.error error, state) =>
        (.error (.directory (unitDirectory options.output unit.source) error), state)
      | (.ok (), state) =>
        match stage disk (unitDirectory options.output unit.source) (artifacts options unit) []
            state with
        | (.error error, state) => (.error error, state)
        | (.ok staged, state) => match place disk staged state with
          | (.error error, state) => (.error error, state)
          | (.ok (), state) => (.ok (staged.map Staged.final), state) := by
  rw [writeUnit]
  generalize unitDirectory options.output unit.source = directory
  refine (run_bind (disk.createDirectories directory) _ state).trans ?_
  cases disk.createDirectories directory state with
  | mk result state =>
    cases result with
    | error error => rfl
    | ok =>
      refine (run_bind (stage disk directory (artifacts options unit) []) _ state).trans ?_
      dsimp only
      cases stage disk directory (artifacts options unit) [] state with
      | mk result state =>
        cases result with
        | error error => rfl
        | ok staged =>
          refine (run_bind (place disk staged) _ state).trans ?_
          dsimp only
          cases place disk staged state with
          | mk result state => cases result <;> rfl

/-- All that is staged is removed. -/
theorem Layout.discard (hdisk : disk.Atomic view)
    (h : Layout base directory staged moved gone (view state))
    (hstaged : staged.Pairwise fun a b =>
      stagingPlace base directory a ≠ stagingPlace base directory b)
    (hmoved : ∀ a ∈ staged, ∀ b ∈ moved,
      stagingPlace base directory a ≠ finalPlace base directory b) :
    Layout base directory [] moved (gone ++ staged)
      (view (discard disk (staged.map (stagedOf directory)) state).2) := by
  induction staged generalizing gone state with
  | nil =>
    rw [List.append_nil]
    exact h
  | cons artifact rest ih =>
    obtain ⟨hfirst, hrest⟩ := List.pairwise_cons.mp hstaged
    obtain ⟨after, hremove, hafter⟩ := h.remove (fun a ha => (hfirst a ha).symm)
      fun a ha => (hmoved artifact List.mem_cons_self a ha).symm
    rw [List.map_cons, discard_cons, List.append_cons]
    refine ih ?_ hrest fun a ha => hmoved a (List.mem_cons_of_mem _ ha)
    have hmemory : view (disk.remove (stagedOf directory artifact).temporary state).2 = after :=
      hdisk.memory_remove hremove
    rw [hmemory]
    exact hafter

/-- All artifacts are staged, or those before the first that is not are removed again. -/
theorem Layout.stage (hdisk : disk.Atomic view)
    (h : Layout base directory staged [] [] (view state))
    (hapart : (staged ++ waiting).Pairwise fun a b =>
      stagingPlace base directory a ≠ stagingPlace base directory b) :
    let run := stage disk directory waiting (staged.map (stagedOf directory)) state
    (run.1 = .ok ((staged ++ waiting).map (stagedOf directory)) ∧
        Layout base directory (staged ++ waiting) [] [] (view run.2)) ∨
      ∃ done failing behind error, staged ++ waiting = done ++ failing :: behind ∧
        run.1 = .error (.stage (temporaryOf directory failing) error) ∧
        Layout base directory [] [] done (view run.2) := by
  induction waiting generalizing staged state with
  | nil =>
    rw [List.append_nil]
    exact .inl ⟨rfl, h⟩
  | cons artifact rest ih =>
    obtain ⟨hstaged, -, hfresh⟩ := List.pairwise_append.mp hapart
    rcases stage_cases hdisk directory artifact rest (staged.map (stagedOf directory)) state with
      ⟨error, next, hsame, hrun⟩ | ⟨next, hafter, hrun⟩
    · rw [hrun]
      refine .inr ⟨staged, artifact, rest, error, rfl, rfl, ?_⟩
      rw [← hsame] at h
      exact h.discard hdisk hstaged (by simp)
    · have hnext := h.write (fun a ha => hfresh a ha artifact List.mem_cons_self) hafter
      have hsplit := List.append_cons staged artifact rest
      rw [hsplit] at hapart ⊢
      rw [hrun, show [stagedOf directory artifact] = [artifact].map (stagedOf directory) from rfl,
        ← List.map_append]
      exact ih hnext hapart

/-- All artifacts are moved, or the first that is not and those behind it are removed. -/
theorem Layout.place (hdisk : disk.Atomic view)
    (h : Layout base directory waiting moved moved (view state))
    (hapart : Apart base directory (moved ++ waiting)) :
    let run := place disk (waiting.map (stagedOf directory)) state
    (run.1 = .ok () ∧
        Layout base directory [] (moved ++ waiting) (moved ++ waiting) (view run.2)) ∨
      ∃ done failing behind error, moved ++ waiting = done ++ failing :: behind ∧
        run.1 = .error (.place (finalOf directory failing) error) ∧
        Layout base directory [] done (moved ++ waiting) (view run.2) := by
  induction waiting generalizing moved state with
  | nil =>
    rw [List.append_nil]
    exact .inl ⟨rfl, h⟩
  | cons artifact rest ih =>
    obtain ⟨-, hstaged, -⟩ := List.pairwise_append.mp hapart.staging
    obtain ⟨-, -, hfinal⟩ := List.pairwise_append.mp hapart.final
    have hmoved : ∀ a ∈ artifact :: rest, ∀ b ∈ moved,
        stagingPlace base directory a ≠ finalPlace base directory b :=
      fun a ha b hb => hapart.crossed a (List.mem_append_right _ ha) b (List.mem_append_left _ hb)
    rcases place_cases hdisk directory artifact rest state with
      ⟨error, next, hsame, hrun⟩ | ⟨next, hafter, hrun⟩
    · rw [hrun]
      refine .inr ⟨moved, artifact, rest, error, rfl, rfl, ?_⟩
      rw [← hsame] at h
      exact h.discard hdisk hstaged hmoved
    · have hnext := h.rename (fun a ha => (List.pairwise_cons.mp hstaged).1 a ha |>.symm)
        (fun a ha => (hmoved artifact List.mem_cons_self a ha).symm)
        (fun a ha => hfinal a ha artifact List.mem_cons_self)
        (fun a ha => hapart.crossed a (by simp_all; tauto) artifact (by simp)) hafter
      rw [hrun]
      rw [List.append_cons] at hapart ⊢
      exact ih hnext hapart

end Runs

/-! ### Writing a unit -/

/-- The ways in which writing a unit ends. -/
inductive Outcome (before : Memory) (directory : Path) (all : List (String × String)) :
    Except WriteError (List Path) → Memory → Prop
  /-- There is no directory for the unit. -/
  | noDirectory {after : Memory} (error : DiskError) (hgrows : before.Grows after) :
    Outcome before directory all (.error (.directory directory error)) after
  /-- An artifact is not staged, and those before it are gone. -/
  | notStaged {base after : Memory} {done behind : List (String × String)}
    {failing : String × String} (error : DiskError) (hgrows : before.Grows base)
    (hsplit : all = done ++ failing :: behind)
    (hlayout : Layout base directory [] [] done after) :
    Outcome before directory all (.error (.stage (temporaryOf directory failing) error)) after
  /-- An artifact is not moved, and those before it are in their places. -/
  | notMoved {base after : Memory} {done behind : List (String × String)}
    {failing : String × String} (error : DiskError) (hgrows : before.Grows base)
    (hsplit : all = done ++ failing :: behind)
    (hlayout : Layout base directory [] done all after) :
    Outcome before directory all (.error (.place (finalOf directory failing) error)) after
  /-- All artifacts are in their places. -/
  | written {base after : Memory} (hgrows : before.Grows base)
    (hlayout : Layout base directory [] all all after) :
    Outcome before directory all (.ok (all.map (finalOf directory))) after

theorem Apart.of_keeps (h : Apart memory directory all) (hkeeps : memory.Keeps after) :
    Apart after directory all := by
  obtain ⟨hstaging, hfinal, hcrossed⟩ := h
  constructor <;> simpa only [stagingPlace, finalPlace, hkeeps.workingDirectory]

/-- Writing a unit whose artifacts have places of their own ends in one of these ways, whichever
operations fail. -/
theorem outcome_writeUnit {σ : Type} {disk : Disk (StateM σ)} {view : σ → Memory}
    (hdisk : disk.Atomic view) (options : Options) (unit : CompilationUnit) (state : σ)
    (hapart : Apart (view state) (unitDirectory options.output unit.source)
      (artifacts options unit)) :
    Outcome (view state) (unitDirectory options.output unit.source) (artifacts options unit)
      (writeUnit disk options unit state).1 (view (writeUnit disk options unit state).2) := by
  rw [writeUnit_eq]
  generalize artifacts options unit = all at hapart ⊢
  generalize unitDirectory options.output unit.source = directory at hapart ⊢
  have hgrows := hdisk.grows_createDirectories directory state
  cases hcreate : disk.createDirectories directory state with
  | mk result next =>
    rw [hcreate] at hgrows
    cases result with
    | error error => exact .noDirectory error hgrows
    | ok =>
      have hapart := hapart.of_keeps hgrows.keeps
      have hstaging : ([] ++ all).Pairwise fun a b =>
          stagingPlace (view next) directory a ≠ stagingPlace (view next) directory b :=
        hapart.staging
      have hstage := (Layout.nil (view next) directory).stage hdisk hstaging
      dsimp only at hstage ⊢
      cases hstaged : stage disk directory all [] next with
      | mk result next =>
        rw [List.map_nil, hstaged] at hstage
        rcases hstage with ⟨rfl, hlayout⟩ | ⟨done, failing, behind, error, hsplit, rfl, hlayout⟩
        · have hapart : Apart (view _) directory ([] ++ all) := hapart
          have hplace := hlayout.place hdisk hapart
          dsimp only at hplace ⊢
          rw [List.nil_append] at hplace ⊢
          cases hplaced : place disk (all.map (stagedOf directory)) next with
          | mk result next =>
            rw [hplaced] at hplace
            rcases hplace with ⟨rfl, hlayout⟩ | ⟨done, failing, behind, error, hsplit, rfl, hlayout⟩
            · dsimp only
              rw [List.map_map]
              exact .written hgrows hlayout
            · exact .notMoved error hgrows hsplit hlayout
        · exact .notStaged error hgrows hsplit hlayout

end Generate

end MessageSchema
