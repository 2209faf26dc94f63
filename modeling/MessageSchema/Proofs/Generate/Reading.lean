import MessageSchema.Command.Generate
import MessageSchema.Proofs.Disk.View

/-!
# Actions that only read

To find the paths that arguments stand for, and to load an input, files are read and none is
changed. Expanding a pattern does so in any depth.

## Main definitions

* `Disk.Reads`: an action changes nothing.

## Main results

* `Disk.exists_of_mem_mapM`: what a loop returns comes from its steps.
* `Disk.Reads.bind`, `Disk.Reads.mapM`: actions one after the other.
* `Disk.reads_load`: loading an input.
* `Disk.reads_expandInputs`: finding the paths that arguments stand for.
-/

namespace MessageSchema

namespace Disk

variable {σ α β : Type}

/-- A step of a loop and the steps behind it. -/
theorem run_mapM_cons (f : α → StateM σ β) (a : α) (as : List α) (state : σ) :
    (a :: as).mapM f state = ((f a state).1 :: (as.mapM f (f a state).2).1,
      (as.mapM f (f a state).2).2) := by
  rw [List.mapM_cons]
  rfl

/-- What a loop returns comes from its steps. -/
theorem exists_of_mem_mapM {f : α → StateM σ β} {as : List α} {state : σ} {b : β}
    (h : b ∈ (as.mapM f state).1) : ∃ a ∈ as, ∃ state, b = (f a state).1 := by
  induction as generalizing state with
  | nil => cases h
  | cons a as ih =>
    rw [run_mapM_cons] at h
    rcases List.mem_cons.mp h with rfl | h
    · exact ⟨a, List.mem_cons_self, state, rfl⟩
    · obtain ⟨other, hother, hb⟩ := ih h
      exact ⟨other, List.mem_cons_of_mem _ hother, hb⟩

/-- An action changes nothing. -/
def Reads (action : StateM σ α) : Prop :=
  ∀ state, (action state).2 = state

theorem Reads.pure (a : α) : Reads (pure a : StateM σ α) :=
  fun _ => rfl

theorem Reads.bind {action : StateM σ α} {next : α → StateM σ β} (h : Reads action)
    (hnext : ∀ a, Reads (next a)) : Reads (action >>= next) :=
  fun state => (hnext _ _).trans (h state)

theorem Reads.ite {action other : StateM σ α} {c : Prop} [Decidable c] (h : Reads action)
    (h' : Reads other) : Reads (if c then action else other) := by
  split_ifs
  · exact h
  · exact h'

theorem Reads.mapM {f : α → StateM σ β} (h : ∀ a, Reads (f a)) (as : List α) :
    Reads (as.mapM f) := by
  induction as with
  | nil => exact .pure []
  | cons a as ih =>
    intro state
    rw [run_mapM_cons, ih, h]

theorem reads_isDirectory (path : Path) : Reads (Memory.disk.isDirectory path) :=
  fun _ => rfl

theorem reads_isThere (path : Path) : Reads (Memory.disk.isThere path) :=
  fun _ => rfl

theorem reads_read (path : Path) : Reads (Memory.disk.read path) :=
  fun _ => rfl

theorem reads_entries (path : Path) : Reads (Memory.disk.entries path) :=
  fun _ => rfl

/-! ### Loading -/

theorem reads_detect (path : Path) : Reads (Format.detect Memory.disk path) := by
  rw [Format.detect]
  split
  · exact .pure _
  · exact .pure _
  · exact (reads_read path).bind fun _ => .pure _
  · exact .pure _

theorem reads_load (path : Path) : Reads (Input.load Memory.disk path) := by
  refine (reads_isThere path).bind fun isThere => .ite (.pure _) ?_
  refine (reads_detect path).bind fun format => ?_
  cases format with
  | none => exact .pure _
  | some format =>
    refine (reads_read path).bind fun result => ?_
    cases result <;> exact .pure _

/-! ### Expanding -/

variable {onlyDirectories : Bool} {fuel : ℕ}

theorem reads_found (path : Path) : Reads (Glob.found Memory.disk onlyDirectories path) :=
  .ite (.pure _) ((reads_isDirectory path).bind fun _ => .pure _)

theorem reads_below_succ
    (hbelow : ∀ patterns path, Reads (Glob.below Memory.disk onlyDirectories fuel patterns path))
    (hentry : ∀ pattern rest name path,
      Reads (Glob.entry Memory.disk onlyDirectories fuel pattern rest name path))
    (patterns : List Glob.Pattern) (path : Path) :
    Reads (Glob.below Memory.disk onlyDirectories (fuel + 1) patterns path) := by
  cases patterns with
  | nil =>
    rw [Glob.below]
    · exact .pure _
    · simp
  | cons pattern rest =>
    have hfurther (next : Path) : Reads (if rest.isEmpty then
        Glob.found Memory.disk onlyDirectories next
        else Glob.below Memory.disk onlyDirectories fuel rest next) :=
      .ite (reads_found next) (hbelow rest next)
    rw [Glob.below]
    refine (reads_isDirectory path).bind fun isDirectory => ?_
    split
    · exact .ite ((Reads.pure _).bind fun _ => .ite (hfurther _) (.pure _))
        ((reads_isThere _).bind fun _ => .ite (hfurther _) (.pure _))
    · refine .ite (.pure _) ((reads_entries path).bind fun names => ?_)
      cases names with
      | error error => exact .pure _
      | ok names =>
        refine (Reads.mapM (fun name => hfurther _) _).bind fun special => ?_
        exact (Reads.mapM (fun name => hentry _ _ _ _) _).bind fun others => .pure _

theorem reads_entry_succ
    (hbelow : ∀ patterns path, Reads (Glob.below Memory.disk onlyDirectories fuel patterns path))
    (pattern : Glob.Pattern) (rest : List Glob.Pattern) (name : String) (path : Path) :
    Reads (Glob.entry Memory.disk onlyDirectories (fuel + 1) pattern rest name path) := by
  have hnamed (pattern : Glob.Pattern) (rest : List Glob.Pattern) : Reads (
      if !pattern.accepts name then pure (.ok [])
      else if rest.isEmpty then Glob.found Memory.disk onlyDirectories path
      else Glob.below Memory.disk onlyDirectories fuel rest path) :=
    .ite (.pure _) (.ite (reads_found path) (hbelow rest path))
  rw [Glob.entry]
  refine .ite (hnamed pattern rest) ((reads_isDirectory path).bind fun isDirectory => ?_)
  refine .ite ((hbelow _ path).bind fun inside => ?_) ((Reads.pure _).bind fun inside => ?_)
  all_goals
    dsimp only
    split
    · exact (Reads.pure _).bind fun _ => .pure _
    · exact (hnamed _ _).bind fun _ => .pure _

theorem reads_below_and_entry (onlyDirectories : Bool) (fuel : ℕ) :
    (∀ patterns path, Reads (Glob.below Memory.disk onlyDirectories fuel patterns path)) ∧
      ∀ pattern rest name path,
        Reads (Glob.entry Memory.disk onlyDirectories fuel pattern rest name path) := by
  induction fuel with
  | zero =>
    refine ⟨fun patterns path => ?_, fun pattern rest name path => ?_⟩
    · rw [Glob.below]
      exact .pure _
    · rw [Glob.entry]
      exact .pure _
  | succ fuel ih =>
    exact ⟨reads_below_succ ih.1 ih.2, reads_entry_succ ih.1⟩

theorem reads_expand (text : String) : Reads (Glob.expand Memory.disk text) := by
  rw [Glob.expand]
  dsimp only
  split
  · exact .pure _
  · exact (reads_below_and_entry _ _).1 _ _

theorem reads_expandInput (argument : String) :
    Reads (Generate.expandInput Memory.disk argument) := by
  rw [Generate.expandInput]
  split
  · exact .pure _
  · refine (reads_expand argument).bind fun result => ?_
    split <;> exact .pure _

theorem reads_expandInputs (arguments : List String) :
    Reads (Generate.expandInputs Memory.disk arguments) := by
  induction arguments with
  | nil => exact .pure _
  | cons argument rest ih =>
    refine (reads_expandInput argument).bind fun result => ?_
    cases result with
    | error error => exact .pure _
    | ok paths => exact ih.bind fun _ => .pure _

end Disk

end MessageSchema
