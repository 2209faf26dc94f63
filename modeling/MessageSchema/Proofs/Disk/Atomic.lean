import MessageSchema.Proofs.Disk.Place

/-!
# Operations that succeed or change nothing

Each operation of a disk that changes files ends in one of two ways: the files change as the files in
memory would, or it fails and nothing changes, whatever the reason of the failure. Removing a file
that is there is taken to succeed. Files in memory are such a disk, also with faults put in anywhere.

## Main definitions

* `Memory.Updated`: a change at one place.
* `Memory.Grows`: directories are added where nothing was.
* `Disk.Atomic`: operations succeed or change nothing.
* `Memory.faultyDisk`: files in memory with operations that fail for reasons of their own.

## Main results

* `Memory.updated_of_write`, `Memory.updated_of_rename`, `Memory.exists_updated_of_remove`,
  `Memory.updated_of_createDirectory`: what the operations do.
* `Disk.Atomic.grows_createDirectories`: creating directories touches no file.
* `Memory.atomic_disk`, `Memory.atomic_faultyDisk`: the disks of files in memory.
-/

namespace MessageSchema

namespace Memory

open FileTree (Entry)

variable {before after third : Memory} {path source target : Path} {place other : List String}
  {entry : Option Entry} {content : String}

/-! ### Changes at one place -/

/-- One place changes, and nothing else. -/
structure Updated (before : Memory) (place : List String) (entry : Option Entry)
    (after : Memory) : Prop where
  workingDirectory : after.workingDirectory = before.workingDirectory
  view : ∀ other, after.view other = if other = place then entry else before.view other

theorem Updated.view_self (h : before.Updated place entry after) : after.view place = entry := by
  rw [h.view, if_pos rfl]

theorem Updated.view_of_ne (h : before.Updated place entry after) (hne : other ≠ place) :
    after.view other = before.view other := by
  rw [h.view, if_neg hne]

/-- Where no directory stood, a change takes no directory away. -/
theorem Updated.keeps (h : before.Updated place entry after)
    (hold : before.view place ≠ some .directory) : before.Keeps after := by
  refine ⟨h.workingDirectory, fun other hother => ?_⟩
  rw [h.view_of_ne (fun heq => hold (heq ▸ hother)), hother]

theorem updated_put_some (tree : FileTree) (hbare : tree.Bare)
    (hinside : ∃ outer name, place = outer ++ [name] ∧ before.view outer = some .directory)
    (hold : before.view place ≠ some .directory) :
    before.Updated place (some tree.entry) (before.put (some tree) place) := by
  obtain ⟨outer, name, rfl, houter⟩ := hinside
  refine ⟨rfl, view_put (fun inner hinner => ?_) houter hold⟩
  cases hinner
  exact hbare

theorem updated_put_none
    (hinside : ∃ outer name, place = outer ++ [name] ∧ before.view outer = some .directory)
    (hold : before.view place ≠ some .directory) :
    before.Updated place none (before.put none place) := by
  obtain ⟨outer, name, rfl, houter⟩ := hinside
  exact ⟨rfl, view_put nofun houter hold⟩

/-- A file is written at the place of its path. -/
theorem updated_of_write (h : before.write path content = .ok after) :
    ∃ place, before.locateNew path = .ok (some place) ∧ before.view place ≠ some .directory ∧
      before.Updated place (some (.file content)) after := by
  obtain ⟨found, hfound, h⟩ := Except.bind_eq_ok.mp h
  cases found with
  | none => cases h
  | some place =>
    obtain ⟨⟨⟩, hcheck, h⟩ := Except.bind_eq_ok.mp h
    cases h
    have hold := checkFile_eq_ok_iff.mp hcheck
    refine ⟨place, hfound, hold, ?_⟩
    exact updated_put_some (.file content) trivial (place_of_locateNew hfound).2 hold

/-- A directory is created at the place of its path, where nothing was. -/
theorem updated_of_createDirectory (h : before.createDirectory path = .ok after) :
    ∃ place, before.view place = none ∧ before.Updated place (some .directory) after := by
  obtain ⟨found, hfound, h⟩ := Except.bind_eq_ok.mp h
  cases found with
  | none => cases h
  | some place =>
    dsimp only at h
    split_ifs at h with hthere
    cases h
    have hnothing : before.view place = none := by
      rw [← at?_eq_none_iff]
      simpa using hthere
    refine ⟨place, hnothing, ?_⟩
    have hold : before.view place ≠ some .directory := by simp [hnothing]
    exact updated_put_some (.directory []) rfl (place_of_locateNew hfound).2 hold

/-- A file is taken from the place of one path to that of another. -/
theorem updated_of_rename (h : before.rename source target = .ok after) :
    ∃ old new content, before.locateNew source = .ok (some old) ∧
      before.locateNew target = .ok (some new) ∧ before.view old = some (.file content) ∧
      before.view new ≠ some .directory ∧
      ∃ between, before.Updated old none between ∧
        between.Updated new (some (.file content)) after := by
  obtain ⟨foundOld, hfoundOld, h⟩ := Except.bind_eq_ok.mp h
  obtain ⟨foundNew, hfoundNew, h⟩ := Except.bind_eq_ok.mp h
  cases foundOld with
  | none => cases h
  | some old =>
    cases foundNew with
    | none => cases h
    | some new =>
      obtain ⟨⟨⟩, hcheckOld, h⟩ := Except.bind_eq_ok.mp h
      have hold := checkFile_eq_ok_iff.mp hcheckOld
      cases hthere : before.root.at? old with
      | none =>
        rw [hthere] at h
        cases h
      | some tree =>
        rw [hthere] at h
        obtain ⟨⟨⟩, hcheckNew, h⟩ := Except.bind_eq_ok.mp h
        cases h
        have hnew := checkFile_eq_ok_iff.mp hcheckNew
        have hview : before.view old = some tree.entry := by
          rw [view, FileTree.view, hthere]
          rfl
        cases tree with
        | directory => exact absurd hview hold
        | file content =>
          have hremoved : before.Updated old none (before.put none old) :=
            updated_put_none (place_of_locateNew hfoundOld).2 hold
          have hkeeps := hremoved.keeps hold
          refine ⟨old, new, content, hfoundOld, hfoundNew, hview, hnew, _, hremoved, ?_⟩
          have hstill : (before.put none old).view new ≠ some .directory := by
            rw [hremoved.view]
            split_ifs
            · simp
            · exact hnew
          obtain ⟨outer, name, hplace, houter⟩ := (place_of_locateNew hfoundNew).2
          exact updated_put_some (.file content) trivial
            ⟨outer, name, hplace, hkeeps.directories outer houter⟩ hstill

/-- A file that is there is removed from the place of its path. -/
theorem exists_updated_of_remove (hlast : path.pieces.getLast? ≠ some "")
    (hplace : before.locateNew path = .ok (some place))
    (hfile : before.view place = some (.file content)) :
    ∃ after, before.remove path = .ok after ∧ before.Updated place none after := by
  have hold : before.view place ≠ some .directory := by simp [hfile]
  refine ⟨before.put none place, ?_, updated_put_none (place_of_locateNew hplace).2 hold⟩
  refine Except.bind_eq_ok.mpr ⟨place, locate_of_locateNew hlast hplace, ?_⟩
  refine Except.bind_eq_ok.mpr ⟨(), checkFile_eq_ok_iff.mpr hold, ?_⟩
  rw [at?_of_view_file hfile]
  rfl

/-! ### Directories that are added -/

/-- Directories are added where nothing was. -/
structure Grows (before after : Memory) : Prop where
  keeps : before.Keeps after
  view : ∀ place, after.view place = before.view place ∨
    before.view place = none ∧ after.view place = some .directory

theorem Grows.refl (memory : Memory) : memory.Grows memory :=
  ⟨.refl memory, fun _ => .inl rfl⟩

theorem Grows.trans (h : before.Grows after) (h' : after.Grows third) : before.Grows third := by
  refine ⟨h.keeps.trans h'.keeps, fun place => ?_⟩
  rcases h'.view place with hsame | ⟨hnone, hadded⟩
  · rw [hsame]
    exact h.view place
  · rcases h.view place with hsame | ⟨-, hbetween⟩
    · exact .inr ⟨hsame ▸ hnone, hadded⟩
    · rw [hbetween] at hnone
      cases hnone

theorem Updated.grows (h : before.Updated place (some .directory) after)
    (hnothing : before.view place = none) : before.Grows after := by
  refine ⟨h.keeps (by simp [hnothing]), fun other => ?_⟩
  by_cases hother : other = place
  · exact .inr ⟨hother ▸ hnothing, hother ▸ h.view_self⟩
  · exact .inl (h.view_of_ne hother)

/-- Every file stays as it is. -/
theorem Grows.content? (h : before.Grows after) (place : List String) :
    after.content? place = before.content? place := by
  rcases h.view place with hsame | ⟨hnone, hadded⟩
  · exact content?_eq_of_view_eq hsame
  · rw [Memory.content?, hadded, content?_of_nothing hnone]

end Memory

/-! ### Disks -/

namespace Disk

variable {σ : Type}

/-- An action makes a change of the files, or fails and changes nothing. -/
def Changes (memory : σ → Memory) (change : Memory → Except DiskError Memory)
    (action : StateM σ (Except DiskError Unit)) : Prop :=
  ∀ state, (∃ error, (action state).1 = .error error ∧ memory (action state).2 = memory state) ∨
    ((action state).1 = .ok () ∧ change (memory state) = .ok (memory (action state).2))

/-- Operations succeed or change nothing, and files that are there can be removed. -/
structure Atomic (disk : Disk (StateM σ)) (memory : σ → Memory) : Prop where
  isDirectory : ∀ path state, memory (disk.isDirectory path state).2 = memory state
  createDirectory : ∀ path, Changes memory (·.createDirectory path) (disk.createDirectory path)
  write : ∀ path content, Changes memory (·.write path content) (disk.write path content)
  rename : ∀ source target, Changes memory (·.rename source target) (disk.rename source target)
  remove : ∀ path, Changes memory (·.remove path) (disk.remove path)
  removes : ∀ path state after, (memory state).remove path = .ok after →
    (disk.remove path state).1 = .ok ()

namespace Atomic

variable {disk : Disk (StateM σ)} {memory : σ → Memory}

/-- Removing a file that can be removed in memory removes it. -/
theorem memory_remove (h : disk.Atomic memory) {path : Path} {state : σ} {after : Memory}
    (hremove : (memory state).remove path = .ok after) :
    memory (disk.remove path state).2 = after := by
  have hok := h.removes path state after hremove
  rcases h.remove path state with ⟨error, herror, -⟩ | ⟨-, hafter⟩
  · rw [hok] at herror
    cases herror
  · exact Except.ok.inj (hafter.symm.trans hremove)

/-! ### Creating directories -/

/-- Whatever happens, directories are added at most. -/
def OnlyGrows (memory : σ → Memory) {α : Type} (action : StateM σ α) : Prop :=
  ∀ state, (memory state).Grows (memory (action state).2)

theorem onlyGrows_pure {α : Type} (a : α) : OnlyGrows memory (pure a : StateM σ α) :=
  fun _ => .refl _

theorem OnlyGrows.bind {α β : Type} {action : StateM σ α} {next : α → StateM σ β}
    (h : OnlyGrows memory action) (hnext : ∀ a, OnlyGrows memory (next a)) :
    OnlyGrows memory (action >>= next) :=
  fun state => (h state).trans (hnext (action state).1 (action state).2)

theorem onlyGrows_isDirectory (h : disk.Atomic memory) (path : Path) :
    OnlyGrows memory (disk.isDirectory path) := by
  intro state
  rw [h.isDirectory]
  exact .refl _

theorem onlyGrows_createDirectory (h : disk.Atomic memory) (path : Path) :
    OnlyGrows memory (disk.createDirectory path) := by
  intro state
  rcases h.createDirectory path state with ⟨error, -, hsame⟩ | ⟨-, hafter⟩
  · rw [hsame]
    exact .refl _
  · obtain ⟨place, hnothing, hupdated⟩ := Memory.updated_of_createDirectory hafter
    exact hupdated.grows hnothing

theorem onlyGrows_ensureDirectory (h : disk.Atomic memory) (path : Path) :
    OnlyGrows memory (disk.ensureDirectory path) := by
  refine (onlyGrows_createDirectory h path).bind fun result => ?_
  cases result with
  | ok => exact onlyGrows_pure _
  | error error => exact (onlyGrows_isDirectory h path).bind fun there => onlyGrows_pure _

theorem onlyGrows_createDirectoriesWithin (h : disk.Atomic memory) (levels : ℕ) (path : Path) :
    OnlyGrows memory (disk.createDirectoriesWithin levels path) := by
  induction levels generalizing path with
  | zero => exact onlyGrows_pure _
  | succ levels ih =>
    rw [createDirectoriesWithin]
    split_ifs
    · exact onlyGrows_pure _
    · refine (onlyGrows_ensureDirectory h path).bind fun result => ?_
      split
      · cases path.parent? with
        | none => exact onlyGrows_pure _
        | some parent =>
          refine (ih parent).bind fun outer => ?_
          cases outer with
          | ok => exact onlyGrows_ensureDirectory h path
          | error error => exact onlyGrows_pure _
      · exact onlyGrows_pure _

/-- Creating directories touches no file, whether it succeeds or not. -/
theorem grows_createDirectories (h : disk.Atomic memory) (path : Path) (state : σ) :
    (memory state).Grows (memory (disk.createDirectories path state).2) :=
  onlyGrows_createDirectoriesWithin h _ path state

end Atomic

end Disk

namespace Memory

/-! ### Disks of files in memory -/

theorem changes_change (result : Memory → Except DiskError Memory) :
    Disk.Changes id result (change result) := by
  intro memory
  rw [change]
  cases hresult : result memory with
  | ok after => exact .inr ⟨rfl, hresult⟩
  | error error => exact .inl ⟨error, rfl, rfl⟩

theorem atomic_disk : disk.Atomic id where
  isDirectory _ _ := rfl
  createDirectory _ := changes_change _
  write _ _ := changes_change _
  rename _ _ := changes_change _
  remove _ := changes_change _
  removes path memory after h := by
    have hremove : memory.remove path = .ok after := h
    change (change (·.remove path) memory).1 = .ok ()
    rw [change, hremove]

/-- A change of the files that fails where a list of faults has one for it. The changes are
counted. -/
def attempt (faults : ℕ → Option DiskError) (result : Memory → Except DiskError Memory) :
    StateM (Memory × ℕ) (Except DiskError Unit) :=
  fun (memory, count) => match faults count with
    | some error => (.error error, memory, count + 1)
    | none => match result memory with
      | .ok changed => (.ok (), changed, count + 1)
      | .error error => (.error error, memory, count + 1)

/-- The operations on files in memory, with faults for all that change files but for the removal of
a file. -/
def faultyDisk (faults : ℕ → Option DiskError) : Disk (StateM (Memory × ℕ)) where
  isThere path := return ((← get).1.find path).toOption.isSome
  isDirectory path := return (← get).1.isDirectory path
  read path := return (← get).1.read path
  entries path := return (← get).1.entries path
  createDirectory path := attempt faults (·.createDirectory path)
  write path content := attempt faults (·.write path content)
  rename source target := attempt faults (·.rename source target)
  remove path := attempt (fun _ => none) (·.remove path)

theorem changes_attempt (faults : ℕ → Option DiskError)
    (result : Memory → Except DiskError Memory) :
    Disk.Changes Prod.fst result (attempt faults result) := by
  rintro ⟨memory, count⟩
  cases hfault : faults count with
  | some error =>
    have hrun : attempt faults result (memory, count) = (.error error, memory, count + 1) := by
      rw [attempt, hfault]
    exact .inl ⟨error, by rw [hrun], by rw [hrun]⟩
  | none =>
    cases hresult : result memory with
    | ok after =>
      have hrun : attempt faults result (memory, count) = (.ok (), after, count + 1) := by
        rw [attempt, hfault, hresult]
      exact .inr ⟨by rw [hrun], by rw [hrun]⟩
    | error error =>
      have hrun : attempt faults result (memory, count) = (.error error, memory, count + 1) := by
        rw [attempt, hfault, hresult]
      exact .inl ⟨error, by rw [hrun], by rw [hrun]⟩

theorem atomic_faultyDisk (faults : ℕ → Option DiskError) : (faultyDisk faults).Atomic Prod.fst where
  isDirectory _ _ := rfl
  createDirectory _ := changes_attempt faults _
  write _ _ := changes_attempt faults _
  rename _ _ := changes_attempt faults _
  remove _ := changes_attempt _ _
  removes path state after h := by
    change (attempt (fun _ => none) (·.remove path) state).1 = .ok ()
    rw [attempt, h]

end Memory

end MessageSchema
