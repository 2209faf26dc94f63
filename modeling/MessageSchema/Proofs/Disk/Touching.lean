import MessageSchema.Proofs.Disk.Atomic

/-!
# What an action can touch

An action that runs operations on some paths changes no file but those at the places of these paths.
That is put together from its operations, whichever of them fail.

## Main definitions

* `Disk.Touches`: an action changes files at the places of some paths only.

## Main results

* `Disk.Touches.bind`: actions one after the other.
* `Disk.Atomic.touches_write`, `Disk.Atomic.touches_rename`, `Disk.Atomic.touches_remove`,
  `Disk.Atomic.touches_createDirectories`: the operations.
-/

namespace MessageSchema

namespace FileTree

/-- What something stands in is a directory. -/
theorem view_outer {tree : FileTree} {outer : List String} {name : String}
    (h : tree.view (outer ++ [name]) ≠ none) : tree.view outer = some .directory := by
  induction outer generalizing tree with
  | nil =>
    cases tree with
    | file => exact absurd rfl h
    | directory => rfl
  | cons first outer ih =>
    cases tree with
    | file => exact absurd rfl h
    | directory entries =>
      rw [List.cons_append, view_directory_cons] at h
      rw [view_directory_cons]
      cases hinner : Dictionary.get? first entries with
      | none => exact absurd (by rw [hinner]; rfl) h
      | some inner =>
        rw [hinner] at h
        exact ih h

end FileTree

namespace Memory

/-- Removing a file changes what stands at the place of its path, and nothing else. -/
theorem view_of_remove {before after : Memory} {path : Path} (h : before.remove path = .ok after) :
    after.workingDirectory = before.workingDirectory ∧
      ∀ other, other ≠ path.place before.workingDirectory → after.view other = before.view other := by
  obtain ⟨place, hplace, h⟩ := Except.bind_eq_ok.mp h
  obtain ⟨⟨⟩, hcheck, h⟩ := Except.bind_eq_ok.mp h
  split_ifs at h with hthere
  cases h
  rw [← place_of_locate hplace]
  rcases List.eq_nil_or_concat place with rfl | ⟨outer, name, rfl⟩
  · refine ⟨rfl, fun other _ => ?_⟩
    rw [put, view, FileTree.replace]
    · rfl
    all_goals simp
  · rw [List.concat_eq_append] at *
    have hsome : before.view (outer ++ [name]) ≠ none := by
      rw [ne_eq, ← at?_eq_none_iff]
      exact Option.ne_none_iff_isSome.mpr hthere
    have hupdated := updated_put_none ⟨outer, name, rfl, FileTree.view_outer hsome⟩
      (checkFile_eq_ok_iff.mp hcheck)
    exact ⟨rfl, fun other hother => hupdated.view_of_ne hother⟩

end Memory

namespace Disk

variable {σ α β : Type} {memory : σ → Memory} {paths : List Path}

/-- An action changes no file but those at the places of some paths, and its value is one of
some. -/
def Touches (memory : σ → Memory) (paths : List Path) (action : StateM σ α) (ensures : α → Prop) :
    Prop :=
  ∀ state, ensures (action state).1 ∧
    (memory (action state).2).workingDirectory = (memory state).workingDirectory ∧
    ∀ place, (∀ path ∈ paths, place ≠ path.place (memory state).workingDirectory) →
      (memory (action state).2).content? place = (memory state).content? place

theorem Touches.pure {a : α} {ensures : α → Prop} (h : ensures a) :
    Touches memory paths (pure a) ensures :=
  fun _ => ⟨h, rfl, fun _ _ => rfl⟩

theorem Touches.bind {action : StateM σ α} {next : α → StateM σ β} {between : α → Prop}
    {ensures : β → Prop} (h : Touches memory paths action between)
    (hnext : ∀ a, between a → Touches memory paths (next a) ensures) :
    Touches memory paths (action >>= next) ensures := by
  intro state
  obtain ⟨hvalue, hdirectory, hcontent⟩ := h state
  obtain ⟨hvalue', hdirectory', hcontent'⟩ := hnext _ hvalue (action state).2
  refine ⟨hvalue', hdirectory'.trans hdirectory, fun place hplace => ?_⟩
  refine (hcontent' place ?_).trans (hcontent place hplace)
  rwa [hdirectory]

/-- A change in memory that changes files at the places of some paths only. -/
theorem touches_of_changes {change : Memory → Except DiskError Memory}
    {action : StateM σ (Except DiskError Unit)} (h : Changes memory change action)
    (hchange : ∀ before after, change before = .ok after →
      after.workingDirectory = before.workingDirectory ∧
        ∀ place, (∀ path ∈ paths, place ≠ path.place before.workingDirectory) →
          after.view place = before.view place) :
    Touches memory paths action fun _ => True := by
  intro state
  refine ⟨trivial, ?_⟩
  rcases h state with ⟨-, -, hsame⟩ | ⟨-, hafter⟩
  · rw [hsame]
    exact ⟨rfl, fun _ _ => rfl⟩
  · obtain ⟨hdirectory, hview⟩ := hchange _ _ hafter
    exact ⟨hdirectory, fun place hplace => Memory.content?_eq_of_view_eq (hview place hplace)⟩

namespace Atomic

variable {disk : Disk (StateM σ)}

theorem touches_write (h : disk.Atomic memory) {path : Path} (hpath : path ∈ paths)
    (content : String) : Touches memory paths (disk.write path content) fun _ => True := by
  refine touches_of_changes (h.write path content) fun before after hafter => ?_
  obtain ⟨place, hplace, -, hupdated⟩ := Memory.updated_of_write hafter
  refine ⟨hupdated.workingDirectory, fun other hother => hupdated.view_of_ne ?_⟩
  rw [(Memory.place_of_locateNew hplace).1]
  exact hother path hpath

theorem touches_rename (h : disk.Atomic memory) {source target : Path} (hsource : source ∈ paths)
    (htarget : target ∈ paths) :
    Touches memory paths (disk.rename source target) fun _ => True := by
  refine touches_of_changes (h.rename source target) fun before after hafter => ?_
  obtain ⟨old, new, content, hold, hnew, -, -, between, hremoved, hput⟩ :=
    Memory.updated_of_rename hafter
  refine ⟨hput.workingDirectory.trans hremoved.workingDirectory, fun other hother => ?_⟩
  rw [hput.view_of_ne, hremoved.view_of_ne]
  · rw [(Memory.place_of_locateNew hold).1]
    exact hother source hsource
  · rw [(Memory.place_of_locateNew hnew).1]
    exact hother target htarget

theorem touches_remove (h : disk.Atomic memory) {path : Path} (hpath : path ∈ paths) :
    Touches memory paths (disk.remove path) fun _ => True := by
  refine touches_of_changes (h.remove path) fun before after hafter => ?_
  obtain ⟨hdirectory, hview⟩ := Memory.view_of_remove hafter
  exact ⟨hdirectory, fun place hplace => hview place (hplace path hpath)⟩

theorem touches_createDirectories (h : disk.Atomic memory) (path : Path) :
    Touches memory paths (disk.createDirectories path) fun _ => True := by
  intro state
  have hgrows := h.grows_createDirectories path state
  exact ⟨trivial, hgrows.keeps.workingDirectory, fun place _ => hgrows.content? place⟩

end Atomic

end Disk

end MessageSchema
