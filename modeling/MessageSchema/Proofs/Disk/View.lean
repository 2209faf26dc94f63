import MessageSchema.Disk.Tree
import MessageSchema.Proofs.Dictionary
import Mathlib.Data.List.Infix

/-!
# A tree of files as a map from places

What a program can tell of a tree is what stands at each place: a file with its text, a directory,
or nothing. A change at a place inside a directory changes that place and no other.

## Main definitions

* `FileTree.Entry`, `Memory.view`: what stands at a place.
* `Memory.content?`: the text of the file at a place.

## Main results

* `Memory.view_put`: the view after a change.
* `Memory.enter_eq_ok_iff`, `Memory.checkFile_eq_ok_iff`: the checks of the operations.
-/

namespace MessageSchema

namespace Dictionary

variable {α : Type}

theorem get?_filter_ne (key other : String) (entries : Dictionary α) :
    get? other (entries.filter (·.1 ≠ key)) = if other = key then none else get? other entries := by
  induction entries with
  | nil => simp [get?]
  | cons e rest ih =>
    by_cases hkey : e.1 = key
    · rw [List.filter_cons_of_neg (by simpa using hkey), ih, get?_cons, hkey]
      split
      · rfl
      · rename_i hother
        rw [if_neg (Ne.symm hother)]
    · rw [List.filter_cons_of_pos (by simpa using hkey), get?_cons, get?_cons, ih]
      by_cases hother : e.1 = other
      · rw [if_pos hother, if_pos hother, if_neg (hother ▸ hkey)]
      · rw [if_neg hother, if_neg hother]

end Dictionary

namespace FileTree

/-- What can stand at a place, apart from what a directory holds. -/
inductive Entry
  | file (content : String)
  | directory
deriving DecidableEq

/-- A tree without what it holds. -/
def entry : FileTree → Entry
  | .file content => .file content
  | .directory _ => .directory

/-- What stands at a place of a tree. -/
def view (tree : FileTree) (place : List String) : Option Entry :=
  (tree.at? place).map entry

/-- A file, or a directory that holds nothing. -/
def Bare : FileTree → Prop
  | .file _ => True
  | .directory entries => entries = []

@[simp] theorem view_nil (tree : FileTree) : tree.view [] = some tree.entry := rfl

theorem view_directory_cons (entries : List (String × FileTree)) (name : String)
    (rest : List String) :
    (directory entries).view (name :: rest) =
      (Dictionary.get? name entries).bind (·.view rest) := by
  rw [view, at?]
  cases Dictionary.get? name entries <;> rfl

/-- Nothing stands inside something bare. -/
theorem Bare.view_cons {tree : FileTree} (h : tree.Bare) (name : String) (rest : List String) :
    tree.view (name :: rest) = none := by
  cases tree with
  | file => rfl
  | directory entries =>
    obtain rfl : entries = [] := h
    rfl

/-- What is not a directory is bare. -/
theorem bare_of_view_ne {tree : FileTree} (h : tree.view [] ≠ some .directory) : tree.Bare := by
  cases tree with
  | file => trivial
  | directory => exact absurd rfl h

theorem view_replace_single {new : Option FileTree} (hnew : ∀ tree ∈ new, tree.Bare)
    {entries : List (String × FileTree)} {name : String}
    (hold : (directory entries).view [name] ≠ some .directory) (other : List String) :
    (replace new [name] (directory entries)).view other =
      if other = [name] then new.map entry else (directory entries).view other := by
  have bare_old : ∀ tree ∈ Dictionary.get? name entries, tree.Bare := by
    intro tree htree
    refine bare_of_view_ne ?_
    rwa [view_directory_cons, htree] at hold
  have lookup : ∀ key, Dictionary.get? key (new.elim (entries.filter (·.1 ≠ name))
      (Dictionary.insert name · entries)) =
      if key = name then new else Dictionary.get? key entries := by
    intro key
    cases new with
    | none => exact Dictionary.get?_filter_ne name key entries
    | some tree => exact Dictionary.get?_insert name key tree entries
  cases other with
  | nil => rw [if_neg (List.cons_ne_nil _ _).symm]; rfl
  | cons key rest =>
    rw [replace, view_directory_cons, lookup, view_directory_cons]
    by_cases hkey : key = name
    · subst hkey
      rw [if_pos rfl]
      cases rest with
      | nil =>
        rw [if_pos rfl]
        cases new <;> rfl
      | cons first rest =>
        rw [if_neg (by simp)]
        have nothing : ∀ trees : Option FileTree, (∀ tree ∈ trees, tree.Bare) →
            trees.bind (·.view (first :: rest)) = none := by
          intro trees hbare
          cases trees with
          | none => rfl
          | some tree => exact (hbare tree rfl).view_cons first rest
        rw [nothing new hnew, nothing _ bare_old]
    · rw [if_neg hkey, if_neg (by simp [hkey])]

/-- A change at a place inside a directory, where no directory stands, changes that place alone. -/
theorem view_replace {new : Option FileTree} (hnew : ∀ tree ∈ new, tree.Bare) {name : String}
    {outer : List String} {tree : FileTree} (houter : tree.view outer = some .directory)
    (hold : tree.view (outer ++ [name]) ≠ some .directory) (other : List String) :
    (replace new (outer ++ [name]) tree).view other =
      if other = outer ++ [name] then new.map entry else tree.view other := by
  induction outer generalizing tree other with
  | nil =>
    cases tree with
    | file => cases houter
    | directory entries => exact view_replace_single hnew hold other
  | cons first outer ih =>
    cases tree with
    | file => cases houter
    | directory entries =>
      rw [view_directory_cons] at houter
      obtain ⟨inner, hinner, hinside⟩ := Option.bind_eq_some_iff.mp houter
      rw [List.cons_append, view_directory_cons, hinner] at hold
      have step : replace new (first :: (outer ++ [name])) (directory entries) =
          directory (Dictionary.insert first (replace new (outer ++ [name]) inner) entries) := by
        rw [replace, hinner]
        simp
      rw [List.cons_append, step]
      cases other with
      | nil => rw [if_neg (List.cons_ne_nil _ _).symm]; rfl
      | cons key rest =>
        rw [view_directory_cons, Dictionary.get?_insert, view_directory_cons]
        by_cases hkey : key = first
        · subst hkey
          rw [if_pos rfl, hinner, Option.bind_some, Option.bind_some, ih hinside hold]
          simp
        · rw [if_neg hkey, if_neg (by simp [hkey])]

end FileTree

namespace Memory

open FileTree (Entry)

variable {memory : Memory} {place outer : List String} {name : String}

/-- What stands at a place. -/
def view (memory : Memory) (place : List String) : Option Entry :=
  memory.root.view place

/-- The text of the file at a place, if a file stands there. -/
def content? (memory : Memory) (place : List String) : Option String :=
  match memory.view place with
  | some (.file content) => some content
  | _ => none

theorem content?_eq_of_view_eq {other : Memory} (h : other.view place = memory.view place) :
    other.content? place = memory.content? place := by
  rw [content?, content?, h]

theorem content?_of_file {content : String} (h : memory.view place = some (.file content)) :
    memory.content? place = some content := by
  rw [content?, h]

theorem content?_of_nothing (h : memory.view place = none) : memory.content? place = none := by
  rw [content?, h]

theorem view_put {new : Option FileTree} (hnew : ∀ tree ∈ new, tree.Bare)
    (houter : memory.view outer = some .directory)
    (hold : memory.view (outer ++ [name]) ≠ some .directory) (other : List String) :
    (memory.put new (outer ++ [name])).view other =
      if other = outer ++ [name] then new.map FileTree.entry else memory.view other :=
  FileTree.view_replace hnew houter hold other

/-- A place can be entered if a directory stands there. -/
theorem enter_eq_ok_iff : memory.enter place = .ok () ↔ memory.view place = some .directory := by
  rw [enter, view, FileTree.view]
  cases memory.root.at? place with
  | none => simp
  | some tree => cases tree <;> simp [FileTree.entry]

/-- A place can hold a file unless a directory stands there. -/
theorem checkFile_eq_ok_iff :
    memory.checkFile place = .ok () ↔ memory.view place ≠ some .directory := by
  rw [checkFile, view, FileTree.view]
  cases memory.root.at? place with
  | none => simp
  | some tree => cases tree <;> simp [FileTree.entry]

/-- What stands at a place where a file can be. -/
theorem at?_of_view_file {content : String} (h : memory.view place = some (.file content)) :
    memory.root.at? place = some (.file content) := by
  rw [view, FileTree.view, Option.map_eq_some_iff] at h
  obtain ⟨tree, htree, hentry⟩ := h
  cases tree with
  | file =>
    cases hentry
    exact htree
  | directory => cases hentry

theorem at?_eq_none_iff : memory.root.at? place = none ↔ memory.view place = none := by
  rw [view, FileTree.view, Option.map_eq_none_iff]

end Memory

end MessageSchema
