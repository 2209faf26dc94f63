import MessageSchema.Proofs.Cut
import MessageSchema.Proofs.Disk.View
import MessageSchema.Proofs.Except
import Mathlib.Data.List.Infix
import Mathlib.Data.List.TakeWhile
import Mathlib.Data.String.Basic

/-!
# The place that a path names

A path names one place, whatever the tree holds: names lead inwards, two dots lead outwards, and
pieces that mean nothing lead nowhere. An operation that finds its way along a path ends at that
place, and finds it again as long as no directory on the way is removed.

## Main definitions

* `Path.follow`, `Path.resolve`: where a piece, and several, lead from a place.
* `Path.place`: the place that a path names from a working directory.
* `Memory.Keeps`: no directory has gone, and the working directory is the same.

## Main results

* `Path.place_join`: the place of a path below another.
* `Memory.place_of_locate`, `Memory.place_of_locateNew`: operations end at the place of their path.
* `Memory.locateNew_of_keeps`, `Memory.locate_of_locateNew`: and they find it again.
-/

namespace MessageSchema

namespace Path

/-! ### Following a path -/

/-- Where a piece of a path leads from a place. -/
def follow (place : List String) (piece : String) : List String :=
  if isTrivial piece then place else if piece = ".." then place.dropLast else place ++ [piece]

/-- Where pieces of a path lead from a place. -/
def resolve (place : List String) (pieces : List String) : List String :=
  pieces.foldl follow place

/-- The place that a path names from a working directory. -/
def place (start : List String) (path : Path) : List String :=
  resolve (if path.isAbsolute then [] else start) path.pieces

/-- Whether a piece of a path is the name of something. -/
def IsName (piece : String) : Prop :=
  isTrivial piece = false ∧ piece ≠ ".."

theorem follow_of_isTrivial {piece : String} (h : isTrivial piece = true) (place : List String) :
    follow place piece = place :=
  if_pos h

theorem follow_of_isName {piece : String} (h : IsName piece) (place : List String) :
    follow place piece = place ++ [piece] := by
  rw [follow, if_neg (by simp [h.1]), if_neg h.2]

@[simp] theorem follow_up (place : List String) : follow place ".." = place.dropLast := by
  rw [follow, if_neg (by decide), if_pos rfl]

@[simp] theorem resolve_nil (place : List String) : resolve place [] = place := rfl

@[simp] theorem resolve_cons (place : List String) (piece : String) (rest : List String) :
    resolve place (piece :: rest) = resolve (follow place piece) rest := rfl

theorem resolve_append (place pieces more : List String) :
    resolve place (pieces ++ more) = resolve (resolve place pieces) more :=
  List.foldl_append

theorem resolve_of_isEmpty {pieces : List String} (h : ∀ piece ∈ pieces, piece.isEmpty = true)
    (place : List String) : resolve place pieces = place := by
  induction pieces with
  | nil => rfl
  | cons piece rest ih =>
    have hpiece : isTrivial piece = true := by rw [isTrivial, h piece (by simp), Bool.true_or]
    rw [resolve_cons, follow_of_isTrivial hpiece, ih fun p hp => h p (List.mem_cons_of_mem _ hp)]

theorem place_of_relative {path : Path} (h : path.isAbsolute = false) (start : List String) :
    path.place start = resolve start path.pieces := by
  rw [place, if_neg (by simp [h])]

/-! ### Paths below others -/

theorem pieces_of_text_eq {path : Path} {cs ds : List Char} (h : path.text.toList = cs ++ '/' :: ds) :
    path.pieces = pieces ⟨String.ofList cs⟩ ++ pieces ⟨String.ofList ds⟩ := by
  rw [pieces, h, Text.pieces_append, List.map_append]
  simp [pieces]

theorem isAbsolute_iff {path : Path} :
    path.isAbsolute = true ↔ ∃ cs, path.text.toList = '/' :: cs := by
  rw [isAbsolute, beq_iff_eq, List.head?_eq_some_iff]

/-- The text of a path below another. -/
theorem join_cases (path below : Path) :
    ((below.isAbsolute = true ∨ path.text.toList = []) ∧ path.join below = below) ∨
      (below.isAbsolute = false ∧ ∃ cs, path.text.toList = cs ++ ['/'] ∧
        (path.join below).text.toList = cs ++ '/' :: below.text.toList) ∨
      (below.isAbsolute = false ∧ path.text.toList ≠ [] ∧
        (path.join below).text.toList = path.text.toList ++ '/' :: below.text.toList) := by
  rw [join]
  by_cases habsolute : below.isAbsolute = true
  · exact .inl ⟨.inl habsolute, by rw [habsolute, Bool.true_or, if_pos rfl]⟩
  · rw [Bool.not_eq_true] at habsolute
    by_cases hempty : path.text.isEmpty = true
    · refine .inl ⟨.inr ?_, by rw [hempty, Bool.or_true, if_pos rfl]⟩
      rw [String.isEmpty_iff.mp hempty]
      rfl
    · rw [if_neg (by simp [habsolute, hempty])]
      by_cases hslash : path.text.toList.getLast? = some '/'
      · obtain ⟨cs, hcs⟩ := List.getLast?_eq_some_iff.mp hslash
        refine .inr (.inl ⟨habsolute, cs, hcs, ?_⟩)
        rw [if_pos hslash]
        simp [hcs]
      · refine .inr (.inr ⟨habsolute, ?_, ?_⟩)
        · intro hnil
          exact hempty (by simpa [String.isEmpty_iff] using hnil)
        · rw [if_neg hslash]
          simp

theorem pieces_mk_nil : pieces ⟨String.ofList []⟩ = [""] := rfl

/-- The place of a path below another is that of the path, seen from the other. -/
theorem place_join (start : List String) (path below : Path) :
    (path.join below).place start = below.place (path.place start) := by
  rcases join_cases path below with ⟨h, hjoin⟩ | ⟨hbelow, cs, hpath, hjoin⟩ | ⟨hbelow, hpath, hjoin⟩
  · rw [hjoin, place, place]
    rcases h with h | h
    · rw [if_pos h, if_pos h]
    · have hhere : path.place start = start := by
        have habsolute : path.isAbsolute = false := by rw [isAbsolute, h]; rfl
        have hpieces : path.pieces = [""] := by rw [pieces, h]; rfl
        rw [place, habsolute, hpieces]
        rfl
      rw [hhere]
  · have habsolute : (path.join below).isAbsolute = path.isAbsolute := by
      rw [isAbsolute, isAbsolute, hjoin, hpath]
      cases cs <;> rfl
    rw [place_of_relative hbelow, place, place, habsolute, pieces_of_text_eq hjoin,
      pieces_of_text_eq hpath, resolve_append, resolve_append, pieces_mk_nil,
      String.ofList_toList]
    rfl
  · have habsolute : (path.join below).isAbsolute = path.isAbsolute := by
      obtain ⟨c, cs, hcs⟩ := List.exists_cons_of_ne_nil hpath
      rw [isAbsolute, isAbsolute, hjoin, hcs]
      rfl
    rw [place_of_relative hbelow, place, place, habsolute, pieces_of_text_eq hjoin,
      resolve_append, String.ofList_toList, String.ofList_toList]

/-- A name without slashes stands directly in the directory. -/
theorem place_of_isName {name : String} (hname : IsName name) (hslash : '/' ∉ name.toList)
    (start : List String) : place start ⟨name⟩ = start ++ [name] := by
  have habsolute : isAbsolute ⟨name⟩ = false := by
    rw [← Bool.not_eq_true]
    intro h
    obtain ⟨cs, hcs⟩ := isAbsolute_iff.mp h
    exact hslash (by rw [show name.toList = '/' :: cs from hcs]; exact List.mem_cons_self)
  have hpieces : pieces ⟨name⟩ = [name] := by
    rw [pieces, Text.pieces_of_not_mem hslash]
    simp
  rw [place_of_relative habsolute, hpieces, resolve_cons, follow_of_isName hname]
  rfl

end Path

namespace Memory

open MessageSchema.Path (resolve follow)

variable {memory other : Memory} {path : Path} {place found : List String} {pieces : List String}

/-! ### Operations find places -/

theorem walk_cons_eq_ok {piece : String} :
    memory.walk place (piece :: pieces) = .ok found ↔
      memory.enter place = .ok () ∧ piece.utf8ByteSize ≤ longestName ∧
        memory.walk (follow place piece) pieces = .ok found := by
  rw [walk, Except.bind_eq_ok]
  constructor
  · rintro ⟨⟨⟩, henter, h⟩
    by_cases hlong : piece.utf8ByteSize > longestName
    · rw [if_pos hlong] at h
      cases h
    · rw [if_neg hlong] at h
      refine ⟨henter, Nat.le_of_not_lt hlong, ?_⟩
      rw [follow]
      split_ifs at h ⊢ <;> exact h
  · rintro ⟨henter, hshort, h⟩
    refine ⟨(), henter, ?_⟩
    rw [if_neg (Nat.not_lt.mpr hshort)]
    rw [follow] at h
    split_ifs at h ⊢ <;> exact h

theorem resolve_of_walk (h : memory.walk place pieces = .ok found) :
    found = resolve place pieces := by
  induction pieces generalizing place with
  | nil =>
    rw [walk, Except.ok.injEq] at h
    exact h.symm
  | cons piece rest ih =>
    exact ih (walk_cons_eq_ok.mp h).2.2

theorem locate_eq_ok_iff : memory.locate path = .ok place ↔
    checkPath path = .ok () ∧ memory.walk (memory.start path) path.pieces = .ok place := by
  rw [locate, Except.bind_eq_ok]
  exact ⟨fun ⟨⟨⟩, hcheck, h⟩ => ⟨hcheck, h⟩, fun ⟨hcheck, h⟩ => ⟨(), hcheck, h⟩⟩

/-- A path that is followed leads to its place. -/
theorem place_of_locate (h : memory.locate path = .ok place) :
    place = path.place memory.workingDirectory :=
  resolve_of_walk (locate_eq_ok_iff.mp h).2

/-- The pieces of a path without empty ones at the end. -/
theorem pieces_eq_append (pieces : List String) :
    ∃ empties : List String, (∀ piece ∈ empties, piece.isEmpty = true) ∧
      pieces = (pieces.reverse.dropWhile String.isEmpty).reverse ++ empties := by
  refine ⟨(pieces.reverse.takeWhile String.isEmpty).reverse, fun piece hpiece => ?_, ?_⟩
  · exact List.mem_takeWhile_imp (List.mem_reverse.mp hpiece)
  · rw [← List.reverse_append, List.takeWhile_append_dropWhile, List.reverse_reverse]

/-- What a path needs to have a place for something new. -/
theorem locateNew_eq_some_iff : memory.locateNew path = .ok (some place) ↔
    checkPath path = .ok () ∧ ∃ last before outer,
      path.pieces.reverse.dropWhile String.isEmpty = last :: before ∧
      memory.walk (memory.start path) before.reverse = .ok outer ∧ memory.enter outer = .ok () ∧
      last.utf8ByteSize ≤ longestName ∧ ¬ (last = "." ∨ last = "..") ∧ place = outer ++ [last] := by
  rw [locateNew, Except.bind_eq_ok]
  constructor
  · rintro ⟨⟨⟩, hcheck, h⟩
    refine ⟨hcheck, ?_⟩
    split at h
    · cases h
    · rename_i last before hpieces
      obtain ⟨outer, hwalk, h⟩ := Except.bind_eq_ok.mp h
      obtain ⟨⟨⟩, henter, h⟩ := Except.bind_eq_ok.mp h
      refine ⟨last, before, outer, hpieces, hwalk, henter, ?_⟩
      split_ifs at h with hlong hdots
      · cases h
      · cases h
        exact ⟨Nat.le_of_not_lt hlong, hdots, rfl⟩
  · rintro ⟨hcheck, last, before, outer, hpieces, hwalk, henter, hshort, hdots, rfl⟩
    refine ⟨(), hcheck, ?_⟩
    rw [hpieces]
    refine Except.bind_eq_ok.mpr ⟨outer, hwalk, Except.bind_eq_ok.mpr ⟨(), henter, ?_⟩⟩
    rw [if_neg (Nat.not_lt.mpr hshort), if_neg hdots]
    rfl

/-- The last of the pieces without empty ones at the end is a name. -/
theorem isName_of_dropWhile {last : String} {before : List String}
    (h : pieces.reverse.dropWhile String.isEmpty = last :: before)
    (hdots : ¬ (last = "." ∨ last = "..")) : Path.IsName last := by
  have hempty : last.isEmpty = false := by
    have hne : pieces.reverse.dropWhile String.isEmpty ≠ [] := by
      rw [h]
      exact List.cons_ne_nil _ _
    simpa [h] using List.head_dropWhile_not String.isEmpty hne
  refine ⟨?_, fun h => hdots (.inr h)⟩
  rw [Path.isTrivial, hempty, Bool.false_or, beq_eq_false_iff_ne]
  exact fun h => hdots (.inl h)

/-- The place for something new is that of the path, and it is inside a directory. -/
theorem place_of_locateNew (h : memory.locateNew path = .ok (some place)) :
    place = path.place memory.workingDirectory ∧
      ∃ outer name, place = outer ++ [name] ∧ memory.view outer = some .directory := by
  obtain ⟨-, last, before, outer, hpieces, hwalk, henter, -, hdots, rfl⟩ := locateNew_eq_some_iff.mp h
  refine ⟨?_, outer, last, rfl, enter_eq_ok_iff.mp henter⟩
  obtain ⟨empties, hempties, hsplit⟩ := pieces_eq_append path.pieces
  rw [hpieces, List.reverse_cons] at hsplit
  rw [Path.place, hsplit, Path.resolve_append, Path.resolve_of_isEmpty hempties,
    Path.resolve_append, Path.resolve_cons, Path.follow_of_isName (isName_of_dropWhile hpieces hdots)]
  exact congrArg (· ++ [last]) (resolve_of_walk hwalk)

/-! ### Operations find places again -/

/-- The directories of a tree are still there, and paths begin where they did. -/
structure Keeps (memory other : Memory) : Prop where
  workingDirectory : other.workingDirectory = memory.workingDirectory
  directories : ∀ place, memory.view place = some .directory → other.view place = some .directory

theorem Keeps.refl (memory : Memory) : memory.Keeps memory :=
  ⟨rfl, fun _ h => h⟩

theorem Keeps.trans {third : Memory} (h : memory.Keeps other) (h' : other.Keeps third) :
    memory.Keeps third :=
  ⟨h'.workingDirectory.trans h.workingDirectory, fun p hp => h'.directories p (h.directories p hp)⟩

theorem Keeps.enter (h : memory.Keeps other) (henter : memory.enter place = .ok ()) :
    other.enter place = .ok () :=
  enter_eq_ok_iff.mpr (h.directories place (enter_eq_ok_iff.mp henter))

theorem Keeps.start (h : memory.Keeps other) (path : Path) :
    other.start path = memory.start path := by
  rw [Memory.start, Memory.start, h.workingDirectory]

theorem Keeps.walk (h : memory.Keeps other) (hwalk : memory.walk place pieces = .ok found) :
    other.walk place pieces = .ok found := by
  induction pieces generalizing place with
  | nil => exact hwalk
  | cons piece rest ih =>
    obtain ⟨henter, hshort, hrest⟩ := walk_cons_eq_ok.mp hwalk
    exact walk_cons_eq_ok.mpr ⟨h.enter henter, hshort, ih hrest⟩

/-- A place for something new is found again. -/
theorem locateNew_of_keeps (h : memory.Keeps other)
    (hplace : memory.locateNew path = .ok (some place)) :
    other.locateNew path = .ok (some place) := by
  obtain ⟨hcheck, last, before, outer, hpieces, hwalk, henter, hrest⟩ := locateNew_eq_some_iff.mp hplace
  refine locateNew_eq_some_iff.mpr ⟨hcheck, last, before, outer, hpieces, ?_, h.enter henter, hrest⟩
  rw [h.start]
  exact h.walk hwalk

theorem walk_append_eq_ok {more : List String} : memory.walk place (pieces ++ more) = .ok found ↔
    ∃ outer, memory.walk place pieces = .ok outer ∧ memory.walk outer more = .ok found := by
  induction pieces generalizing place with
  | nil => simp [walk]
  | cons piece rest ih =>
    rw [List.cons_append, walk_cons_eq_ok, ih]
    simp only [walk_cons_eq_ok]
    exact ⟨fun ⟨he, hs, outer, hr, hm⟩ => ⟨outer, ⟨he, hs, hr⟩, hm⟩,
      fun ⟨outer, ⟨he, hs, hr⟩, hm⟩ => ⟨he, hs, outer, hr, hm⟩⟩

/-- What is put at the place of a path that does not end in a slash is found there. -/
theorem locate_of_locateNew (hlast : path.pieces.getLast? ≠ some "")
    (h : memory.locateNew path = .ok (some place)) : memory.locate path = .ok place := by
  obtain ⟨hcheck, last, before, outer, hpieces, hwalk, henter, hshort, hdots, rfl⟩ :=
    locateNew_eq_some_iff.mp h
  have hwhole : path.pieces.reverse.dropWhile String.isEmpty = path.pieces.reverse := by
    rw [← List.head?_reverse] at hlast
    cases hreverse : path.pieces.reverse with
    | nil => rfl
    | cons first rest =>
      rw [hreverse, List.head?_cons, ne_eq, Option.some.injEq] at hlast
      exact List.dropWhile_cons_of_neg (by rwa [String.isEmpty_iff])
  have hsplit : path.pieces = before.reverse ++ [last] := by
    rw [← List.reverse_reverse path.pieces, ← hwhole, hpieces, List.reverse_cons]
  refine locate_eq_ok_iff.mpr ⟨hcheck, ?_⟩
  rw [hsplit, walk_append_eq_ok]
  refine ⟨outer, hwalk, walk_cons_eq_ok.mpr ⟨henter, hshort, ?_⟩⟩
  rw [Path.follow_of_isName (isName_of_dropWhile hpieces hdots)]
  rfl

end Memory

end MessageSchema
