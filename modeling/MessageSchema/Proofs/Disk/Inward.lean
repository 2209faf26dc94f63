import MessageSchema.Proofs.Disk.Place
import Mathlib.Data.Fintype.EquivFin

/-!
# Paths that stay inside

A relative path stays inside the directory it is taken from if, read from left to right, it never
leads out more often than in. Any other path leads out of some directory, and an absolute one out of
all directories but those it names.

## Main definitions

* `Path.StaysBelow`: pieces do not lead out of a directory that is a number of levels up.
* `Path.Inward`: a path stays inside the directory it is taken from.

## Main results

* `Path.inward_iff`: a path is inward exactly if its place is inside every directory it is taken
  from.
-/

namespace MessageSchema

namespace Path

variable {depth : ℕ} {pieces outer inner place : List String}

/-- Pieces lead out of at most so many directories at a time as they have led into before, counted
from a number of levels. -/
def StaysBelow : ℕ → List String → Prop
  | _, [] => True
  | depth, piece :: rest =>
    if isTrivial piece then StaysBelow depth rest
    else if piece = ".." then 0 < depth ∧ StaysBelow (depth - 1) rest
    else StaysBelow (depth + 1) rest

/-- A path stays inside the directory it is taken from. -/
def Inward (path : Path) : Prop :=
  path.isAbsolute = false ∧ StaysBelow 0 path.pieces

instance decidableStaysBelow : (depth : ℕ) → (pieces : List String) → Decidable (StaysBelow depth pieces)
  | _, [] => .isTrue trivial
  | depth, piece :: rest =>
    have := decidableStaysBelow depth rest
    have := decidableStaysBelow (depth - 1) rest
    have := decidableStaysBelow (depth + 1) rest
    inferInstanceAs (Decidable (if isTrivial piece then StaysBelow depth rest
      else if piece = ".." then 0 < depth ∧ StaysBelow (depth - 1) rest
      else StaysBelow (depth + 1) rest))

instance (path : Path) : Decidable path.Inward :=
  inferInstanceAs (Decidable (_ ∧ _))

/-- A piece means nothing, leads out, or is a name. -/
theorem piece_cases (piece : String) : isTrivial piece = true ∨ piece = ".." ∨ IsName piece := by
  by_cases htrivial : isTrivial piece = true
  · exact .inl htrivial
  · by_cases hup : piece = ".."
    · exact .inr (.inl hup)
    · exact .inr (.inr ⟨by simpa using htrivial, hup⟩)

theorem staysBelow_trivial {piece : String} (h : isTrivial piece = true) :
    StaysBelow depth (piece :: pieces) ↔ StaysBelow depth pieces := by
  rw [StaysBelow, if_pos h]

theorem staysBelow_up :
    StaysBelow depth (".." :: pieces) ↔ 0 < depth ∧ StaysBelow (depth - 1) pieces := by
  rw [StaysBelow, if_neg (by decide), if_pos rfl]

theorem staysBelow_name {piece : String} (h : IsName piece) :
    StaysBelow depth (piece :: pieces) ↔ StaysBelow (depth + 1) pieces := by
  rw [StaysBelow, if_neg (by simp [h.1]), if_neg h.2]

/-- Pieces that stay below a directory lead to a place inside it. -/
theorem resolve_of_staysBelow (h : StaysBelow inner.length pieces) :
    outer <+: resolve (outer ++ inner) pieces := by
  induction pieces generalizing inner with
  | nil => exact List.prefix_append _ _
  | cons piece rest ih =>
    rw [resolve_cons]
    rcases piece_cases piece with htrivial | rfl | hname
    · rw [follow_of_isTrivial htrivial]
      exact ih ((staysBelow_trivial htrivial).mp h)
    · obtain ⟨hpos, h⟩ := staysBelow_up.mp h
      rw [follow_up, List.dropLast_append_of_ne_nil (List.ne_nil_of_length_pos hpos)]
      exact ih (by rwa [List.length_dropLast])
    · rw [follow_of_isName hname, List.append_assoc]
      refine ih ?_
      rw [List.length_append, List.length_singleton]
      exact (staysBelow_name hname).mp h

/-- What is reached without a name does not hold the name. -/
theorem not_mem_resolve {name : String} (hplace : name ∉ place) (hpieces : name ∉ pieces) :
    name ∉ resolve place pieces := by
  induction pieces generalizing place with
  | nil => exact hplace
  | cons piece rest ih =>
    obtain ⟨hpiece, hrest⟩ : name ≠ piece ∧ name ∉ rest := by simpa using hpieces
    refine ih ?_ hrest
    rcases piece_cases piece with htrivial | rfl | hname
    · rwa [follow_of_isTrivial htrivial]
    · rw [follow_up]
      exact fun hmem => hplace (List.dropLast_subset _ hmem)
    · rw [follow_of_isName hname]
      simpa [hplace] using hpiece

/-- Pieces that do not stay below a directory lead out of it, so that its name is gone. -/
theorem not_mem_resolve_of_not_staysBelow {name : String} (hinner : name ∉ inner)
    (hpieces : name ∉ pieces) (h : ¬ StaysBelow inner.length pieces) :
    name ∉ resolve (name :: inner) pieces := by
  induction pieces generalizing inner with
  | nil => exact absurd trivial h
  | cons piece rest ih =>
    obtain ⟨hpiece, hrest⟩ : name ≠ piece ∧ name ∉ rest := by simpa using hpieces
    rw [resolve_cons]
    rcases piece_cases piece with htrivial | rfl | hname
    · rw [follow_of_isTrivial htrivial]
      exact ih hinner hrest (fun hstays => h ((staysBelow_trivial htrivial).mpr hstays))
    · rw [follow_up]
      cases hlast : inner with
      | nil => exact not_mem_resolve List.not_mem_nil hrest
      | cons first more =>
        rw [List.dropLast_cons_cons, ← hlast]
        refine ih (fun hmem => hinner (List.dropLast_subset _ hmem)) hrest fun hstays => h ?_
        rw [List.length_dropLast] at hstays
        exact staysBelow_up.mpr ⟨by simp [hlast], hstays⟩
    · rw [follow_of_isName hname, List.cons_append]
      refine ih (by simpa [hinner] using hpiece) hrest fun hstays => h ?_
      rw [List.length_append, List.length_singleton] at hstays
      exact (staysBelow_name hname).mpr hstays

/-- There is a name that a path does not use. -/
theorem exists_unused (pieces : List String) : ∃ name, name ∉ pieces := by
  obtain ⟨name, hname⟩ := Infinite.exists_notMem_finset pieces.toFinset
  exact ⟨name, by simpa using hname⟩

/-- **Which paths stay inside.** A path leads to a place inside every directory it is taken from
exactly if it is inward. -/
theorem inward_iff {path : Path} : path.Inward ↔ ∀ outer, outer <+: path.place outer := by
  constructor
  · rintro ⟨hrelative, hstays⟩ outer
    rw [place_of_relative hrelative]
    have hstays : StaysBelow ([] : List String).length path.pieces := hstays
    have hprefix : outer <+: resolve (outer ++ []) path.pieces := resolve_of_staysBelow hstays
    rwa [List.append_nil] at hprefix
  · intro h
    obtain ⟨name, hunused⟩ := exists_unused path.pieces
    have hmem : name ∈ path.place [name] := (h [name]).subset (by simp)
    have hrelative : path.isAbsolute = false := by
      rw [← Bool.not_eq_true]
      intro habsolute
      rw [place, if_pos habsolute] at hmem
      exact not_mem_resolve List.not_mem_nil hunused hmem
    refine ⟨hrelative, ?_⟩
    rw [place_of_relative hrelative] at hmem
    by_contra hstays
    exact not_mem_resolve_of_not_staysBelow List.not_mem_nil hunused hstays hmem

end Path

end MessageSchema
