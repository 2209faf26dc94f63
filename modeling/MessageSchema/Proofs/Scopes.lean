import MessageSchema.Proofs.Cut
import Mathlib.Data.List.TakeWhile

/-!
# Scopes around a scope

A dotted scope stands inside every scope that ends before one of its dots, and inside the root, which
is the empty scope. Cutting at the last dot, again and again, visits all of them from the inside out.

## Main definitions

* `Text.Encloses`: a scope stands around another, or is the same.

## Main results

* `Text.encloses_iff`: what encloses a scope is the scope or encloses what stands before its last dot.
* `Text.Encloses.antisymm`: scopes that enclose each other are the same.
-/

namespace MessageSchema

namespace Text

variable {scope outer inner piece : String}

/-! ### The part before the last dot -/

theorem enclosing_of_no_dot (h : '.' ∉ scope.toList) : enclosing '.' scope = "" := by
  have hall : scope.toList.reverse.dropWhile (· ≠ '.') = [] :=
    List.dropWhile_eq_nil_iff.mpr fun c hc => by
      simpa using fun hdot : c = '.' => h (hdot ▸ List.mem_reverse.mp hc)
  rw [enclosing, hall]
  rfl

theorem enclosing_append (h : '.' ∉ piece.toList) :
    enclosing '.' (outer ++ "." ++ piece) = outer := by
  have hpiece : ∀ c ∈ piece.toList.reverse, (c ≠ '.' : Bool) = true := fun c hc => by
    simpa using fun hdot : c = '.' => h (hdot ▸ List.mem_reverse.mp hc)
  have hlist : (outer ++ "." ++ piece).toList.reverse =
      piece.toList.reverse ++ '.' :: outer.toList.reverse := by simp
  rw [enclosing, hlist, List.dropWhile_append_of_pos hpiece]
  simp

/-- A scope with a dot has a last piece. -/
theorem exists_last_piece (h : '.' ∈ scope.toList) :
    ∃ outer piece, scope = outer ++ "." ++ piece ∧ '.' ∉ piece.toList := by
  obtain ⟨after, before, hsplit, hafter⟩ :=
    List.eq_append_cons_of_mem (List.mem_reverse.mpr h)
  refine ⟨String.ofList before.reverse, String.ofList after.reverse, ?_, by simpa using hafter⟩
  rw [← String.toList_inj, ← List.reverse_inj, hsplit]
  simp

theorem length_enclosing_lt (h : scope ≠ "") : (enclosing '.' scope).length < scope.length := by
  by_cases hdot : '.' ∈ scope.toList
  · obtain ⟨outer, piece, rfl, hpiece⟩ := exists_last_piece hdot
    rw [enclosing_append hpiece, String.length_append, String.length_append]
    have : ".".length = 1 := rfl
    omega
  · rw [enclosing_of_no_dot hdot]
    exact Nat.pos_of_ne_zero fun hlength => h (String.length_eq_zero_iff.mp hlength)

/-! ### Enclosing scopes -/

/-- A scope stands around another, or is the same: it is the root, or ends before a dot. -/
def Encloses (outer inner : String) : Prop :=
  outer = "" ∨ outer = inner ∨ ∃ rest, inner = outer ++ "." ++ rest

namespace Encloses

theorem refl (scope : String) : Encloses scope scope := .inr (.inl rfl)

theorem root (scope : String) : Encloses "" scope := .inl rfl

theorem eq_or_length_lt (h : Encloses outer inner) :
    outer = inner ∨ outer.length < inner.length := by
  rcases h with rfl | rfl | ⟨rest, rfl⟩
  · rcases eq_or_ne inner "" with rfl | hne
    · exact .inl rfl
    · exact .inr (Nat.pos_of_ne_zero fun hlength => hne (String.length_eq_zero_iff.mp hlength))
  · exact .inl rfl
  · refine .inr ?_
    rw [String.length_append, String.length_append]
    have : ".".length = 1 := rfl
    omega

theorem antisymm (h : Encloses outer inner) (h' : Encloses inner outer) : outer = inner := by
  rcases h.eq_or_length_lt with heq | hlt
  · exact heq
  · rcases h'.eq_or_length_lt with heq | hlt'
    · exact heq.symm
    · omega

theorem eq_root (h : Encloses outer "") : outer = "" :=
  h.antisymm (root outer)

end Encloses

/-- Two dots of a scope: that of the last piece is not in front of the other. -/
theorem encloses_of_append_eq {front rest : String}
    (h : outer ++ "." ++ piece = front ++ "." ++ rest) (hpiece : '.' ∉ piece.toList) :
    Encloses front outer := by
  have hlist : outer.toList ++ '.' :: piece.toList = front.toList ++ '.' :: rest.toList := by
    simpa using congrArg String.toList h
  rcases List.append_eq_append_iff.mp hlist with ⟨between, hfront, hrest⟩ | ⟨between, hfront, hrest⟩
  · cases between with
    | nil => exact .inr (.inl (String.toList_inj.mp (by simpa using hfront)))
    | cons c between =>
      obtain ⟨-, hrest⟩ := List.cons_eq_cons.mp hrest
      exact absurd (hrest ▸ by simp) hpiece
  · cases between with
    | nil => exact .inr (.inl (String.toList_inj.mp (by simpa using hfront.symm)))
    | cons c between =>
      obtain ⟨rfl, -⟩ := List.cons_eq_cons.mp hrest
      exact .inr (.inr ⟨String.ofList between, String.toList_inj.mp (by simpa using hfront)⟩)

/-- What encloses a scope is the scope itself or encloses the part before its last dot. -/
theorem encloses_iff (h : inner ≠ "") :
    Encloses outer inner ↔ outer = inner ∨ Encloses outer (enclosing '.' inner) := by
  by_cases hdot : '.' ∈ inner.toList
  · obtain ⟨front, piece, rfl, hpiece⟩ := exists_last_piece hdot
    rw [enclosing_append hpiece]
    constructor
    · rintro (rfl | rfl | ⟨rest, hrest⟩)
      · exact .inr (.root front)
      · exact .inl rfl
      · exact .inr (encloses_of_append_eq hrest hpiece)
    · rintro (rfl | rfl | rfl | ⟨rest, rfl⟩)
      · exact .refl _
      · exact .root _
      · exact .inr (.inr ⟨piece, rfl⟩)
      · exact .inr (.inr ⟨rest ++ "." ++ piece, by simp only [String.append_assoc]⟩)
  · rw [enclosing_of_no_dot hdot]
    constructor
    · rintro (rfl | rfl | ⟨rest, rfl⟩)
      · exact .inr (.refl "")
      · exact .inl rfl
      · exact absurd (by simp) hdot
    · rintro (rfl | houter)
      · exact .refl _
      · exact .inl houter.eq_root

end Text

end MessageSchema
