import Mathlib.Data.List.Basic

/-!
# What a walk reaches without entering blocked nodes

A walk begins at some of its start nodes and follows edges; it never enters a blocked node. A
registry that is being filled and a set of visited messages are both sets of blocked nodes that
grow while the walk goes on.

## Main definitions

* `Reached`: the nodes of all walks.

## Main results

* `reached_visit`: blocking a start node and going on from its successors reaches the same nodes,
  apart from the start node itself. This is the step of every depth-first traversal.
* `length_filter_visit_lt`: such a step leaves fewer nodes unblocked, which bounds a traversal.
-/

namespace MessageSchema

universe u

variable {α : Type u} {edge : α → α → Prop} {blocked blocked' start start' : α → Prop} {a n : α}

/-- The nodes that walks reach from start nodes along edges, without entering a blocked node. -/
inductive Reached (edge : α → α → Prop) (blocked start : α → Prop) : α → Prop
  | start {a : α} (hstart : start a) (hfree : ¬ blocked a) : Reached edge blocked start a
  | step {a b : α} (hreached : Reached edge blocked start a) (hedge : edge a b)
      (hfree : ¬ blocked b) : Reached edge blocked start b

namespace Reached

theorem not_blocked (h : Reached edge blocked start a) : ¬ blocked a := by
  cases h <;> assumption

/-- Fewer blocked nodes and more start nodes reach more. -/
theorem mono (hblocked : ∀ b, blocked b → blocked' b)
    (hstart : ∀ b, start' b → start b ∨ blocked' b)
    (h : Reached edge blocked' start' a) : Reached edge blocked start a := by
  induction h with
  | start hs hfree =>
    rcases hstart _ hs with hs | hb
    · exact .start hs fun hb => hfree (hblocked _ hb)
    · exact absurd hb hfree
  | step _ hedge hfree ih => exact .step ih hedge fun hb => hfree (hblocked _ hb)

/-- What is reached from the successors of a node is reached with the node, also if more is blocked on
the way. -/
theorem from_successors (h : Reached edge blocked' start' a) (hn : Reached edge blocked start n)
    (hblocked : ∀ b, blocked b → blocked' b) (hstart : ∀ b, start' b → edge n b) :
    Reached edge blocked start a := by
  induction h with
  | start hs hfree => exact .step hn (hstart _ hs) fun hb => hfree (hblocked _ hb)
  | step _ hedge hfree ih => exact .step ih hedge fun hb => hfree (hblocked _ hb)

end Reached

/-- Start nodes that are blocked do not matter. -/
theorem reached_congr (hstart : ∀ b, ¬ blocked b → (start b ↔ start' b)) :
    Reached edge blocked start a ↔ Reached edge blocked start' a := by
  constructor <;> refine Reached.mono (fun _ hb => hb) fun b hs => ?_
  · by_cases hb : blocked b
    · exact .inr hb
    · exact .inl ((hstart b hb).mp hs)
  · by_cases hb : blocked b
    · exact .inr hb
    · exact .inl ((hstart b hb).mpr hs)

theorem not_reached_of_start_blocked (hstart : ∀ b, start b → blocked b) :
    ¬ Reached edge blocked start a := by
  intro h
  induction h with
  | start hs hfree => exact hfree (hstart _ hs)
  | step _ _ _ ih => exact ih

/-- **One step of a traversal.** To reach a node is to be the start node `n` that is visited next, or
to be reached once `n` is blocked, from the successors of `n` and the other start nodes. -/
theorem reached_visit (hn : start n) (hfree : ¬ blocked n)
    (hblocked : ∀ b, blocked b → blocked' b)
    (hvisit : ∀ b, Reached edge blocked start b → blocked' b → b = n)
    (hstart : ∀ b, start b → b = n ∨ start' b) (hrest : ∀ b, start' b → start b) :
    Reached edge blocked start a ↔
      a = n ∨ Reached edge blocked' (fun b => edge n b ∨ start' b) a := by
  constructor
  · intro h
    induction h with
    | @start b hs hb =>
      by_cases hb' : blocked' b
      · exact .inl (hvisit b (.start hs hb) hb')
      · rcases hstart b hs with rfl | hs'
        · exact .inl rfl
        · exact .inr (.start (.inr hs') hb')
    | @step b c hreached hedge hc ih =>
      by_cases hc' : blocked' c
      · exact .inl (hvisit c (.step hreached hedge hc) hc')
      · rcases ih with rfl | ih
        · exact .inr (.start (.inl hedge) hc')
        · exact .inr (.step ih hedge hc')
  · rintro (rfl | h)
    · exact .start hn hfree
    · induction h with
      | start hs hb =>
        rcases hs with hedge | hs
        · exact .step (.start hn hfree) hedge fun hb' => hb (hblocked _ hb')
        · exact .start (hrest _ hs) fun hb' => hb (hblocked _ hb')
      | step _ hedge hc ih => exact .step ih hedge fun hb' => hc (hblocked _ hb')

/-- Blocking a node of a list leaves fewer nodes of the list free. -/
theorem length_filter_visit_lt [DecidableEq α] {nodes : List α} {p p' : α → Bool}
    (hmem : n ∈ nodes) (hfree : p n = false) (hblocked : ∀ b, p' b = true ↔ b = n ∨ p b = true) :
    (nodes.filter (!p' ·)).length < (nodes.filter (!p ·)).length := by
  have hsub : nodes.filter (!p' ·) = (nodes.filter (!p ·)).filter (· ≠ n) := by
    rw [List.filter_filter]
    refine List.filter_congr fun b _ => ?_
    have hb : p' b = (decide (b = n) || p b) := Bool.eq_iff_iff.mpr (by simp [hblocked])
    simp [hb]
  rw [hsub]
  refine List.length_filter_lt_length_iff_exists.mpr ⟨n, ?_, by simp⟩
  exact List.mem_filter.mpr ⟨hmem, by simp [hfree]⟩

end MessageSchema
