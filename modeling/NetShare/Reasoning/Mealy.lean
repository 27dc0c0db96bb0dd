import Mathlib.Data.List.Forall2
import Mathlib.Data.Option.Basic
import Mathlib.Tactic.Common

/-!
# Mealy machines — refinement of one input-driven component by another

A component takes an input, may refuse it, and otherwise answers with an output and a new state.
Two components that stay related and give related answers, input by input, do so over every
sequence of inputs.
-/

namespace Reasoning

structure Mealy (σ ι ο : Type*) where
  next : σ → ι → Option (ο × σ)

namespace Mealy

variable {σ τ ι ο π : Type*}

/-- The outputs of a sequence of inputs and the state after it; `none` once an input is refused. -/
def run (m : Mealy σ ι ο) : σ → List ι → Option (List ο × σ)
  | s, [] => some ([], s)
  | s, i :: is =>
    (m.next s i).bind fun r => (run m r.2 is).map fun rest => (r.1 :: rest.1, rest.2)

/-- A run goes on with one more input. -/
theorem run_concat {m : Mealy σ ι ο} {s t u : σ} {is : List ι} {i : ι} {outs : List ο} {out : ο}
    (h : m.run s is = some (outs, t)) (hn : m.next t i = some (out, u)) :
    m.run s (is ++ [i]) = some (outs ++ [out], u) := by
  induction is generalizing s outs with
  | nil =>
    simp only [run, Option.some.injEq, Prod.mk.injEq] at h
    obtain ⟨rfl, rfl⟩ := h
    simp only [List.nil_append, run, hn, Option.bind_some, Option.map_some]
  | cons j is ih =>
    simp only [run, Option.bind_eq_some_iff, Option.map_eq_some_iff, Prod.mk.injEq] at h
    obtain ⟨r, hr, rest, hrest, rfl, rfl⟩ := h
    have htail := ih hrest
    simp only [List.cons_append, run, hr, Option.bind_some, htail, Option.map_some]

/-- The two components accept the same inputs, and `R` and `Q` relate what comes of them. -/
def Simulates (m : Mealy σ ι ο) (m' : Mealy τ ι π) (R : σ → τ → Prop) (Q : ο → π → Prop) : Prop :=
  ∀ s t i, R s t →
    Option.Rel (fun a b => Q a.1 b.1 ∧ R a.2 b.2) (m.next s i) (m'.next t i)

/-- **Refinement of runs.** -/
theorem Simulates.run {m : Mealy σ ι ο} {m' : Mealy τ ι π} {R : σ → τ → Prop} {Q : ο → π → Prop}
    (h : m.Simulates m' R Q) {s : σ} {t : τ} (hst : R s t) (is : List ι) :
    Option.Rel (fun a b => List.Forall₂ Q a.1 b.1 ∧ R a.2 b.2) (m.run s is) (m'.run t is) := by
  induction is generalizing s t with
  | nil => exact .some ⟨.nil, hst⟩
  | cons i is ih =>
    have hstep := h s t i hst
    simp only [Mealy.run]
    revert hstep
    cases m.next s i with
    | none =>
      intro hstep
      cases hb : m'.next t i with
      | none => exact .none
      | some b => rw [hb] at hstep; nomatch hstep
    | some a =>
      intro hstep
      cases hb : m'.next t i with
      | none => rw [hb] at hstep; nomatch hstep
      | some b =>
        rw [hb] at hstep
        obtain ⟨hQ, hR⟩ : Q a.1 b.1 ∧ R a.2 b.2 := by cases hstep; assumption
        have hrest := ih hR
        simp only [Option.bind_some]
        revert hrest
        cases m.run a.2 is <;> cases m'.run b.2 is <;> intro hrest
        · exact .none
        · nomatch hrest
        · nomatch hrest
        · obtain ⟨hQs, hRs⟩ := (by cases hrest; assumption)
          exact .some ⟨.cons hQ hQs, hRs⟩

end Mealy

end Reasoning
