import LidarPublisher.Lib.Run
import Mathlib.Data.List.Induction

/-!
# What a state says about the run that led to it

A property that does not hold at the start and holds at the end was brought
about by some step, of which there is a first one.
-/

namespace LidarPublisher.Lib.History

open LidarPublisher.Lib.Run

variable {σ ε : Type*} {step : σ → ε → σ}

/-- Induction on runs that keeps the events so far. -/
theorem inv_history (Inv : List ε → σ → Prop) (s : σ) (hs : Inv [] s)
    (hstep : ∀ es e, Inv es (runFrom step s es) →
      Inv (es ++ [e]) (step (runFrom step s es) e)) (es : List ε) :
    Inv es (runFrom step s es) := by
  induction es using List.reverseRecOn with
  | nil => exact hs
  | append_singleton es e ih =>
      rw [runFrom_append]
      exact hstep es e ih

/-- The first step that makes `P` true. -/
theorem exists_first_step (P : σ → Prop) {s : σ} {es : List ε} (hs : ¬P s)
    (h : P (runFrom step s es)) :
    ∃ pre e post, es = pre ++ e :: post ∧
      (∀ pre', pre' <+: pre → ¬P (runFrom step s pre')) ∧
      P (runFrom step s (pre ++ [e])) := by
  induction es generalizing s with
  | nil => exact absurd h hs
  | cons e es ih =>
      by_cases he : P (step s e)
      · refine ⟨[], e, es, rfl, ?_, he⟩
        intro pre' hpre
        rw [List.prefix_nil.mp hpre]
        exact hs
      · rcases ih he h with ⟨pre, e', post, rfl, hbefore, hat⟩
        refine ⟨e :: pre, e', post, rfl, ?_, hat⟩
        intro pre' hpre
        cases pre' with
        | nil => exact hs
        | cons a pre' =>
            rcases List.cons_prefix_cons.mp hpre with ⟨rfl, htail⟩
            exact hbefore pre' htail

/-- A property that holds at the end of a run and cannot be lost holds from some
step on; until then it did not. -/
theorem mem_of_inv_history {P : ε → Prop} {Q : σ → Prop} {s : σ} {es : List ε}
    (hs : ¬Q s) (hstep : ∀ t e, ¬Q t → Q (step t e) → P e)
    (h : Q (runFrom step s es)) : ∃ e ∈ es, P e := by
  rcases exists_first_step Q hs h with ⟨pre, e, post, rfl, hbefore, hat⟩
  rw [runFrom_append] at hat
  exact ⟨e, by simp, hstep _ e (hbefore pre List.prefix_rfl) hat⟩

end LidarPublisher.Lib.History
