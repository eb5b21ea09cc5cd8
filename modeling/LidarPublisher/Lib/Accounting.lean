import LidarPublisher.Lib.Run
import Mathlib.Algebra.Group.Basic
import Mathlib.Algebra.Group.Nat.Defs

/-!
# Amounts that add up along a run

`total` sums what a function reads off every step.  When each step changes a
measure of the state by what comes in and what goes out, the whole run changes it
by the two totals: a conservation law is proved by looking at one step.
-/

namespace LidarPublisher.Lib.Accounting

open LidarPublisher.Lib.Run

variable {σ ε M : Type*} {step : σ → ε → σ}

/-- The sum of `f` over the steps of a run: "state before, event". -/
def total [AddCommMonoid M] (step : σ → ε → σ) (f : σ → ε → M) (s : σ) :
    List ε → M
  | [] => 0
  | e :: es => f s e + total step f (step s e) es

section Sums

variable [AddCommMonoid M] (f g : σ → ε → M) (s : σ)

@[simp] theorem total_nil : total step f s [] = 0 := rfl

@[simp] theorem total_cons (e : ε) (es : List ε) :
    total step f s (e :: es) = f s e + total step f (step s e) es := rfl

theorem total_zero (es : List ε) :
    total step (fun _ _ => (0 : M)) s es = 0 := by
  induction es generalizing s with
  | nil => rfl
  | cons e es ih => rw [total_cons, ih, add_zero]

end Sums

/-- **Conservation.**  A measure that every step moves by `inn` and `out` is moved
by their totals over a run, as long as the steps meet `P`. -/
theorem balance [AddCommMonoid M] (Inv : σ → Prop) {P : σ → ε → Prop}
    (hstep : ∀ s e, Inv s → P s e → Inv (step s e)) (μ : σ → M)
    (inn out : σ → ε → M)
    (h : ∀ s e, Inv s → P s e → μ (step s e) + out s e = μ s + inn s e)
    {s : σ} {es : List ε} (hs : Inv s) (hP : EveryStep step P s es) :
    μ (runFrom step s es) + total step out s es =
      μ s + total step inn s es := by
  induction es generalizing s with
  | nil => rfl
  | cons e es ih =>
      rcases hP with ⟨he, hes⟩
      have hrest := ih (hstep s e hs he) hes
      rw [runFrom_cons, total_cons, total_cons]
      calc μ (runFrom step (step s e) es) +
            (out s e + total step out (step s e) es)
          = μ (runFrom step (step s e) es) + total step out (step s e) es +
              out s e := by
            rw [add_comm (out s e), add_assoc]
        _ = μ (step s e) + out s e + total step inn (step s e) es := by
            rw [hrest, add_right_comm]
        _ = μ s + (inn s e + total step inn (step s e) es) := by
            rw [h s e hs he, add_assoc]

/-- A measure that only grows, by `inn` at each step. -/
theorem growth [AddCommMonoid M] (Inv : σ → Prop) {P : σ → ε → Prop}
    (hstep : ∀ s e, Inv s → P s e → Inv (step s e)) (μ : σ → M)
    (inn : σ → ε → M)
    (h : ∀ s e, Inv s → P s e → μ (step s e) = μ s + inn s e) {s : σ}
    {es : List ε} (hs : Inv s) (hP : EveryStep step P s es) :
    μ (runFrom step s es) = μ s + total step inn s es := by
  have hbalance := balance Inv hstep μ inn (fun _ _ => 0)
    (fun t e ht he => by rw [h t e ht he, add_zero]) hs hP
  rwa [total_zero, add_zero] at hbalance

/-- A measure that grows by `inn` at each step, or by less. -/
theorem growth_le (μ : σ → Nat) (inn : σ → ε → Nat)
    (h : ∀ s e, μ (step s e) ≤ μ s + inn s e) (s : σ) (es : List ε) :
    μ (runFrom step s es) ≤ μ s + total step inn s es := by
  induction es generalizing s with
  | nil => exact Nat.le_refl _
  | cons e es ih =>
      rw [runFrom_cons, total_cons]
      calc μ (runFrom step (step s e) es)
          ≤ μ (step s e) + total step inn (step s e) es := ih (step s e)
        _ ≤ μ s + (inn s e + total step inn (step s e) es) := by
            have hstep := h s e
            omega

theorem total_mul_left (k : Nat) (f : σ → ε → Nat) (s : σ) (es : List ε) :
    total step (fun s e => k * f s e) s es = k * total step f s es := by
  induction es generalizing s with
  | nil => rfl
  | cons e es ih => rw [total_cons, total_cons, ih, Nat.mul_add]

/-- The total of a function of the events alone is a count over the list. -/
theorem total_eq_countP (p : ε → Bool) (s : σ) (es : List ε) :
    total step (fun _ e => if p e then 1 else 0) s es = es.countP p := by
  induction es generalizing s with
  | nil => rfl
  | cons e es ih => rw [total_cons, ih, List.countP_cons, Nat.add_comm]

end LidarPublisher.Lib.Accounting
