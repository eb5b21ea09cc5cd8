import Mathlib.Data.List.Basic

/-!
# Runs of a deterministic step function

A system is a step function `σ → ε → σ`; a run feeds it a finite list of
events.  `EveryStep` lifts a predicate on "state before, event" to all the
steps of a run.  The transfer lemmas below are what the invariants of the
server, the publisher and the handle ledger are assembled from: prove what one
step preserves, and obtain what every run preserves.
-/

namespace LidarPublisher.Lib.Run

variable {σ ε : Type*} {step : σ → ε → σ}

/-- The state a run ends in. -/
def runFrom (step : σ → ε → σ) (s : σ) : List ε → σ
  | [] => s
  | e :: es => runFrom step (step s e) es

@[simp] theorem runFrom_nil (s : σ) : runFrom step s [] = s := rfl

@[simp] theorem runFrom_cons (s : σ) (e : ε) (es : List ε) :
    runFrom step s (e :: es) = runFrom step (step s e) es := rfl

theorem runFrom_append (s : σ) (es fs : List ε) :
    runFrom step s (es ++ fs) = runFrom step (runFrom step s es) fs := by
  induction es generalizing s with
  | nil => rfl
  | cons e es ih => exact ih (step s e)

/-- `P` holds of the state before, and the event of, every step of the run. -/
def EveryStep (step : σ → ε → σ) (P : σ → ε → Prop) (s : σ) : List ε → Prop
  | [] => True
  | e :: es => P s e ∧ EveryStep step P (step s e) es

@[simp] theorem everyStep_nil (P : σ → ε → Prop) (s : σ) :
    EveryStep step P s [] ↔ True := Iff.rfl

@[simp] theorem everyStep_cons (P : σ → ε → Prop) (s : σ) (e : ε)
    (es : List ε) :
    EveryStep step P s (e :: es) ↔
      P s e ∧ EveryStep step P (step s e) es := Iff.rfl

theorem everyStep_append {P : σ → ε → Prop} {s : σ} {es fs : List ε} :
    EveryStep step P s (es ++ fs) ↔
      EveryStep step P s es ∧ EveryStep step P (runFrom step s es) fs := by
  induction es generalizing s with
  | nil => simp
  | cons e es ih =>
      rw [List.cons_append, everyStep_cons, everyStep_cons, ih, and_assoc]
      rfl

/-- A property of every step, read at a split of the event list. -/
theorem everyStep_iff_split (P : σ → ε → Prop) (s : σ) (es : List ε) :
    EveryStep step P s es ↔
      ∀ pre e post, es = pre ++ e :: post → P (runFrom step s pre) e := by
  induction es generalizing s with
  | nil => simp
  | cons a es ih =>
      rw [everyStep_cons, ih]
      constructor
      · intro h pre e post heq
        rcases h with ⟨ha, hrest⟩
        cases pre with
        | nil =>
            obtain ⟨rfl, rfl⟩ := List.cons.inj heq
            exact ha
        | cons b pre =>
            obtain ⟨rfl, htail⟩ := List.cons.inj heq
            exact hrest pre e post htail
      · intro h
        refine ⟨h [] a es rfl, fun pre e post heq => ?_⟩
        exact h (a :: pre) e post (by rw [heq]; rfl)

/-- A property of all the events is one of all the steps. -/
theorem everyStep_of_forall_mem {P : ε → Prop} (s : σ) {es : List ε}
    (h : ∀ e ∈ es, P e) : EveryStep step (fun _ e => P e) s es := by
  induction es generalizing s with
  | nil => trivial
  | cons e es ih =>
      rcases List.forall_mem_cons.mp h with ⟨he, hes⟩
      exact ⟨he, ih (step s e) hes⟩

/-- What every step preserves, every run preserves. -/
theorem inv_runFrom (Inv : σ → Prop)
    (hstep : ∀ s e, Inv s → Inv (step s e)) (s : σ) (es : List ε)
    (hs : Inv s) : Inv (runFrom step s es) := by
  induction es generalizing s with
  | nil => exact hs
  | cons e es ih => exact ih (step s e) (hstep s e hs)

/-- An invariant kept by the steps that meet `P` holds at the end of a run
all of whose steps meet `P`. -/
theorem inv_runFrom_of_everyStep (Inv : σ → Prop) {P : σ → ε → Prop}
    (hstep : ∀ s e, Inv s → P s e → Inv (step s e)) (s : σ) (es : List ε)
    (hs : Inv s) (hP : EveryStep step P s es) : Inv (runFrom step s es) := by
  induction es generalizing s with
  | nil => exact hs
  | cons e es ih => exact ih (step s e) (hstep s e hs hP.1) hP.2

/-- Under an invariant kept by the steps that meet `P`, a consequence `Q` of
`P` at one step is a consequence along the whole run. -/
theorem EveryStep.of_inv {Inv : σ → Prop} {P Q : σ → ε → Prop}
    (hstep : ∀ s e, Inv s → P s e → Inv (step s e))
    (hPQ : ∀ s e, Inv s → P s e → Q s e) {s : σ} {es : List ε}
    (hs : Inv s) (hP : EveryStep step P s es) : EveryStep step Q s es := by
  induction es generalizing s with
  | nil => trivial
  | cons e es ih =>
      exact ⟨hPQ s e hs hP.1, ih (hstep s e hs hP.1) hP.2⟩

/-- Under an invariant of every step, predicates that agree on the states of
the invariant agree along the whole run. -/
theorem everyStep_congr_of_inv (Inv : σ → Prop) {P Q : σ → ε → Prop}
    (hstep : ∀ s e, Inv s → Inv (step s e))
    (hPQ : ∀ s e, Inv s → (P s e ↔ Q s e)) (s : σ) (es : List ε)
    (hs : Inv s) : EveryStep step P s es ↔ EveryStep step Q s es :=
  ⟨EveryStep.of_inv (fun t e ht _ => hstep t e ht)
      (fun t e ht => (hPQ t e ht).mp) hs,
    EveryStep.of_inv (fun t e ht _ => hstep t e ht)
      (fun t e ht => (hPQ t e ht).mpr) hs⟩

/-- When a step keeps the invariant exactly if it meets `P`, the invariant holds
in every state of a run exactly if every step of it meets `P`. -/
theorem forall_prefix_iff_everyStep (Inv : σ → Prop) {P : σ → ε → Prop}
    (hstep : ∀ s e, Inv s → (Inv (step s e) ↔ P s e)) (s : σ) (es : List ε)
    (hs : Inv s) :
    (∀ pre, pre <+: es → Inv (runFrom step s pre)) ↔ EveryStep step P s es := by
  induction es generalizing s with
  | nil =>
      apply iff_of_true _ trivial
      intro pre hpre
      rw [List.prefix_nil.mp hpre]
      exact hs
  | cons e es ih =>
      rw [everyStep_cons]
      constructor
      · intro h
        have hnext : Inv (step s e) := h [e] ⟨es, rfl⟩
        refine ⟨(hstep s e hs).mp hnext, (ih (step s e) hnext).mp ?_⟩
        intro pre hpre
        exact h (e :: pre) (List.prefix_cons_inj e |>.mpr hpre)
      · intro h pre hpre
        rcases h with ⟨he, hes⟩
        have hnext : Inv (step s e) := (hstep s e hs).mpr he
        cases pre with
        | nil => exact hs
        | cons a pre =>
            obtain ⟨rfl, htail⟩ := List.cons_prefix_cons.mp hpre
            exact (ih (step s a) hnext).mpr hes pre htail

end LidarPublisher.Lib.Run
