import LidarPublisher.Lib.Run

/-!
# One system seen through another

A view maps the states of a system to those of a simpler one such that every
step is matched by some steps of the simpler system, possibly none.  A run is
then matched by a run, and a step of the simpler run is found again in the
larger one.
-/

namespace LidarPublisher.Lib.Simulation

open LidarPublisher.Lib.Run

variable {σ ε τ φ : Type*} {step : σ → ε → σ} {step' : τ → φ → τ}

/-- The steps of the simpler system that match those of a run. -/
def traceFrom (step : σ → ε → σ) (events : σ → ε → List φ) (s : σ) :
    List ε → List φ
  | [] => []
  | e :: es => events s e ++ traceFrom step events (step s e) es

/-- Steps that match as long as the run meets `P` make runs that match. -/
theorem state_runFrom_of_everyStep (state : σ → τ) (events : σ → ε → List φ)
    (Inv : σ → Prop) {P : σ → ε → Prop}
    (hstep : ∀ s e, Inv s → P s e → Inv (step s e) ∧
      state (step s e) = runFrom step' (state s) (events s e)) {s : σ}
    {es : List ε} (hs : Inv s) (hP : EveryStep step P s es) :
    Inv (runFrom step s es) ∧
      state (runFrom step s es) =
        runFrom step' (state s) (traceFrom step events s es) := by
  induction es generalizing s with
  | nil => exact ⟨hs, rfl⟩
  | cons e es ih =>
      rcases hP with ⟨he, hes⟩
      rcases hstep s e hs he with ⟨hinv, hmatch⟩
      rcases ih hinv hes with ⟨hend, hrest⟩
      refine ⟨hend, ?_⟩
      rw [runFrom_cons, hrest, hmatch, traceFrom, runFrom_append]

/-- Steps that match under an invariant make runs that match, when the events
alone say which steps match. -/
theorem state_runFrom_of_inv {state : σ → τ} {events : ε → List φ}
    (Inv : σ → Prop) (hinv : ∀ s e, Inv s → Inv (step s e))
    (hstep : ∀ s e, Inv s →
      state (step s e) = runFrom step' (state s) (events e)) {s : σ} (hs : Inv s)
    (es : List ε) :
    state (runFrom step s es) = runFrom step' (state s) (es.flatMap events) := by
  induction es generalizing s with
  | nil => rfl
  | cons e es ih =>
      rw [runFrom_cons, ih (hinv s e hs), hstep s e hs, List.flatMap_cons,
        runFrom_append]

/-- A simulation by a function of the state, where `events` says which steps
match. -/
structure View (step : σ → ε → σ) (step' : τ → φ → τ) where
  state : σ → τ
  events : σ → ε → List φ
  state_step : ∀ s e, state (step s e) = runFrom step' (state s) (events s e)

namespace View

variable (v : View step step')

/-- The run that matches. -/
def trace (s : σ) (es : List ε) : List φ := traceFrom step v.events s es

@[simp] theorem trace_nil (s : σ) : v.trace s [] = [] := rfl

@[simp] theorem trace_cons (s : σ) (e : ε) (es : List ε) :
    v.trace s (e :: es) = v.events s e ++ v.trace (step s e) es := rfl

/-- **Runs match runs.** -/
theorem state_runFrom (s : σ) (es : List ε) :
    v.state (runFrom step s es) = runFrom step' (v.state s) (v.trace s es) := by
  exact (state_runFrom_of_everyStep v.state v.events (fun _ => True)
    (P := fun _ _ => True) (fun t e _ _ => ⟨trivial, v.state_step t e⟩) trivial
    (everyStep_of_forall_mem s fun _ _ => trivial)).2

/-- What is read off the steps of the run is read off those of the matching
run. -/
theorem filterMap_trace {β : Type*} {f : ε → Option β} {g : φ → Option β}
    (h : ∀ s e, (v.events s e).filterMap g = (f e).toList) (s : σ)
    (es : List ε) : (v.trace s es).filterMap g = es.filterMap f := by
  induction es generalizing s with
  | nil => rfl
  | cons e es ih =>
      rw [trace_cons, List.filterMap_append, h, ih, List.filterMap_cons]
      cases f e <;> rfl

/-- An event of the matching run comes of one of the run. -/
theorem exists_of_mem_trace {s : σ} {es : List ε} {f : φ}
    (h : f ∈ v.trace s es) : ∃ t, ∃ e ∈ es, f ∈ v.events t e := by
  induction es generalizing s with
  | nil => exact absurd h List.not_mem_nil
  | cons e es ih =>
      rw [trace_cons] at h
      rcases List.mem_append.mp h with hhead | htail
      · exact ⟨s, e, List.mem_cons_self, hhead⟩
      · rcases ih htail with ⟨t, e', hmem, hf⟩
        exact ⟨t, e', List.mem_cons_of_mem _ hmem, hf⟩

/-- A view of a view. -/
def comp {υ ψ : Type*} {step'' : υ → ψ → υ} (w : View step' step'')
    (v : View step step') : View step step'' where
  state := w.state ∘ v.state
  events s e := w.trace (v.state s) (v.events s e)
  state_step s e := by
    show w.state (v.state (step s e)) = _
    rw [v.state_step, w.state_runFrom]
    rfl

/-- A step of the matching run belongs to a step of the run. -/
theorem exists_of_trace_eq {s : σ} {es : List ε} {pre post : List φ} {f : φ}
    (h : v.trace s es = pre ++ f :: post) :
    ∃ (before : List ε) (e : ε) (after : List ε) (a b : List φ),
      es = before ++ e :: after ∧
        v.events (runFrom step s before) e = a ++ f :: b ∧
        pre = v.trace s before ++ a ∧
        post = b ++ v.trace (runFrom step s (before ++ [e])) after := by
  induction es generalizing s pre with
  | nil => simp at h
  | cons e es ih =>
      rw [trace_cons] at h
      rcases List.append_eq_append_iff.mp h with ⟨a, hpre, hrest⟩ | ⟨b, he, hpost⟩
      · rcases ih hrest with ⟨before, e', after, a', b, rfl, hev, rfl, rfl⟩
        refine ⟨e :: before, e', after, a', b, rfl, hev, ?_, rfl⟩
        rw [hpre, trace_cons, List.append_assoc]
      · cases b with
        | nil =>
            -- the step is the first one of the rest
            rw [List.nil_append] at hpost
            rw [List.append_nil] at he
            have hrest : v.trace (step s e) es = [] ++ f :: post := hpost.symm
            rcases ih hrest with ⟨before, e', after, a', b, rfl, hev, hnil, rfl⟩
            refine ⟨e :: before, e', after, a', b, rfl, hev, ?_, rfl⟩
            rw [trace_cons, he, List.append_assoc, ← hnil, List.append_nil]
        | cons g b =>
            rw [List.cons_append] at hpost
            rcases List.cons.inj hpost with ⟨rfl, rfl⟩
            exact ⟨[], e, es, pre, b, rfl, he, rfl, rfl⟩

end View

end LidarPublisher.Lib.Simulation
