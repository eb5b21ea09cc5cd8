import LidarPublisher.Lib.Run
import LidarPublisher.Serial.Handler

/-!
# Starting again after a failure

`start` takes a set port pointer for an open port, but sets the pointer before
the steps that can fail and clears it nowhere.  After the first failure the
pointer stands for a port without a reader, and only `stop` helps.
-/

namespace LidarPublisher.Serial.Retry

open LidarPublisher.Lib.Run
open LidarPublisher.Serial.Handler

/-- The port pointer is set exactly if the port is open with a read started. -/
def Represented (s : SerialHandler) : Prop :=
  s.port.isSome = true ↔ ∃ p, s.port = some p ∧ p.isOpen = true ∧ 0 < p.issued

/-- In every state of the run the pointer tells whether there is a reader; a
start that fails on the device leaves the state as it was, and the next start on
a working device succeeds. -/
structure Retriable (s : SerialHandler) (es : List Event) : Prop where
  represented : ∀ pre, pre <+: es → Represented (runFrom step s pre)
  retried : ∀ pre device post, es = pre ++ .start device :: post →
    (runFrom step s pre).port = none → device ≠ .works →
      (start device (runFrom step s pre)).2 = runFrom step s pre ∧
        (start .works (start device (runFrom step s pre)).2).1 = some true

/-- The event is not a start that fails on the device. -/
def StartSucceeds (s : SerialHandler) (e : Event) : Prop :=
  ∀ device, e = .start device → s.port = none → device = .works

/-! ## One event -/

theorem represented_of_none {s : SerialHandler} (h : s.port = none) :
    Represented s := by
  unfold Represented
  simp [h]

theorem represented_iff_of_some {s : SerialHandler} {p : SerialPort}
    (h : s.port = some p) :
    Represented s ↔ p.isOpen = true ∧ 0 < p.issued := by
  unfold Represented
  simp [h]

/-- Exactly the starts that do not fail keep the meaning of the pointer. -/
theorem represented_start_iff {s : SerialHandler} (h : Represented s)
    (device : Device) :
    Represented (start device s).2 ↔ StartSucceeds s (.start device) := by
  cases hport : s.port with
  | some p =>
      rw [start_of_port hport]
      refine iff_of_true h fun device' _ hnone => ?_
      rw [hport] at hnone
      exact absurd hnone (by simp)
  | none =>
      have hiff : StartSucceeds s (.start device) ↔ device = .works := by
        unfold StartSucceeds
        simp [hport]
      rw [hiff, start_of_none hport]
      cases device with
      | works =>
          refine iff_of_true ?_ rfl
          rw [represented_iff_of_some rfl]
          exact ⟨rfl, Nat.one_pos⟩
      | openFails =>
          refine iff_of_false ?_ (by decide)
          rw [represented_iff_of_some rfl]
          decide
      | setOptionThrows =>
          refine iff_of_false ?_ (by decide)
          rw [represented_iff_of_some rfl]
          decide

theorem represented_stop {s : SerialHandler} (h : Represented s)
    (cancelThrows : Bool) : Represented (stop cancelThrows s).2 := by
  unfold stop
  cases hp : s.port with
  | none => exact h
  | some p =>
      dsimp only
      split
      · exact h
      · exact represented_of_none rfl

/-- The handler of a read finds a reader, or no port. -/
theorem represented_handleRead {s : SerialHandler} (h : Represented s)
    (r : ReadResult) : Represented (handleRead r s) := by
  cases hp : s.port with
  | none =>
      apply represented_of_none
      rw [handleRead_port_of_closed (not_portOpen_of_none hp) r, hp]
  | some p =>
      rcases (represented_iff_of_some hp).mp h with ⟨hopen, hissued⟩
      cases r with
      | success chunk =>
          rw [handleRead_success hp hopen]
          exact (represented_iff_of_some (p := p) hp).mpr ⟨hopen, hissued⟩
      | error =>
          rw [handleRead_error hp hopen]
          exact (represented_iff_of_some (p := p.asyncReadSome) rfl).mpr
            ⟨hopen, Nat.succ_pos _⟩

/-- **One event.**  The pointer keeps its meaning unless a start fails. -/
theorem represented_step_iff {s : SerialHandler} (h : Represented s) (e : Event) :
    Represented (step s e) ↔ StartSucceeds s e := by
  cases e with
  | start device => exact represented_start_iff h device
  | stop cancelThrows =>
      exact iff_of_true (represented_stop h cancelThrows) fun _ heq _ => by cases heq
  | setEolChar b => exact iff_of_true h fun _ heq _ => by cases heq
  | completion r =>
      refine iff_of_true ?_ fun _ heq _ => by cases heq
      unfold step
      cases hp : s.port with
      | none => exact h
      | some p =>
          dsimp only
          split
          · exact h
          · rcases (represented_iff_of_some hp).mp h with ⟨hopen, hissued⟩
            apply represented_handleRead
            exact (represented_iff_of_some (p := p.complete) rfl).mpr
              ⟨hopen, hissued⟩
  | staleCompletion r =>
      refine iff_of_true ?_ fun _ heq _ => by cases heq
      unfold step
      dsimp only
      split
      · exact h
      · exact represented_handleRead (s := { s with cancelled := s.cancelled - 1 }) h r

/-! ## Runs -/

/-- A start that fails on the device is not retried: the next one says that the
port is open already. -/
theorem start_of_failed {s : SerialHandler} (h : s.port = none) {device : Device}
    (hfails : device ≠ .works) (device' : Device) :
    (start device' (start device s).2).1 = some false := by
  rw [start_of_none h]
  cases device with
  | works => exact absurd rfl hfails
  | openFails => rw [start_of_port (p := .fresh false) rfl]
  | setOptionThrows => rw [start_of_port (p := .fresh true) rfl]

/-- **When a start can be retried.**  Along a run from construction the pointer
keeps its meaning, and failed starts can be retried, if and only if no start
fails on the device. -/
theorem retriable_iff (garbage : Vector UInt8 serialPortReadBufSize)
    (es : List Event) :
    Retriable (SerialHandler.init garbage) es ↔
      EveryStep step StartSucceeds (SerialHandler.init garbage) es := by
  have hforever := forall_prefix_iff_everyStep Represented
    (fun _ e hs => represented_step_iff hs e) (SerialHandler.init garbage) es
    (represented_of_none rfl)
  constructor
  · intro h
    exact hforever.mp h.represented
  · intro h
    refine { represented := hforever.mpr h, retried := ?_ }
    intro pre device post heq hnone hfails
    have hstart := (everyStep_iff_split _ _ _).mp h pre (.start device) post heq
    exact absurd (hstart device rfl hnone) hfails

/-- The device is plugged in after the first start. -/
theorem not_retriable :
    ¬∀ (garbage : Vector UInt8 serialPortReadBufSize) (es : List Event),
      Retriable (SerialHandler.init garbage) es := by
  intro h
  have hretried := ((h (Vector.replicate serialPortReadBufSize 0)
    [.start .openFails]).retried [] .openFails [] rfl rfl (by decide)).2
  rw [start_of_failed rfl (by decide)] at hretried
  exact absurd hretried (by decide)

end LidarPublisher.Serial.Retry
