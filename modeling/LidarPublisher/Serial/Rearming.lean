import LidarPublisher.Lib.Run
import LidarPublisher.Serial.Handler

/-!
# Whether the serial reader stays armed

While the port is open one read should be outstanding.  `on_receive` starts the
next read after an error and not after a success, so the first chunk disarms the
reader.  Two rarer events break the count as well: a start that throws behind
the open, and the handler of a read that `stop` cancelled, which starts a read of
its own when it meets the next port.
-/

namespace LidarPublisher.Serial.Rearming

open LidarPublisher.Lib.Run
open LidarPublisher.Lib.Bytes
open LidarPublisher.Lib.Lines
open LidarPublisher.Serial.Handler

/-- On an open port exactly one read is outstanding. -/
def Armed (s : SerialHandler) : Prop :=
  ∀ p, s.port = some p → p.isOpen = true → p.outstanding = 1

/-- The events that leave the reader armed: no chunk is received, no option is
refused by a device that was opened, and no cancelled read is reported while a
port is open. -/
def KeepsArmed (s : SerialHandler) : Event → Prop
  | .start device => device = .setOptionThrows → s.port.isSome = true
  | .stop _ => True
  | .setEolChar _ => True
  | .completion (.success _) => ¬PortOpen s
  | .completion .error => True
  | .staleCompletion (.success _) => True
  | .staleCompletion .error => PortOpen s → s.cancelled = 0

/-! ## One event -/

theorem armed_of_port_eq {s s' : SerialHandler} (h : s'.port = s.port) :
    Armed s' ↔ Armed s := by
  unfold Armed
  rw [h]

theorem armed_of_fresh_closed {s : SerialHandler}
    (h : s.port = some (.fresh false)) : Armed s := by
  intro p hp hopen
  rw [h] at hp
  obtain rfl := Option.some.inj hp
  exact absurd hopen (by decide)

theorem armed_of_none {s : SerialHandler} (h : s.port = none) : Armed s := by
  intro p hp _
  rw [h] at hp
  exact absurd hp (by simp)

/-- An open port decides. -/
theorem armed_iff_of_open {s : SerialHandler} {p : SerialPort}
    (h : s.port = some p) (hopen : p.isOpen = true) :
    Armed s ↔ p.outstanding = 1 := by
  constructor
  · intro harmed
    exact harmed p h hopen
  · intro hone q hq _
    rw [h] at hq
    rwa [← Option.some.inj hq]

/-- Starting leaves an armed reader unless the device refuses the baud rate. -/
theorem armed_start_iff {s : SerialHandler} (h : Armed s) (device : Device) :
    Armed (start device s).2 ↔ KeepsArmed s (.start device) := by
  cases hport : s.port with
  | some p =>
      rw [start_of_port hport]
      refine iff_of_true h fun _ => ?_
      rw [hport]
      rfl
  | none =>
      rw [start_of_none hport]
      cases device with
      | works =>
          refine iff_of_true ?_ fun hdev => by cases hdev
          rw [armed_iff_of_open rfl rfl]
          rfl
      | openFails =>
          exact iff_of_true (armed_of_fresh_closed rfl) fun hdev => by cases hdev
      | setOptionThrows =>
          apply iff_of_false
          · rw [armed_iff_of_open (p := .fresh true) rfl rfl]
            decide
          · intro hkeeps
            have hset := hkeeps rfl
            simp [hport] at hset

theorem armed_stop {s : SerialHandler} (h : Armed s) (cancelThrows : Bool) :
    Armed (stop cancelThrows s).2 := by
  unfold stop
  cases hp : s.port with
  | none => exact h
  | some p =>
      dsimp only
      split
      · exact h
      · exact armed_of_none rfl

/-- The handler of a read meets an open port, or does not touch the port. -/
theorem armed_handleRead_iff {s : SerialHandler} {p : SerialPort}
    (hp : s.port = some p) (hopen : p.isOpen = true) (r : ReadResult) :
    Armed (handleRead r s) ↔
      match r with
      | .success _ => p.outstanding = 1
      | .error => p.outstanding + 1 = 1 := by
  cases r with
  | success chunk =>
      rw [handleRead_success hp hopen]
      exact armed_iff_of_open (p := p) hp hopen
  | error =>
      rw [handleRead_error hp hopen]
      exact armed_iff_of_open (p := p.asyncReadSome) rfl hopen

theorem armed_handleRead_of_closed {s : SerialHandler} (h : ¬PortOpen s)
    (r : ReadResult) : Armed (handleRead r s) := by
  rw [armed_of_port_eq (handleRead_port_of_closed h r)]
  intro p hp hopen
  exact absurd ⟨p, hp, hopen⟩ h

/-- The completion of the outstanding read re-arms the reader after an error
only. -/
theorem armed_completion_iff {s : SerialHandler} (h : Armed s)
    (r : ReadResult) :
    Armed (step s (.completion r)) ↔ KeepsArmed s (.completion r) := by
  -- with no open port nothing counts
  have hidle (hclosed : ¬PortOpen s) : KeepsArmed s (.completion r) := by
    cases r with
    | success chunk => exact hclosed
    | error => trivial
  unfold step
  cases hp : s.port with
  | none =>
      refine iff_of_true h (hidle fun hopen => ?_)
      rcases hopen with ⟨q, hq, -⟩
      rw [hp] at hq
      exact absurd hq (by simp)
  | some p =>
      dsimp only
      by_cases hopen : p.isOpen = true
      · have hone : p.outstanding = 1 := h p hp hopen
        rw [if_neg (by omega), armed_handleRead_iff (p := p.complete) rfl hopen]
        have hzero : p.complete.outstanding = 0 := by
          show p.outstanding - 1 = 0
          omega
        cases r with
        | success chunk =>
            apply iff_of_false
            · dsimp only
              omega
            · exact fun hclosed => hclosed ⟨p, hp, hopen⟩
        | error =>
            refine iff_of_true ?_ trivial
            dsimp only
            omega
      · have hclosed : ∀ q, some p = some q → q.isOpen ≠ true := by
          intro q hq
          rwa [← Option.some.inj hq]
        refine iff_of_true ?_ (hidle fun ⟨q, hq, hqopen⟩ =>
          hclosed q (hp.symm.trans hq) hqopen)
        split
        · exact h
        · apply armed_handleRead_of_closed
          intro h
          rcases h with ⟨q, hq, hqopen⟩
          obtain rfl := Option.some.inj hq
          exact hopen hqopen

/-- A cancelled read that reports an error to an open port starts a second
read. -/
theorem armed_staleCompletion_iff {s : SerialHandler} (h : Armed s)
    (r : ReadResult) :
    Armed (step s (.staleCompletion r)) ↔ KeepsArmed s (.staleCompletion r) := by
  unfold step
  dsimp only
  by_cases hnone : s.cancelled = 0
  · rw [if_pos hnone]
    refine iff_of_true h ?_
    cases r with
    | success chunk => trivial
    | error => exact fun _ => hnone
  · rw [if_neg hnone]
    by_cases hopen : PortOpen s
    · rcases hopen with ⟨p, hp, hpopen⟩
      have hone : p.outstanding = 1 := h p hp hpopen
      rw [armed_handleRead_iff (s := { s with cancelled := s.cancelled - 1 }) hp
        hpopen]
      cases r with
      | success chunk => exact iff_of_true hone trivial
      | error =>
          apply iff_of_false
          · dsimp only
            omega
          · exact fun hkeeps => hnone (hkeeps ⟨p, hp, hpopen⟩)
    · refine iff_of_true (armed_handleRead_of_closed
        (s := { s with cancelled := s.cancelled - 1 }) hopen r) ?_
      cases r with
      | success chunk => trivial
      | error => exact fun hopen' => absurd hopen' hopen

/-- **One event.**  From an armed state exactly the events of `KeepsArmed` lead
to an armed state. -/
theorem armed_step_iff {s : SerialHandler} (h : Armed s) (e : Event) :
    Armed (step s e) ↔ KeepsArmed s e := by
  cases e with
  | start device => exact armed_start_iff h device
  | stop cancelThrows => exact iff_of_true (armed_stop h cancelThrows) trivial
  | setEolChar b => exact iff_of_true h trivial
  | completion r => exact armed_completion_iff h r
  | staleCompletion r => exact armed_staleCompletion_iff h r

/-! ## All events -/

/-- The reader is armed, and the chunk that arrives next is read. -/
structure Reading (s : SerialHandler) : Prop where
  armed : Armed s
  reads : PortOpen s → ∀ chunk,
    (step s (.completion (.success chunk))).readBufStr =
        residue s.endOfLineChar s.readBufStr chunk.bytes ∧
      (step s (.completion (.success chunk))).delivered =
        s.delivered ++ segments s.endOfLineChar s.readBufStr chunk.bytes

/-- An armed reader reads what arrives. -/
theorem reading_iff_armed (s : SerialHandler) : Reading s ↔ Armed s := by
  refine ⟨Reading.armed, fun h => ⟨h, ?_⟩⟩
  intro h chunk
  rcases h with ⟨p, hp, hopen⟩
  have hone : p.outstanding = 1 := h p hp hopen
  unfold step
  rw [hp]
  dsimp only
  rw [if_neg (by omega), handleRead_success (p := p.complete) rfl hopen]
  exact ⟨rfl, rfl⟩

/-- **The reader stays armed until the first chunk.**  In every state of a run
from construction an open port has exactly one outstanding read, and what
arrives next is read, if and only if no chunk is received on an open port, no
start throws behind a successful open, and no cancelled read reports its error
to an open port. -/
theorem reading_forever_iff
    (garbage : Vector UInt8 serialPortReadBufSize) (es : List Event) :
    (∀ pre, pre <+: es →
      Reading (runFrom step (SerialHandler.init garbage) pre)) ↔
      EveryStep step KeepsArmed (SerialHandler.init garbage) es := by
  simp only [reading_iff_armed]
  exact forall_prefix_iff_everyStep Armed (fun s e hs => armed_step_iff hs e) _ es
    (armed_of_none rfl)

/-- One line arrives after the start. -/
theorem not_reading_forever :
    ¬∀ (garbage : Vector UInt8 serialPortReadBufSize) (es : List Event),
      Reading (runFrom step (SerialHandler.init garbage) es) := by
  intro h
  have harmed := (h (Vector.replicate serialPortReadBufSize 0)
    [.start .works,
      .completion (.success { bytes := ascii "a\n", fits := by decide })]).armed
  have hone := harmed { isOpen := true, issued := 1, outstanding := 0 } rfl rfl
  exact absurd hone (by decide)

end LidarPublisher.Serial.Rearming
