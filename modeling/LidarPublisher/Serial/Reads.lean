import LidarPublisher.Lib.Accounting
import LidarPublisher.Serial.Handler

/-!
# A start reads one chunk

Every read of the serial port was issued by a start, or took the place of one
that ended in an error.  So the reads are paid for by the starts, and with them
the bytes that can ever be received.
-/

namespace LidarPublisher.Serial.Reads

open LidarPublisher.Lib.Run
open LidarPublisher.Lib.Accounting
open LidarPublisher.Lib.Bytes
open LidarPublisher.Lib.Lines
open LidarPublisher.Serial.Handler

/-- The bytes received: those of the lines, their ends, and the unfinished
line. -/
def bytesReceived (s : SerialHandler) : Nat :=
  s.delivered.flatten.length + s.delivered.length + s.readBufStr.length

/-- A start that finds no port and opens the device: it issues a read. -/
def opens (s : SerialHandler) : Event → Nat
  | .start .works => if s.port.isSome = true then 0 else 1
  | _ => 0

/-- What the reads pending can still bring, on top of what they brought. -/
def budget (s : SerialHandler) : Nat :=
  bytesReceived s + serialPortReadBufSize * pending s

/-! ## One event -/

/-- The handler of a read brings one chunk or issues one read. -/
theorem budget_handleRead (r : ReadResult) (s : SerialHandler) :
    budget (handleRead r s) ≤ budget s + serialPortReadBufSize := by
  by_cases hopen : PortOpen s
  · rcases hopen with ⟨p, hp, hpopen⟩
    cases r with
    | success chunk =>
        have hlength := length_segments_add s.endOfLineChar s.readBufStr
          chunk.bytes
        have hfits := chunk.fits
        have hbytes : bytesReceived (handleRead (.success chunk) s) =
            bytesReceived s + chunk.bytes.length := by
          rw [handleRead_success hp hpopen]
          unfold bytesReceived
          dsimp only
          rw [List.flatten_append, List.length_append, List.length_append]
          omega
        have hpending : pending (handleRead (.success chunk) s) = pending s := by
          rw [handleRead_success hp hpopen]
          rfl
        unfold budget
        rw [hbytes, hpending]
        omega
    | error =>
        have hpending : pending { s with port := some p.asyncReadSome } =
            pending s + 1 := by
          unfold pending
          rw [hp]
          simp only [SerialPort.asyncReadSome, Option.map_some, Option.getD_some]
          omega
        rw [handleRead_error hp hpopen]
        unfold budget
        rw [hpending]
        exact Nat.le_of_eq (by rw [Nat.mul_add, Nat.mul_one, ← Nat.add_assoc]; rfl)
  · rcases handleRead_of_closed hopen r with ⟨raw, hraw⟩
    rw [hraw]
    exact Nat.le_add_right _ _

/-- One read less is pending. -/
theorem budget_of_pending {s t : SerialHandler}
    (hsame : bytesReceived t = bytesReceived s)
    (hpending : pending t + 1 = pending s) :
    budget t + serialPortReadBufSize = budget s := by
  unfold budget
  rw [hsame, ← hpending, Nat.mul_add, Nat.mul_one, Nat.add_assoc]

theorem budget_start (device : Device) (s : SerialHandler) :
    budget (start device s).2 ≤
      budget s + serialPortReadBufSize * opens s (.start device) := by
  cases hport : s.port with
  | some p =>
      rw [start_of_port hport]
      exact Nat.le_add_right _ _
  | none =>
      rw [start_of_none hport]
      have hpending : pending s = s.cancelled := by
        unfold pending
        rw [hport]
        exact Nat.zero_add _
      unfold budget
      rw [hpending]
      cases device with
      | works =>
          have hone : opens s (.start .works) = 1 := by simp [opens, hport]
          rw [hone]
          show bytesReceived s + 256 * (0 + 1 + s.cancelled) ≤
            bytesReceived s + 256 * s.cancelled + 256 * 1
          omega
      | openFails =>
          show bytesReceived s + 256 * (0 + s.cancelled) ≤
            bytesReceived s + 256 * s.cancelled
          omega
      | setOptionThrows =>
          show bytesReceived s + 256 * (0 + s.cancelled) ≤
            bytesReceived s + 256 * s.cancelled
          omega

/-- Closing the port moves its reads to those of earlier ports. -/
theorem budget_stop (cancelThrows : Bool) (s : SerialHandler) :
    budget (stop cancelThrows s).2 = budget s := by
  unfold stop
  cases hp : s.port with
  | none => rfl
  | some p =>
      dsimp only
      split
      · rfl
      · unfold budget pending
        rw [hp]
        show bytesReceived s + serialPortReadBufSize *
            (0 + (s.cancelled + p.outstanding)) =
          bytesReceived s + serialPortReadBufSize * (p.outstanding + s.cancelled)
        rw [Nat.zero_add, Nat.add_comm s.cancelled]

/-- Only a start that opens the device adds to the budget. -/
theorem budget_step (s : SerialHandler) (e : Event) :
    budget (step s e) ≤ budget s + serialPortReadBufSize * opens s e := by
  cases e with
  | start device => exact budget_start device s
  | stop cancelThrows => exact Nat.le_of_eq (budget_stop cancelThrows s)
  | setEolChar b => exact Nat.le_refl _
  | completion r =>
      unfold step
      cases hp : s.port with
      | none => exact Nat.le_refl _
      | some p =>
          dsimp only
          split
          · exact Nat.le_refl _
          · next houtstanding =>
              refine (budget_handleRead r _).trans (Nat.le_of_eq ?_)
              apply budget_of_pending
              · rfl
              · unfold pending
                rw [hp]
                show p.outstanding - 1 + s.cancelled + 1 =
                  p.outstanding + s.cancelled
                omega
  | staleCompletion r =>
      unfold step
      dsimp only
      split
      · exact Nat.le_refl _
      · refine (budget_handleRead r _).trans (Nat.le_of_eq ?_)
        apply budget_of_pending
        · rfl
        · unfold pending
          dsimp only
          omega

/-- **A start reads one chunk.**  Over any run from construction, all the bytes
received, together with a full buffer for every read pending, are at most a full
buffer for every start that opened the device. -/
theorem received_le_starts (garbage : Vector UInt8 serialPortReadBufSize)
    (es : List Event) :
    let s := runFrom step (SerialHandler.init garbage) es
    bytesReceived s + serialPortReadBufSize * pending s ≤
      serialPortReadBufSize *
        total step opens (SerialHandler.init garbage) es := by
  intro s
  have hgrowth := growth_le budget (fun s e => serialPortReadBufSize * opens s e)
    budget_step (SerialHandler.init garbage) es
  rw [show budget (SerialHandler.init garbage) = 0 from rfl, Nat.zero_add,
    total_mul_left] at hgrowth
  exact hgrowth

end LidarPublisher.Serial.Reads
