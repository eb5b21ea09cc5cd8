import LidarPublisher.Lib.History
import LidarPublisher.Serial.Retry
import Mathlib.Data.List.Forall2

/-!
# What goes out on the serial line

`write_string` hands its bytes to the port in one `write_some`, which may take a
part of them, and returns the number taken.  Along a run the wire carries these
parts in order; after a start that could not open the device it carries nothing,
while the writes report 0 and not -1.
-/

namespace LidarPublisher.Serial.Writing

open LidarPublisher.Lib.Run
open LidarPublisher.Lib.History
open LidarPublisher.Lib.Bytes
open LidarPublisher.Serial.Handler

/-! ## The functions -/

/-- What `write_some` does on an open port: it takes the first bytes, or reports
an error. -/
inductive Transfer
  | takes (n : Nat)
  | error
  deriving DecidableEq, Repr

/-- `serial_port::write_some`: the bytes that go out.  A port that is not open
takes none. -/
def SerialPort.writeSome (transfer : Transfer) (buf : List UInt8)
    (p : SerialPort) : List UInt8 :=
  if p.isOpen = true then
    match transfer with
    | .takes n => buf.take n
    | .error => []
  else []

/-- `serialhandler::write_bytes`: the returned value and the bytes that go out.
The error code of `write_some` is not looked at. -/
def writeBytes (transfer : Transfer) (buf : List UInt8) (size : Nat)
    (s : SerialHandler) : Int × List UInt8 :=
  match s.port with
  | none => (-1, [])
  | some p =>
      if size = 0 then (0, [])
      else
        let sent := SerialPort.writeSome transfer (buf.take size) p
        (sent.length, sent)

/-- `serialhandler::write_string`. -/
def writeString (transfer : Transfer) (buf : List UInt8) (s : SerialHandler) :
    Int × List UInt8 :=
  writeBytes transfer buf buf.length s

/-- The handler, the bytes on the wire and the results of the writes. -/
structure Line where
  handler : SerialHandler
  wire : List UInt8
  results : List Int
  deriving DecidableEq

/-- What happens on the line: something to the handler, or a write. -/
inductive Event
  | handler (e : Handler.Event)
  | write (buf : List UInt8) (transfer : Transfer)
  deriving DecidableEq

def step (l : Line) : Event → Line
  | .handler e => { l with handler := Handler.step l.handler e }
  | .write buf transfer =>
      let (result, sent) := writeString transfer buf l.handler
      { l with wire := l.wire ++ sent, results := l.results ++ [result] }

def Line.init (garbage : Vector UInt8 serialPortReadBufSize) : Line :=
  { handler := SerialHandler.init garbage, wire := [], results := [] }

/-- The strings written in a run. -/
def writes (es : List Event) : List (List UInt8) :=
  es.filterMap fun e =>
    match e with
    | .handler _ => none
    | .write buf _ => some buf

/-! ## One write -/

/-- The result of a write against the bytes that went out: their number, or -1
for none. -/
def Reports (sent : List UInt8) (result : Int) : Prop :=
  result = sent.length ∨ (result = -1 ∧ sent = [])

theorem prefix_of_writeSome (transfer : Transfer) (buf : List UInt8)
    (p : SerialPort) : SerialPort.writeSome transfer buf p <+: buf := by
  unfold SerialPort.writeSome
  split
  · cases transfer with
    | takes n => exact List.take_prefix n buf
    | error => exact List.nil_prefix
  · exact List.nil_prefix

/-- A part of the string goes out, and its length is reported. -/
theorem writeString_reports (transfer : Transfer) (buf : List UInt8)
    (s : SerialHandler) :
    (writeString transfer buf s).2 <+: buf ∧
      Reports (writeString transfer buf s).2 (writeString transfer buf s).1 := by
  unfold writeString writeBytes
  cases hp : s.port with
  | none => exact ⟨List.nil_prefix, Or.inr ⟨rfl, rfl⟩⟩
  | some p =>
      dsimp only
      split
      · exact ⟨List.nil_prefix, Or.inl rfl⟩
      · rw [List.take_length]
        exact ⟨prefix_of_writeSome transfer buf p, Or.inl rfl⟩

/-- A port that is not open takes nothing, and that is reported as 0. -/
theorem writeString_of_closed {s : SerialHandler} {p : SerialPort}
    (h : s.port = some p) (hclosed : p.isOpen = false) (transfer : Transfer)
    (buf : List UInt8) : writeString transfer buf s = (0, []) := by
  unfold writeString writeBytes SerialPort.writeSome
  rw [h]
  simp [hclosed]

/-! ## Runs -/

/-- **The wire carries what was reported.**  In every run the bytes on the wire
are a prefix of each string written, one after the other, and each write
reported the length of its own prefix, or -1 for an empty one. -/
theorem wire_eq (garbage : Vector UInt8 serialPortReadBufSize)
    (es : List Event) :
    let l := runFrom step (Line.init garbage) es
    ∃ sent : List (List UInt8), l.wire = sent.flatten ∧
      List.Forall₂ (fun part buf => part <+: buf) sent (writes es) ∧
      List.Forall₂ Reports sent l.results := by
  refine inv_history (fun es l =>
    ∃ sent : List (List UInt8), l.wire = sent.flatten ∧
      List.Forall₂ (fun part buf => part <+: buf) sent (writes es) ∧
      List.Forall₂ Reports sent l.results) (Line.init garbage)
    ⟨[], rfl, .nil, .nil⟩ ?_ es
  intro es e h
  rcases h with ⟨sent, hwire, hparts, hresults⟩
  have hwrites : writes (es ++ [e]) = writes es ++ writes [e] :=
    List.filterMap_append
  rw [hwrites]
  cases e with
  | handler e =>
      refine ⟨sent, hwire, ?_, hresults⟩
      rw [show writes [Event.handler e] = [] from rfl, List.append_nil]
      exact hparts
  | write buf transfer =>
      rcases writeString_reports transfer buf
        (runFrom step (Line.init garbage) es).handler with ⟨hpart, hreports⟩
      refine ⟨sent ++ [(writeString transfer buf
        (runFrom step (Line.init garbage) es).handler).2], ?_,
        List.rel_append hparts (.cons hpart .nil),
        List.rel_append hresults (.cons hreports .nil)⟩
      rw [List.flatten_append, List.flatten_singleton, ← hwire]
      rfl

/-! ## After a start that could not open the device -/

/-- The port pointer is set and the port is not open. -/
def Closed (s : SerialHandler) : Prop := ∃ p, s.port = some p ∧ p.isOpen = false

theorem Closed.handleRead {s : SerialHandler} (h : Closed s) (r : ReadResult) :
    Closed (handleRead r s) := by
  rcases h with ⟨p, hp, hclosed⟩
  have hport := handleRead_port_of_closed (not_portOpen_of_closed hp hclosed) r
  exact ⟨p, hport.trans hp, hclosed⟩

/-- Only a `stop` that closes the port gets out of this state. -/
theorem Closed.step {s : SerialHandler} (h : Closed s) {e : Handler.Event}
    (hstop : e ≠ .stop false) : Closed (Handler.step s e) := by
  have hclosed := h
  rcases h with ⟨p, hp, hpclosed⟩
  cases e with
  | start device =>
      show Closed (start device s).2
      rw [start_of_port hp]
      exact hclosed
  | stop cancelThrows =>
      cases cancelThrows with
      | false => exact absurd rfl hstop
      | true =>
          show Closed (stop true s).2
          unfold stop
          rw [hp]
          exact hclosed
  | setEolChar b => exact ⟨p, hp, hpclosed⟩
  | completion r =>
      unfold Handler.step
      rw [hp]
      dsimp only
      split
      · exact hclosed
      · exact Closed.handleRead ⟨p.complete, rfl, hpclosed⟩ r
  | staleCompletion r =>
      unfold Handler.step
      dsimp only
      split
      · exact hclosed
      · exact Closed.handleRead
          (s := { s with cancelled := s.cancelled - 1 }) ⟨p, hp, hpclosed⟩ r

/-- Every write is lost and reported as 0. -/
theorem lost_of_closed (l : Line) (h : Closed l.handler) (es : List Event)
    (hstop : .handler (.stop false) ∉ es) :
    Closed (runFrom step l es).handler ∧ (runFrom step l es).wire = l.wire ∧
      (runFrom step l es).results =
        l.results ++ List.replicate (writes es).length 0 := by
  induction es generalizing l with
  | nil => exact ⟨h, rfl, (List.append_nil _).symm⟩
  | cons e es ih =>
      rw [runFrom_cons]
      have hrest : .handler (.stop false) ∉ es :=
        fun hmem => hstop (List.mem_cons_of_mem _ hmem)
      cases e with
      | handler e =>
          refine ih { l with handler := Handler.step l.handler e } (h.step ?_) hrest
          rintro rfl
          exact hstop List.mem_cons_self
      | write buf transfer =>
          rcases h with ⟨p, hp, hclosed⟩
          have hlost := writeString_of_closed hp hclosed transfer buf
          have hstep : step l (.write buf transfer) =
              { l with results := l.results ++ [0] } := by
            unfold step
            dsimp only
            rw [hlost, List.append_nil]
          rw [hstep]
          rcases ih { l with results := l.results ++ [0] } ⟨p, hp, hclosed⟩ hrest
            with ⟨hport, hwire, hresults⟩
          refine ⟨hport, hwire, ?_⟩
          rw [hresults, List.append_assoc]
          rfl

/-- **A failed start mutes the line.**  After a start that could not open the
device, and until a `stop` closes the port, nothing goes out, every write
reports 0 as if it had been empty, and every other start is refused. -/
theorem failed_start_mutes (garbage : Vector UInt8 serialPortReadBufSize)
    (pre post : List Event)
    (hport : (runFrom step (Line.init garbage) pre).handler.port = none)
    (hstop : .handler (.stop false) ∉ post) :
    let l := runFrom step (Line.init garbage) pre
    let l' := runFrom step (Line.init garbage)
      (pre ++ .handler (.start .openFails) :: post)
    l'.wire = l.wire ∧
      l'.results = l.results ++ List.replicate (writes post).length 0 ∧
      ∀ device, (start device l'.handler).1 = some false := by
  intro l l'
  have hl' : l' = runFrom step (step l (.handler (.start .openFails))) post := by
    show runFrom step _ (pre ++ _ :: post) = _
    rw [runFrom_append, runFrom_cons]
  have hclosed : Closed (step l (.handler (.start .openFails))).handler := by
    show Closed (start .openFails l.handler).2
    rw [start_of_none hport]
    exact ⟨_, rfl, rfl⟩
  rcases lost_of_closed _ hclosed post hstop with ⟨⟨p, hp, -⟩, hwire, hresults⟩
  rw [← hl'] at hp hwire hresults
  refine ⟨hwire, hresults, fun device => ?_⟩
  rw [start_of_port hp]

/-- A command written after the device was not found. -/
theorem failed_start_mutes_command :
    (runFrom step (Line.init (Vector.replicate serialPortReadBufSize 0))
      ([] ++ .handler (.start .openFails) ::
        [.write (ascii "LS") (.takes 2)])).results = [] ++ List.replicate 1 0 :=
  (failed_start_mutes (Vector.replicate serialPortReadBufSize 0) []
    [.write (ascii "LS") (.takes 2)] rfl (by simp)).2.1

end LidarPublisher.Serial.Writing
