import LidarPublisher.Lib.Bytes
import LidarPublisher.Lib.Lines

/-!
# The serial line reader

`serialhandler` owns a serial port, reads chunks from it asynchronously and
delivers the lines they make up.  A read that is cancelled by `stop` completes
later, when the `io_service` runs again, and its handler then finds whatever
port there is by that time.
-/

namespace LidarPublisher.Serial.Handler

open LidarPublisher.Lib.Bytes
open LidarPublisher.Lib.Lines

/-- `SERIAL_PORT_READ_BUF_SIZE`. -/
abbrev serialPortReadBufSize : Nat := 256

/-- A `boost::asio::serial_port`: whether it is open, how many
`async_read_some` it has been given and how many of them have not completed. -/
structure SerialPort where
  isOpen : Bool
  issued : Nat
  outstanding : Nat
  deriving DecidableEq, Repr

/-- A port on which nothing has been read. -/
def SerialPort.fresh (isOpen : Bool) : SerialPort :=
  { isOpen := isOpen, issued := 0, outstanding := 0 }

/-- `async_read_some`. -/
def SerialPort.asyncReadSome (p : SerialPort) : SerialPort :=
  { p with issued := p.issued + 1, outstanding := p.outstanding + 1 }

/-- One read completes. -/
def SerialPort.complete (p : SerialPort) : SerialPort :=
  { p with outstanding := p.outstanding - 1 }

/-- The members of `serialhandler`.  `cancelled` counts the reads of earlier
ports whose handlers the `io_service` still holds, and `delivered` lists the
strings given to `on_receive(const std::string&)`. -/
structure SerialHandler where
  port : Option SerialPort
  cancelled : Nat
  readBufRaw : Vector UInt8 serialPortReadBufSize
  readBufStr : List UInt8
  endOfLineChar : UInt8
  delivered : List (List UInt8)
  deriving DecidableEq

/-- The constructor; `read_buf_raw` is not initialised. -/
def SerialHandler.init (garbage : Vector UInt8 serialPortReadBufSize) :
    SerialHandler :=
  { port := none, cancelled := 0, readBufRaw := garbage, readBufStr := []
    endOfLineChar := 0x0a, delivered := [] }

/-- `serialhandler::set_eol_char`. -/
def setEolChar (b : UInt8) (s : SerialHandler) : SerialHandler :=
  { s with endOfLineChar := b }

/-- `serialhandler::async_read`. -/
def asyncRead (s : SerialHandler) : SerialHandler :=
  match s.port with
  | none => s
  | some p =>
      if p.isOpen = false then s else { s with port := some p.asyncReadSome }

/-- What the device does when `start` opens it. -/
inductive Device
  | works
  | openFails
  | setOptionThrows
  deriving DecidableEq, Repr

/-- `serialhandler::start`: the returned flag, or `none` for an exception, and
the handler after the call. -/
def start (device : Device) (s : SerialHandler) : Option Bool × SerialHandler :=
  if s.port.isSome = true then (some false, s)
  else
    match device with
    | .openFails => (some false, { s with port := some (.fresh false) })
    | .setOptionThrows => (none, { s with port := some (.fresh true) })
    | .works => (some true, asyncRead { s with port := some (.fresh true) })

/-- `serialhandler::stop`: closing the port cancels its reads.  `cancel` may
throw, as it does on a port that is not open, and then `stop` ends there. -/
def stop (cancelThrows : Bool) (s : SerialHandler) :
    Option Unit × SerialHandler :=
  match s.port with
  | none => (some (), s)
  | some p =>
      if cancelThrows = true then (none, s)
      else
        (some (), { s with
          port := none, cancelled := s.cancelled + p.outstanding })

/-- The loop body of `on_receive` for one byte. -/
def receiveByte (s : SerialHandler) (b : UInt8) : SerialHandler :=
  if b = s.endOfLineChar then
    { s with delivered := s.delivered ++ [s.readBufStr], readBufStr := [] }
  else { s with readBufStr := s.readBufStr ++ [b] }

/-- `serialhandler::on_receive(ec, bytes_transferred)`. -/
def onReceive (ec : Bool) (bytesTransferred : Nat) (s : SerialHandler) :
    SerialHandler :=
  match s.port with
  | none => s
  | some p =>
      if p.isOpen = false then s
      else if ec = true then asyncRead s
      else (s.readBufRaw.toList.take bytesTransferred).foldl receiveByte s

/-! ## Completions -/

/-- The bytes of one read. -/
structure Chunk where
  bytes : List UInt8
  fits : bytes.length ≤ serialPortReadBufSize
  deriving DecidableEq, Repr

/-- How a read ends. -/
inductive ReadResult
  | success (chunk : Chunk)
  | error
  deriving DecidableEq, Repr

/-- The device writes the chunk over the first bytes of `read_buf_raw`. -/
def SerialHandler.fill (s : SerialHandler) (chunk : Chunk) : SerialHandler :=
  { s with readBufRaw := overlay chunk.bytes chunk.fits s.readBufRaw }

/-- The handler of a read that ended with `r`. -/
def handleRead (r : ReadResult) (s : SerialHandler) : SerialHandler :=
  match r with
  | .success chunk => onReceive false chunk.bytes.length (s.fill chunk)
  | .error => onReceive true 0 s

/-- What can happen to a serial handler: calls of its methods, the completion
of a read of the present port, and that of a read of an earlier one. -/
inductive Event
  | start (device : Device)
  | stop (cancelThrows : Bool)
  | setEolChar (b : UInt8)
  | completion (r : ReadResult)
  | staleCompletion (r : ReadResult)
  deriving DecidableEq, Repr

/-- One event; a completion needs a read that can complete. -/
def step (s : SerialHandler) : Event → SerialHandler
  | .start device => (start device s).2
  | .stop cancelThrows => (stop cancelThrows s).2
  | .setEolChar b => setEolChar b s
  | .completion r =>
      match s.port with
      | none => s
      | some p =>
          if p.outstanding = 0 then s
          else handleRead r { s with port := some p.complete }
  | .staleCompletion r =>
      if s.cancelled = 0 then s
      else handleRead r { s with cancelled := s.cancelled - 1 }

/-- The port pointer is set and the port is open. -/
def PortOpen (s : SerialHandler) : Prop :=
  ∃ p, s.port = some p ∧ p.isOpen = true

/-- The reads whose handlers will still run: those of the present port and those
of earlier ones. -/
def pending (s : SerialHandler) : Nat :=
  (s.port.map SerialPort.outstanding).getD 0 + s.cancelled

/-- A zeroed `read_buf_raw`. -/
def zeroed : Vector UInt8 serialPortReadBufSize := Vector.replicate _ 0

/-! ## What the handler does -/

variable {s : SerialHandler} {p : SerialPort}

theorem asyncRead_of_open (h : s.port = some p) (hopen : p.isOpen = true) :
    asyncRead s = { s with port := some p.asyncReadSome } := by
  unfold asyncRead
  rw [h]
  exact if_neg (by simp [hopen])

/-- With a port there is nothing to start. -/
theorem start_of_port (h : s.port = some p) (device : Device) :
    start device s = (some false, s) := by
  unfold start
  rw [h]
  rfl

/-- The three exits of `start` behind the test of the port. -/
theorem start_of_none (h : s.port = none) (device : Device) :
    start device s =
      match device with
      | .works => (some true,
          { s with port := some (SerialPort.fresh true).asyncReadSome })
      | .openFails => (some false, { s with port := some (.fresh false) })
      | .setOptionThrows => (none, { s with port := some (.fresh true) }) := by
  unfold start
  rw [if_neg (by simp [h])]
  cases device with
  | works =>
      dsimp only
      rw [asyncRead_of_open (p := .fresh true) rfl rfl]
  | openFails => rfl
  | setOptionThrows => rfl

/-- A byte extends the unfinished line or delivers it. -/
theorem foldl_receiveByte (bytes : List UInt8) (s : SerialHandler) :
    bytes.foldl receiveByte s =
      { s with
        readBufStr := residue s.endOfLineChar s.readBufStr bytes
        delivered := s.delivered ++
          segments s.endOfLineChar s.readBufStr bytes } := by
  induction bytes generalizing s with
  | nil => simp
  | cons b bytes ih =>
      rw [List.foldl_cons, ih]
      by_cases hb : b = s.endOfLineChar
      · rw [receiveByte, if_pos hb, hb, segments_cons_eol, residue_cons_eol]
        simp
      · rw [receiveByte, if_neg hb, segments_cons_of_ne hb, residue_cons_of_ne hb]

/-- Without an error an open port frames the chunk and starts no read. -/
theorem handleRead_success (h : s.port = some p) (hopen : p.isOpen = true)
    (chunk : Chunk) :
    handleRead (.success chunk) s =
      { s.fill chunk with
        readBufStr := residue s.endOfLineChar s.readBufStr chunk.bytes
        delivered := s.delivered ++
          segments s.endOfLineChar s.readBufStr chunk.bytes } := by
  show onReceive false chunk.bytes.length (s.fill chunk) = _
  unfold onReceive
  rw [show (s.fill chunk).port = some p from h]
  have hraw : (s.fill chunk).readBufRaw.toList.take chunk.bytes.length =
      chunk.bytes := by
    show (overlay chunk.bytes chunk.fits s.readBufRaw).toList.take _ = _
    rw [toList_overlay, List.take_left]
  simp only [hopen, hraw, foldl_receiveByte]
  rfl

/-- After an error an open port is read again. -/
theorem handleRead_error (h : s.port = some p) (hopen : p.isOpen = true) :
    handleRead .error s = { s with port := some p.asyncReadSome } := by
  show onReceive true 0 s = _
  unfold onReceive
  rw [h]
  simp only [hopen, asyncRead_of_open h hopen]
  rfl

/-- Without an open port a completion does nothing but fill the raw buffer. -/
theorem handleRead_of_closed (h : ¬PortOpen s) (r : ReadResult) :
    ∃ raw, handleRead r s = { s with readBufRaw := raw } := by
  have hclosed : ∀ ec n (t : SerialHandler), t.port = s.port →
      onReceive ec n t = t := by
    intro ec n t ht
    unfold onReceive
    rw [ht]
    cases hp : s.port with
    | none => rfl
    | some p =>
        refine if_pos ?_
        rw [← Bool.not_eq_true]
        exact fun hopen => h ⟨p, hp, hopen⟩
  cases r with
  | success chunk => exact ⟨_, hclosed false _ (s.fill chunk) rfl⟩
  | error => exact ⟨s.readBufRaw, hclosed true 0 s rfl⟩

theorem handleRead_port_of_closed (h : ¬PortOpen s) (r : ReadResult) :
    (handleRead r s).port = s.port := by
  rcases handleRead_of_closed h r with ⟨raw, hraw⟩
  rw [hraw]

theorem not_portOpen_of_none (h : s.port = none) : ¬PortOpen s := by
  rintro ⟨p, hp, -⟩
  rw [h] at hp
  exact absurd hp (by simp)

theorem not_portOpen_of_closed (h : s.port = some p) (hclosed : p.isOpen = false) :
    ¬PortOpen s := by
  rintro ⟨q, hq, hopen⟩
  rw [h] at hq
  rw [← Option.some.inj hq, hclosed] at hopen
  exact absurd hopen (by decide)

/-! ## The bytes that are framed -/

/-- The handler `s'` comes of the handler `s`, with an open port, by framing these
bytes. -/
structure Frames (s : SerialHandler) (bytes : List UInt8) (s' : SerialHandler) :
    Prop where
  portOpen : PortOpen s'
  eol : s'.endOfLineChar = s.endOfLineChar
  line : s'.readBufStr = residue s.endOfLineChar s.readBufStr bytes
  lines : s'.delivered =
    s.delivered ++ segments s.endOfLineChar s.readBufStr bytes

theorem Frames.refl (h : PortOpen s) : Frames s [] s where
  portOpen := h
  eol := rfl
  line := rfl
  lines := (List.append_nil _).symm

/-- How the bytes are cut into lines does not depend on how they arrive. -/
theorem Frames.trans {s' s'' : SerialHandler} {bytes bytes' : List UInt8}
    (h : Frames s bytes s') (h' : Frames s' bytes' s'') :
    Frames s (bytes ++ bytes') s'' where
  portOpen := h'.portOpen
  eol := h'.eol.trans h.eol
  line := by rw [residue_append, h'.line, h.line, h.eol]
  lines := by
    rw [segments_append, h'.lines, h.lines, h.line, h.eol, List.append_assoc]

/-- The bytes of a read. -/
def ReadResult.bytes : ReadResult → List UInt8
  | .success chunk => chunk.bytes
  | .error => []

/-- The handler of a read frames its bytes. -/
theorem frames_handleRead (h : PortOpen s) (r : ReadResult) :
    Frames s r.bytes (handleRead r s) := by
  rcases h with ⟨p, hp, hopen⟩
  cases r with
  | success chunk =>
      rw [handleRead_success hp hopen]
      exact ⟨⟨p, hp, hopen⟩, rfl, rfl, rfl⟩
  | error =>
      rw [handleRead_error hp hopen]
      exact ⟨⟨p.asyncReadSome, rfl, hopen⟩, rfl, rfl, (List.append_nil _).symm⟩

end LidarPublisher.Serial.Handler
