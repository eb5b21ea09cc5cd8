import LidarPublisher.Lib.ReadUntil
import LidarPublisher.Lib.Stream
import LidarPublisher.Scan.Message

/-!
# The serial scanner

`lidarScanner::poll` fills ten positions of a scan from ten reads of the serial
port.  The port hands out its stream in chunks; every read starts with a
streambuf of its own, which is gone when the next one starts.
-/

namespace LidarPublisher.Scan.LidarScanner

open LidarPublisher.Lib.Binary
open LidarPublisher.Lib.ReadUntil
open LidarPublisher.Lib.Stream
open LidarPublisher.Scan.Message

/-- What the serial port will still hand out, read by read. -/
abbrev Port := List (List UInt8)

/-- `"\r\n"` -/
def crlf : List UInt8 := [0x0d, 0x0a]

/-- The locals of `poll` the extractions write.  They are declared without
initialisers outside the loop. -/
structure Locals where
  scanPosition : Int
  distance : Int
  degreesPerSecond : Rat
  scanTimeMs : Int
  dummy : UInt8
  deriving DecidableEq, Repr

/-- The seven extractions from `response_stream`. -/
def Locals.extract (l : Locals) (response : List UInt8) : Locals :=
  let s := IStream.on response
  let (scanPosition, s) := s.extractInt l.scanPosition
  let (dummy, s) := s.extractChar l.dummy
  let (distance, s) := s.extractInt l.distance
  let (dummy, s) := s.extractChar dummy
  let (degreesPerSecond, s) := s.extractDouble l.degreesPerSecond
  let (dummy, s) := s.extractChar dummy
  let (scanTimeMs, _) := s.extractInt l.scanTimeMs
  { scanPosition := scanPosition, distance := distance
    degreesPerSecond := degreesPerSecond, scanTimeMs := scanTimeMs
    dummy := dummy }

/-- The reading in `ranges`: `distance / 100.0`, in metres. -/
def metres (distance : Int) : Value := ofDouble (distance / 100)

/-- Where a call of `poll` stands: its locals, the exact number behind the member
`rpms`, and the message.  `unread` is no part of the program: it records
what the port still held at the start of each iteration. -/
structure Poll where
  locals : Locals
  rpms : Rat
  scan : LaserScan
  unread : List (List UInt8)
  deriving DecidableEq, Repr

/-- `poll` before its loop. -/
def Poll.start (garbage : Locals) (scan : LaserScan) : Poll :=
  { locals := garbage, rpms := 0, scan := scan.prepare, unread := [] }

/-- The rest of an iteration, after `read_until`; `none` is a store outside the
arrays. -/
def Poll.measure (p : Poll) (unread response : List UInt8) : Option Poll := do
  let l := p.locals.extract response
  let scan ← p.scan.store l.scanPosition (metres l.distance)
    (binary32.round l.distance)
  return { locals := l
           rpms := l.degreesPerSecond * 60 / 360
           scan :=
             { scan with timeIncrement := binary32.round l.degreesPerSecond }
           unread := p.unread ++ [unread] }

/-- `left` more iterations; `none` also when the stream ends in a read. -/
def Poll.loop : (left : Nat) → Poll → Port → Option (Poll × Port)
  | 0, p, port => some (p, port)
  | left + 1, p, port => do
      let (response, rest) ← readUntil crlf [] port
      let p ← p.measure port.flatten response
      loop left p rest

/-- `lidarScanner::poll`, which stops at `++points >= 10`. -/
def poll (shuttingDown : Bool) (garbage : Locals) (scan : LaserScan)
    (port : Port) : Option (Poll × Port) :=
  if shuttingDown then some (Poll.start garbage scan, port)
  else Poll.loop 10 (Poll.start garbage scan) port

/-- Successive calls, each with its own message, with `shutting_down` false. -/
def pollMany : List (Locals × LaserScan) → Port → Option (List Poll × Port)
  | [], port => some ([], port)
  | (garbage, scan) :: calls, port => do
      let (p, port) ← poll false garbage scan port
      let (ps, port) ← pollMany calls port
      return (p :: ps, port)

/-- Without iterations nothing is read. -/
theorem Poll.of_loop_zero {p q : Poll} {port rest : Port}
    (h : p.loop 0 port = some (q, rest)) : p = q ∧ port = rest :=
  Prod.mk.inj (Option.some.inj h)

/-! ## The arrays of the message -/

/-- Both arrays have a cell for every degree. -/
def Full (s : LaserScan) : Prop :=
  s.ranges.length = 360 ∧ s.intensities.length = 360

theorem full_prepare (s : LaserScan) : Full s.prepare :=
  ⟨length_resize _ _, length_resize _ _⟩

/-- A message with one position written. -/
def write (s : LaserScan) (i : Nat) (range intensity : Value) : LaserScan :=
  { s with ranges := s.ranges.set i range
           intensities := s.intensities.set i intensity }

theorem Full.write {s : LaserScan} (hs : Full s) (i : Nat) (r x : Value) :
    Full (write s i r x) := by
  simpa [Full, LidarScanner.write] using hs

theorem Full.store {s : LaserScan} (hs : Full s) {i : Int}
    (hi : 0 ≤ i ∧ i < 360) (r x : Value) :
    s.store i r x = some (LidarScanner.write s i.toNat r x) := by
  rcases hs with ⟨hranges, hintensities⟩
  rw [LaserScan.store, storeAt_eq_some r (by omega),
    storeAt_eq_some x (by omega)]
  rfl

end LidarPublisher.Scan.LidarScanner
