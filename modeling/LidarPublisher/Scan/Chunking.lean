import LidarPublisher.Scan.Fields

/-!
# Lines cut into chunks

The device sends lines `p,d,v,t\r\n`.  `processMany` is what the calls of
`poll` are for: the lines in stream order, each once, ten per call, however the
port's reads cut the stream.  The streambuf of an iteration is dropped with
whatever it holds behind its line, so `poll` does this exactly when the lines
it reads end where chunks end.
-/

namespace LidarPublisher.Scan.Chunking

open LidarPublisher.Lib.Binary
open LidarPublisher.Lib.Decimal
open LidarPublisher.Lib.ReadUntil
open LidarPublisher.Lib.Stream
open LidarPublisher.Scan.Message
open LidarPublisher.Scan.LidarScanner
open LidarPublisher.Scan.Responses
open LidarPublisher.Scan.Fields

/-! ## Lines -/

/-- A well-formed line. -/
structure Line where
  position : Integer
  distance : Integer
  degreesPerSecond : DecimalText
  scanTimeMs : Integer
  position_range : 0 ≤ position.value ∧ position.value < 360

/-- The line with its commas. -/
def Line.printed (l : Line) : Printed :=
  { position := l.position
    distance := l.distance
    degreesPerSecond := l.degreesPerSecond
    scanTimeMs := l.scanTimeMs
    sep₁ := 0x2c
    sep₂ := 0x2c
    sep₃ := 0x2c
    sep₁_separates := separates_comma
    sep₂_separates := separates_comma
    sep₃_visible := visible_comma
    sep₃_ends := endedBy_comma _ }

def Line.text (l : Line) : List UInt8 := l.printed.text

/-- The text of some lines. -/
def stream (lines : List Line) : List UInt8 := (lines.map Line.text).flatten

@[simp] theorem stream_nil : stream [] = [] := rfl

@[simp] theorem stream_cons (l : Line) (ls : List Line) :
    stream (l :: ls) = l.text ++ stream ls := rfl

theorem stream_append (ls ms : List Line) :
    stream (ls ++ ms) = stream ls ++ stream ms := by
  simp [stream]

theorem isLine_text (l : Line) : IsLine crlf l.text := l.printed.isLine_text

/-! ## What a line says -/

/-- The locals after a line. -/
def Line.decode (l : Line) (old : Locals) : Locals := l.printed.decode old

/-- With a position in range the first number is never cut. -/
@[simp] theorem decode_scanPosition (l : Line) (old : Locals) :
    (l.decode old).scanPosition = l.position.value := by
  have hposition : clampInt l.position.value = l.position.value := by
    have hrange := l.position_range
    exact clampInt_of_range (by omega) (by omega)
  simp only [Line.decode, Printed.decode, Line.printed, hposition, ne_eq,
    not_true_eq_false, if_false]
  split
  · rfl
  · split <;> rfl

theorem extract_text (l : Line) (tail : List UInt8) (old : Locals) :
    old.extract (l.text ++ tail) = l.decode old :=
  l.printed.extract_text tail old

/-- One measurement made of one line. -/
def process (p : Poll) (unread : List UInt8) (l : Line) : Poll :=
  let locals := l.decode p.locals
  { locals := locals
    rpms := locals.degreesPerSecond * 60 / 360
    scan :=
      { write p.scan l.position.value.toNat (metres locals.distance)
          (binary32.round locals.distance) with
        timeIncrement := binary32.round locals.degreesPerSecond }
    unread := p.unread ++ [unread] }

theorem full_process {p : Poll} (hp : Full p.scan) (unread : List UInt8)
    (l : Line) : Full (process p unread l).scan :=
  hp.write _ _ _

/-- An iteration makes a measurement of the line its buffer starts with. -/
theorem measure_text {p : Poll} (hp : Full p.scan) (unread : List UInt8)
    (l : Line) (tail : List UInt8) :
    p.measure unread (l.text ++ tail) = some (process p unread l) := by
  have hrange : 0 ≤ (p.locals.extract (l.text ++ tail)).scanPosition ∧
      (p.locals.extract (l.text ++ tail)).scanPosition < 360 := by
    rw [extract_text, decode_scanPosition]
    exact l.position_range
  rw [measure_of_inBounds hp unread hrange, measured, extract_text,
    decode_scanPosition]
  rfl

/-! ## The purpose of the calls -/

/-- `left` lines, in stream order; each is met at its own beginning. -/
def processLines : (left : Nat) → Poll → List Line → Poll
  | left + 1, p, l :: ls =>
      processLines left (process p (stream (l :: ls)) l) ls
  | _, p, _ => p

/-- Ten lines for every call. -/
def processMany : List (Locals × LaserScan) → List Line → List Poll
  | [], _ => []
  | (garbage, scan) :: calls, lines =>
      processLines 10 (Poll.start garbage scan) lines ::
        processMany calls (lines.drop 10)

/-- The calls process the lines of the stream in order, each once, ten a call;
what they return does not depend on the chunks. -/
def InStreamOrder (calls : List (Locals × LaserScan)) (port : Port)
    (lines : List Line) : Prop :=
  (pollMany calls port).map Prod.fst = some (processMany calls lines)

/-! ## Chunks that end with lines -/

/-- Each of the first `n` lines starts where a chunk does. -/
def Aligned (n : Nat) (port : Port) (lines : List Line) : Prop :=
  ∀ i < n, Boundary port (stream (lines.take i)).length

theorem aligned_one (port : Port) (lines : List Line) :
    Aligned 1 port lines := by
  intro i hi
  obtain rfl : i = 0 := by omega
  exact boundary_zero port

section Rest

variable {port rest : Port} {lines : List Line} {n : Nat}

/-- Where the next lines are what is left of the port, its boundaries are what
is left of the boundaries. -/
theorem boundary_rest_iff (hrest : rest <:+ port)
    (hport : port.flatten = stream lines)
    (hflat : rest.flatten = stream (lines.drop n)) (m : Nat) :
    Boundary port ((stream (lines.take n)).length + m) ↔ Boundary rest m := by
  rcases hrest with ⟨pre, rfl⟩
  have hsplit : stream lines =
      stream (lines.take n) ++ stream (lines.drop n) := by
    rw [← stream_append, List.take_append_drop]
  rw [List.flatten_append, hflat, hsplit] at hport
  rw [← List.append_cancel_right hport, boundary_append_iff]

theorem aligned_add_iff (hrest : rest <:+ port)
    (hport : port.flatten = stream lines)
    (hflat : rest.flatten = stream (lines.drop n)) (m : Nat) :
    Aligned (n + m) port lines ↔
      Aligned n port lines ∧ Aligned m rest (lines.drop n) := by
  have hshift : ∀ j, Boundary port (stream (lines.take (n + j))).length ↔
      Boundary rest (stream ((lines.drop n).take j)).length := by
    intro j
    rw [List.take_add, stream_append, List.length_append,
      boundary_rest_iff hrest hport hflat]
  constructor
  · intro hall
    exact ⟨fun i hi => hall i (by omega),
      fun j hj => (hshift j).mp (hall (n + j) (by omega))⟩
  · intro h i hi
    rcases h with ⟨hfirst, hlater⟩
    rcases Nat.lt_or_ge i n with hin | hni
    · exact hfirst i hin
    · rcases Nat.exists_eq_add_of_le hni with ⟨j, rfl⟩
      exact (hshift j).mpr (hlater j (by omega))

end Rest

/-! ## One iteration -/

/-- An iteration that finds its line at the beginning of what is unread makes a
measurement of it.  The next one finds the next line if and only if the line
ends where a chunk ends. -/
theorem loop_succ_line {p : Poll} (hp : Full p.scan) {port : Port} {l : Line}
    {ls : List Line} (hport : port.flatten = stream (l :: ls)) :
    ∃ mid, (∀ left, p.loop (left + 1) port =
        (process p (stream (l :: ls)) l).loop left mid) ∧
      mid <:+ port ∧
      (Boundary port l.text.length ↔ mid.flatten = stream ls) := by
  obtain ⟨more, mid, hread, htail, hboundary⟩ :=
    readUntil_nil_line (isLine_text l) (hport.trans (stream_cons l ls))
  refine ⟨mid, ?_, suffix_of_readUntil hread, ?_⟩
  · intro left
    rw [Poll.loop, hread, hport]
    simp only [Option.bind_eq_bind, Option.bind_some, measure_text hp]
  · rw [hboundary, ← htail]
    exact List.self_eq_append_left.symm

/-! ## What the iterations found unread -/

theorem exists_loop_of_loop_succ {n : Nat} {p q : Poll} {port rest : Port}
    (h : p.loop (n + 1) port = some (q, rest)) :
    ∃ (p' : Poll) (mid : Port), mid <:+ port ∧
      p'.unread = p.unread ++ [port.flatten] ∧
      p'.loop n mid = some (q, rest) := by
  rcases Option.bind_eq_some_iff.mp h with ⟨⟨response, mid⟩, hread, h⟩
  rcases Option.bind_eq_some_iff.mp h with ⟨p', hmeasure, h⟩
  rcases Option.bind_eq_some_iff.mp hmeasure with ⟨scan, hstore, hp'⟩
  refine ⟨p', mid, suffix_of_readUntil hread, ?_, h⟩
  rw [← Option.some.inj hp']

theorem suffix_of_loop {n : Nat} {p q : Poll} {port rest : Port}
    (h : p.loop n port = some (q, rest)) : rest <:+ port := by
  induction n generalizing p port with
  | zero =>
      rcases Poll.of_loop_zero h with ⟨-, rfl⟩
      exact List.suffix_rfl
  | succ n ih =>
      rcases exists_loop_of_loop_succ h with ⟨p', mid, hmid, -, h⟩
      exact (ih h).trans hmid

theorem unread_prefix_loop {n : Nat} {p q : Poll} {port rest : Port}
    (h : p.loop n port = some (q, rest)) : p.unread <+: q.unread := by
  induction n generalizing p port with
  | zero =>
      rcases Poll.of_loop_zero h with ⟨rfl, -⟩
      exact List.prefix_rfl
  | succ n ih =>
      rcases exists_loop_of_loop_succ h with ⟨p', mid, -, hunread, h⟩
      have hstep : p.unread <+: p'.unread := by
        rw [hunread]
        exact List.prefix_append _ _
      exact hstep.trans (ih h)

theorem unread_prefix_processLines (n : Nat) (p : Poll) (lines : List Line) :
    p.unread <+: (processLines n p lines).unread := by
  induction n generalizing p lines with
  | zero => exact List.prefix_rfl
  | succ n ih =>
      cases lines with
      | nil => exact List.prefix_rfl
      | cons l ls =>
          have hstep : p.unread <+:
              (process p (stream (l :: ls)) l).unread :=
            List.prefix_append _ _
          exact hstep.trans (ih _ ls)

/-- A loop that processes the lines has found them unread. -/
theorem flatten_eq_of_loop {n : Nat} {p : Poll} {port rest : Port}
    {lines : List Line} (hlines : 0 < lines.length)
    (h : p.loop (n + 1) port = some (processLines (n + 1) p lines, rest)) :
    port.flatten = stream lines := by
  cases lines with
  | nil => simp at hlines
  | cons l ls =>
      rcases exists_loop_of_loop_succ h with ⟨p', mid, -, hunread, h⟩
      have hfound : p.unread ++ [port.flatten] <+:
          (processLines (n + 1) p (l :: ls)).unread := by
        rw [← hunread]
        exact unread_prefix_loop h
      have hdue : p.unread ++ [stream (l :: ls)] <+:
          (processLines (n + 1) p (l :: ls)).unread :=
        unread_prefix_processLines n (process p (stream (l :: ls)) l) ls
      have hlength : (p.unread ++ [port.flatten]).length =
          (p.unread ++ [stream (l :: ls)]).length := by simp
      have heq := (List.prefix_of_prefix_length_le hfound hdue
        hlength.le).eq_of_length hlength
      exact List.singleton_inj.mp (List.append_cancel_left heq)

/-! ## One call -/

/-- A loop whose lines all start where chunks do processes them in order. -/
theorem loop_of_aligned {n : Nat} {p : Poll} (hp : Full p.scan) {port : Port}
    {lines : List Line} (hport : port.flatten = stream lines)
    (hn : n ≤ lines.length) (ha : Aligned n port lines) :
    ∃ rest, p.loop n port = some (processLines n p lines, rest) ∧
      (Boundary port (stream (lines.take n)).length →
        rest.flatten = stream (lines.drop n)) := by
  induction n generalizing p port lines with
  | zero => exact ⟨port, rfl, fun _ => hport⟩
  | succ n ih =>
      cases lines with
      | nil => simp at hn
      | cons l ls =>
          rcases loop_succ_line hp hport with ⟨mid, hloop, hmid, hend⟩
          rw [hloop, processLines]
          cases n with
          | zero =>
              refine ⟨mid, rfl, fun hboundary => hend.mp ?_⟩
              simpa using hboundary
          | succ n =>
              have hflat : mid.flatten = stream ((l :: ls).drop 1) :=
                hend.mp (by simpa using ha 1 (by omega))
              rw [Nat.add_comm] at ha
              obtain ⟨rest, hrest, hdone⟩ :=
                ih (full_process hp _ l) hflat (by simpa using hn)
                  ((aligned_add_iff hmid hport hflat _).mp ha).2
              refine ⟨rest, hrest, fun hboundary => hdone ?_⟩
              rw [← boundary_rest_iff hmid hport hflat]
              simpa using hboundary

/-- Only then. -/
theorem aligned_of_loop {n : Nat} {p : Poll} (hp : Full p.scan)
    {port rest : Port} {lines : List Line}
    (hport : port.flatten = stream lines) (hn : n ≤ lines.length)
    (h : p.loop n port = some (processLines n p lines, rest)) :
    Aligned n port lines := by
  induction n generalizing p port lines with
  | zero => exact fun i hi => absurd hi (Nat.not_lt_zero i)
  | succ n ih =>
      cases lines with
      | nil => simp at hn
      | cons l ls =>
          rcases loop_succ_line hp hport with ⟨mid, hloop, hmid, -⟩
          rw [hloop, processLines] at h
          cases n with
          | zero => exact aligned_one port _
          | succ n =>
              have hlength : n + 1 ≤ ls.length := by simpa using hn
              have hpos : 0 < ls.length := by omega
              have hflat : mid.flatten = stream ((l :: ls).drop 1) :=
                flatten_eq_of_loop hpos h
              rw [Nat.add_comm]
              exact (aligned_add_iff hmid hport hflat _).mpr
                ⟨aligned_one port _,
                  ih (full_process hp _ l) hflat hlength h⟩

/-! ## All calls -/

theorem inStreamOrder_nil (port : Port) (lines : List Line) :
    InStreamOrder [] port lines := rfl

theorem full_start (garbage : Locals) (scan : LaserScan) :
    Full (Poll.start garbage scan).scan := full_prepare scan

/-- The first call of several, and the others on what it leaves. -/
theorem inStreamOrder_cons_iff (garbage : Locals) (scan : LaserScan)
    (calls : List (Locals × LaserScan)) (port : Port) (lines : List Line) :
    InStreamOrder ((garbage, scan) :: calls) port lines ↔
      ∃ rest, (Poll.start garbage scan).loop 10 port =
          some (processLines 10 (Poll.start garbage scan) lines, rest) ∧
        InStreamOrder calls rest (lines.drop 10) := by
  simp only [InStreamOrder, pollMany, processMany, poll, Bool.false_eq_true,
    if_false, Option.bind_eq_bind]
  constructor
  · intro h
    rcases Option.map_eq_some_iff.mp h with ⟨⟨ps, port'⟩, hmany, hps⟩
    rcases Option.bind_eq_some_iff.mp hmany with ⟨⟨q, rest⟩, hloop, hmany⟩
    rcases Option.bind_eq_some_iff.mp hmany with ⟨⟨qs, port''⟩, hrest, hqs⟩
    rcases Prod.mk.inj (Option.some.inj hqs) with ⟨rfl, rfl⟩
    rcases List.cons.inj hps with ⟨rfl, rfl⟩
    exact ⟨rest, hloop, by rw [hrest]; rfl⟩
  · intro h
    rcases h with ⟨rest, hloop, hrest⟩
    rcases Option.map_eq_some_iff.mp hrest with ⟨⟨qs, port'⟩, hmany, hqs⟩
    rw [hloop, Option.bind_some, hmany, ← hqs]
    rfl

private theorem inStreamOrder_of_aligned
    {calls : List (Locals × LaserScan)} {port : Port} {lines : List Line}
    (hport : port.flatten = stream lines)
    (hlines : 10 * calls.length ≤ lines.length)
    (ha : Aligned (10 * calls.length) port lines) :
    InStreamOrder calls port lines := by
  induction calls generalizing port lines with
  | nil => exact inStreamOrder_nil port lines
  | cons call calls ih =>
      rcases call with ⟨garbage, scan⟩
      rw [List.length_cons, Nat.mul_succ] at hlines ha
      have hten : 10 ≤ lines.length := by omega
      have hfirst : Aligned 10 port lines := fun i hi => ha i (by omega)
      obtain ⟨rest, hloop, hdone⟩ :=
        loop_of_aligned (full_start garbage scan) hport hten hfirst
      refine (inStreamOrder_cons_iff garbage scan calls port lines).mpr
        ⟨rest, hloop, ?_⟩
      cases calls with
      | nil => exact inStreamOrder_nil rest _
      | cons call' calls =>
          have hflat := hdone (ha 10 (by rw [List.length_cons]; omega))
          rw [Nat.add_comm] at ha
          refine ih hflat (by rw [List.length_drop]; omega) ?_
          exact ((aligned_add_iff (suffix_of_loop hloop) hport hflat _).mp ha).2

private theorem aligned_of_inStreamOrder
    {calls : List (Locals × LaserScan)} {port : Port} {lines : List Line}
    (hport : port.flatten = stream lines)
    (hlines : 10 * calls.length ≤ lines.length)
    (h : InStreamOrder calls port lines) :
    Aligned (10 * calls.length) port lines := by
  induction calls generalizing port lines with
  | nil => exact fun i hi => absurd hi (Nat.not_lt_zero i)
  | cons call calls ih =>
      rcases call with ⟨garbage, scan⟩
      obtain ⟨rest, hloop, hmany⟩ :=
        (inStreamOrder_cons_iff garbage scan calls port lines).mp h
      rw [List.length_cons, Nat.mul_succ] at hlines ⊢
      have hfirst := aligned_of_loop (full_start garbage scan) hport
        (by omega) hloop
      cases calls with
      | nil => exact hfirst
      | cons call' calls =>
          rcases call' with ⟨garbage', scan'⟩
          have hleft : 10 * ((garbage', scan') :: calls).length ≤
              (lines.drop 10).length := by
            rw [List.length_drop]
            omega
          have hpos : 0 < (lines.drop 10).length := by
            rw [List.length_cons] at hleft
            omega
          obtain ⟨rest', hloop', -⟩ :=
            (inStreamOrder_cons_iff garbage' scan' calls rest _).mp hmany
          have hflat := flatten_eq_of_loop hpos hloop'
          rw [Nat.add_comm]
          exact (aligned_add_iff (suffix_of_loop hloop) hport hflat _).mpr
            ⟨hfirst, ih hflat hleft hmany⟩

/-- On a stream with enough lines, the calls process the lines in order if and
only if each line they are due to read starts where a chunk starts. -/
theorem inStreamOrder_iff_aligned (calls : List (Locals × LaserScan))
    (port : Port) (lines : List Line) (hport : port.flatten = stream lines)
    (hlines : 10 * calls.length ≤ lines.length) :
    InStreamOrder calls port lines ↔
      Aligned (10 * calls.length) port lines :=
  ⟨aligned_of_inStreamOrder hport hlines, inStreamOrder_of_aligned hport hlines⟩

/-! ## A sweep of eleven lines -/

/-- The line of a reading at one metre. -/
def Line.echo (i : Nat) (hi : i < 360) : Line :=
  { position := Integer.unsigned i
    distance := Integer.unsigned 100
    degreesPerSecond :=
      { sign := .none, whole := decimal 36, frac := none
        digits_ne_nil := by simp [decimal_ne_nil]
        isDigit_whole := fun _ => isDigit_of_mem_decimal
        isDigit_frac := by simp }
    scanTimeMs := Integer.unsigned 20
    position_range := by rw [Integer.value_unsigned]; omega }

def sweep : List Line := List.ofFn fun i : Fin 11 => Line.echo i (by omega)

/-- One call, with the locals at zero and a new message. -/
def firstCall : List (Locals × LaserScan) :=
  [({ scanPosition := 0, distance := 0, degreesPerSecond := 0, scanTimeMs := 0
      dummy := 0 }, LaserScan.new)]

/-- Reads that return one line each. -/
theorem aligned_map_text (n : Nat) (lines : List Line) :
    Aligned n (lines.map Line.text) lines := by
  intro i _
  exact ⟨i, by rw [← List.map_take]; rfl⟩

theorem inStreamOrder_sweep :
    InStreamOrder firstCall (sweep.map Line.text) sweep :=
  (inStreamOrder_iff_aligned firstCall (sweep.map Line.text) sweep rfl
    (by decide)).mpr (aligned_map_text 10 sweep)

/-- A read returns two lines at once: the second one is never measured. -/
theorem not_inStreamOrder :
    ¬∀ (calls : List (Locals × LaserScan)) (port : Port) (lines : List Line),
      port.flatten = stream lines → (∀ c ∈ port, c ≠ []) →
      10 * calls.length ≤ lines.length → InStreamOrder calls port lines := by
  intro h
  have hsweep := h firstCall
    (stream (sweep.take 2) :: (sweep.drop 2).map Line.text) sweep
    (by decide +kernel) (by decide +kernel) (by decide)
  have hsecond := congrArg
    (Option.map (List.map fun p => p.scan.intensities[1]?)) hsweep
  -- The call returns a scan that has no reading at this position.
  have hmissed : Option.map (List.map fun p => p.scan.intensities[1]?)
      ((pollMany firstCall (stream (sweep.take 2) ::
        (sweep.drop 2).map Line.text)).map Prod.fst) = some [some 0] := by
    decide +kernel
  rw [hmissed] at hsecond
  revert hsecond
  decide +kernel

end LidarPublisher.Scan.Chunking
