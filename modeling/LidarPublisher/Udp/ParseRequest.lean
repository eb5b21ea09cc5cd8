import LidarPublisher.Lib.Bytes

/-!
# Parsing a request

`lidarserver::parseRequest` copies the incoming buffer into the member
`read_buf` while it looks for the terminator, extracts the 16-byte token field,
verifies it when no token is cached yet, and decodes the two command bytes.
The call to `verifyToken` is a parameter acting on a world `ω` (the database
and whatever else the call touches); the server instantiates it with the
modelled `verifyToken`, the oracle results with a recorder of calls.
-/

namespace LidarPublisher.Udp.ParseRequest

open LidarPublisher.Lib.Bytes

/-- `READ_BUF` and `UDP_IN_BUF`. -/
abbrev readBufSize : Nat := 21

/-- `std::array<char,21>`. -/
abbrev Buf := Vector UInt8 readBufSize

def carriageReturn : UInt8 := 0x0d
def lineFeed : UInt8 := 0x0a
def endOfTransmission : UInt8 := 0x04

/-- The members of `lidarserver` the request path reads or writes. -/
structure Server where
  readBuf : Buf
  token : List UInt8
  polling : Bool
  deriving DecidableEq, Repr

/-- The constructor: `read_buf.fill(0)`, `token = ""`, `polling = false`. -/
def Server.init : Server :=
  { readBuf := Vector.replicate readBufSize 0, token := [], polling := false }

/-! ## The terminator scan -/

/-- `read_buf` and the locals of the parse loop. -/
structure Scan where
  readBuf : Buf
  cr : Nat
  lf : Nat
  r : Bool
  deriving DecidableEq, Repr

/-- The loop body before the terminator test: copy byte `i` and set the two
sticky flags. -/
def Scan.copy (buf : Buf) (i : Nat) (hi : i < readBufSize) (s : Scan) : Scan :=
  { s with
    readBuf := s.readBuf.set i buf[i]
    cr := if buf[i] = carriageReturn then buf[i].toNat else s.cr
    lf := if buf[i] = lineFeed then buf[i].toNat else s.lf }

/-- `n` further iterations from index `i`; the `break` ends the recursion. -/
def scanLoop (buf : Buf) :
    (n i : Nat) → i + n ≤ readBufSize → Scan → Scan
  | 0, _, _, s => s
  | n + 1, i, h, s =>
      let s := s.copy buf i (by omega)
      if s.cr ≠ 0 ∧ s.lf ≠ 0 ∧ buf[i] = endOfTransmission then
        { s with r := true }
      else scanLoop buf n (i + 1) (by omega) s

/-- The whole loop `for(int i = 0; i<len;i++)`. -/
def scan (buf : Buf) (len : Nat) (hlen : len ≤ readBufSize) (readBuf : Buf) :
    Scan :=
  scanLoop buf len 0 (by omega) { readBuf := readBuf, cr := 0, lf := 0, r := false }

/-! ## Token and command bytes -/

/-- `tmp`: bytes 2 to 17 of `read_buf`, read as a C string (`tmp[16]` is the
NUL). -/
def extractToken (readBuf : Buf) : List UInt8 :=
  cString ((readBuf.toList.drop 2).take 16)

/-- The decision on the command bytes.  The last test of the source is the
assignment `start = 's'`, whose value is not zero. -/
def command (readBuf : Buf) : Int :=
  let lidar := readBuf[0]
  let start := readBuf[1]
  if lidar ≠ 'L'.toNat.toUInt8 then -1
  else if start ≠ 'S'.toNat.toUInt8 ∧ start ≠ 's'.toNat.toUInt8 then -1
  else if start = 'S'.toNat.toUInt8 then 0
  else
    let start := 's'.toNat.toUInt8
    if start ≠ 0 then 1 else -1

variable {ω : Type*}

/-- `lidarserver::parseRequest`: the returned code, the server and the world
after the call. -/
def parseRequest (verifyToken : List UInt8 → ω → Int × ω)
    (buf : Buf) (len : Nat) (hlen : len ≤ readBufSize)
    (s : Server) (w : ω) : Int × Server × ω :=
  let sc := scan buf len hlen s.readBuf
  let s := { s with readBuf := sc.readBuf }
  if sc.r = true ∧ s.readBuf.size = 21 then
    let tmp := extractToken s.readBuf
    if s.token = [] then
      let (answer, w) := verifyToken tmp w
      if answer = -1 then (-1, s, w)
      else
        let s := { s with token := tmp }
        (command s.readBuf, s, w)
    else (command s.readBuf, s, w)
  else (-1, s, w)

/-- A well-formed request whose sixteen token bytes are all `tok`. -/
def frame (start tok : UInt8) : Buf :=
  #v['L'.toNat.toUInt8, start, tok, tok, tok, tok, tok, tok, tok, tok, tok, tok,
    tok, tok, tok, tok, tok, tok, carriageReturn, lineFeed, endOfTransmission]

/-! ## What the scan computes -/

/-- An end-of-transmission byte at `k` with a carriage return and a line feed
both before it. -/
def TerminatorAt (b : List UInt8) (k : Nat) : Prop :=
  b[k]? = some endOfTransmission ∧
    carriageReturn ∈ b.take k ∧ lineFeed ∈ b.take k

instance (b : List UInt8) (k : Nat) : Decidable (TerminatorAt b k) :=
  inferInstanceAs (Decidable (_ ∧ _ ∧ _))

/-- The loop invariant before iteration `i`: the first `i` bytes are copied,
the flags record what stood in them, and no terminator was met. -/
structure ScanInv (buf old : Buf) (i : Nat) (s : Scan) : Prop where
  copied : s.readBuf.toList = buf.toList.take i ++ old.toList.drop i
  cr : s.cr ≠ 0 ↔ carriageReturn ∈ buf.toList.take i
  lf : s.lf ≠ 0 ↔ lineFeed ∈ buf.toList.take i
  r : s.r = false
  none : ∀ k, k < i → ¬TerminatorAt buf.toList k

/-- The two ways the scan of `len` bytes can end. -/
inductive ScanResult (buf old : Buf) (len : Nat) (s : Scan) : Prop
  | found (k : Nat) (hk : k < len) (hterm : TerminatorAt buf.toList k)
      (hleast : ∀ j, j < k → ¬TerminatorAt buf.toList j)
      (hr : s.r = true)
      (hbuf : s.readBuf.toList =
        buf.toList.take (k + 1) ++ old.toList.drop (k + 1))
  | missing (hnone : ∀ j, j < len → ¬TerminatorAt buf.toList j)
      (hr : s.r = false)
      (hbuf : s.readBuf.toList =
        buf.toList.take len ++ old.toList.drop len)

private theorem mem_take_succ_iff {buf : Buf} {i : Nat} (hi : i < readBufSize)
    (b : UInt8) :
    b ∈ buf.toList.take (i + 1) ↔ b ∈ buf.toList.take i ∨ b = buf[i] := by
  have hlen : i < buf.toList.length := by simpa using hi
  rw [List.take_succ_eq_append_getElem hlen]
  simp

/-- One copy step moves the first three clauses of the invariant to `i + 1`. -/
private theorem ScanInv.copy {buf old : Buf} {i : Nat} {s : Scan}
    (h : ScanInv buf old i s) (hi : i < readBufSize) :
    (s.copy buf i hi).readBuf.toList =
        buf.toList.take (i + 1) ++ old.toList.drop (i + 1) ∧
      ((s.copy buf i hi).cr ≠ 0 ↔
        carriageReturn ∈ buf.toList.take (i + 1)) ∧
      ((s.copy buf i hi).lf ≠ 0 ↔ lineFeed ∈ buf.toList.take (i + 1)) ∧
      (s.copy buf i hi).r = false := by
  refine ⟨?_, ?_, ?_, h.r⟩
  · have hlen : i < buf.toList.length := by simpa using hi
    have hold : i < old.toList.length := by simpa using hi
    have htake : (buf.toList.take i).length = i := by simp; omega
    simp only [Scan.copy]
    rw [Vector.toList_set, h.copied, List.set_append_right _ _ (by omega),
      htake, Nat.sub_self, List.drop_eq_getElem_cons hold, List.set_cons_zero,
      List.take_succ_eq_append_getElem hlen, List.append_assoc]
    simp
  · rw [mem_take_succ_iff hi]
    by_cases hb : buf[i] = carriageReturn
    · simp [Scan.copy, hb, carriageReturn]
    · simp only [Scan.copy, if_neg hb, h.cr]
      exact ⟨Or.inl, fun hor => hor.resolve_right fun heq => hb heq.symm⟩
  · rw [mem_take_succ_iff hi]
    by_cases hb : buf[i] = lineFeed
    · simp [Scan.copy, hb, lineFeed]
    · simp only [Scan.copy, if_neg hb, h.lf]
      exact ⟨Or.inl, fun hor => hor.resolve_right fun heq => hb heq.symm⟩

/-- The break test at `i` is the terminator test: the byte at `i` is not itself
one of the two flag bytes when it is the end-of-transmission byte. -/
private theorem ScanInv.break_iff {buf old : Buf} {i : Nat} {s : Scan}
    (h : ScanInv buf old i s) (hi : i < readBufSize) :
    ((s.copy buf i hi).cr ≠ 0 ∧ (s.copy buf i hi).lf ≠ 0 ∧
        buf[i] = endOfTransmission) ↔ TerminatorAt buf.toList i := by
  obtain ⟨-, hcr, hlf, -⟩ := h.copy hi
  have hget : buf.toList[i]? = some buf[i] := by
    rw [List.getElem?_eq_getElem (by simpa using hi)]
    simp
  rw [hcr, hlf, mem_take_succ_iff hi, mem_take_succ_iff hi, TerminatorAt, hget]
  constructor
  · intro h
    rcases h with ⟨hc, hl, he⟩
    rw [he] at hc hl ⊢
    exact ⟨rfl, hc.resolve_right (by decide), hl.resolve_right (by decide)⟩
  · intro h
    rcases h with ⟨he, hc, hl⟩
    exact ⟨Or.inl hc, Or.inl hl, Option.some.inj he⟩

/-- Induction over the remaining iterations, with the invariant carried. -/
private theorem scanLoop_result (buf old : Buf) (len : Nat) :
    ∀ (n i : Nat) (h : i + n ≤ readBufSize) (s : Scan), i + n = len →
      ScanInv buf old i s →
        ScanResult buf old len (scanLoop buf n i h s) := by
  intro n
  induction n with
  | zero =>
      intro i h s hlen hinv
      obtain rfl : i = len := hlen
      exact .missing hinv.none hinv.r hinv.copied
  | succ n ih =>
      intro i h s hlen hinv
      have hi : i < readBufSize := by omega
      obtain ⟨hbuf, hcr, hlf, hr⟩ := hinv.copy hi
      simp only [scanLoop]
      by_cases hterm : TerminatorAt buf.toList i
      · rw [if_pos ((hinv.break_iff hi).mpr hterm)]
        exact .found i (by omega) hterm hinv.none rfl hbuf
      · rw [if_neg (fun hb => hterm ((hinv.break_iff hi).mp hb))]
        have hnext : ScanInv buf old (i + 1) (s.copy buf i hi) :=
          { copied := hbuf
            cr := hcr
            lf := hlf
            r := hr
            none := by
              intro k hk
              rcases Nat.lt_succ_iff_lt_or_eq.mp hk with hlt | rfl
              · exact hinv.none k hlt
              · exact hterm }
        exact ih (i + 1) (by omega) _ (by omega) hnext

/-- **The terminator scan.**  It succeeds exactly on a terminator below `len`,
and then has overwritten `read_buf` up to the first one; otherwise it has
overwritten the first `len` bytes. -/
theorem scan_result (buf : Buf) (len : Nat) (hlen : len ≤ readBufSize)
    (readBuf : Buf) :
    ScanResult buf readBuf len (scan buf len hlen readBuf) := by
  have hinit : ScanInv buf readBuf 0
      { readBuf := readBuf, cr := 0, lf := 0, r := false } :=
    { copied := by simp
      cr := by simp
      lf := by simp
      r := rfl
      none := by simp }
  exact scanLoop_result buf readBuf len len 0 (by omega) _ (by omega) hinit

/-- There is one first terminator. -/
theorem first_unique {b : List UInt8} {k k' : Nat}
    (hterm : TerminatorAt b k) (hleast : ∀ j, j < k → ¬TerminatorAt b j)
    (hterm' : TerminatorAt b k') (hleast' : ∀ j, j < k' → ¬TerminatorAt b j) :
    k = k' := by
  rcases Nat.lt_trichotomy k k' with hlt | heq | hgt
  · exact absurd hterm (hleast' k hlt)
  · exact heq
  · exact absurd hterm' (hleast k' hgt)

/-- Bytes of a buffer that was overwritten up to `n`. -/
private theorem getElem_of_overwritten {buf old new : Buf} {n : Nat}
    (h : new.toList = buf.toList.take n ++ old.toList.drop n)
    (hn : n ≤ readBufSize) (i : Nat) (hi : i < readBufSize) :
    new[i] = if i < n then buf[i] else old[i] := by
  have hlen : (buf.toList.take n).length = n := by simp; omega
  rw [← Vector.getElem_toList (by simpa using hi)]
  simp only [h]
  by_cases hin : i < n
  · rw [if_pos hin, List.getElem_append_left (by omega)]
    simp
  · rw [if_neg hin, List.getElem_append_right (by omega)]
    simp only [hlen, List.getElem_drop, Vector.getElem_toList]
    congr 1
    omega

/-- **What the loop computes.**  It sets `r` exactly on a terminator below
`len`; `read_buf` is overwritten up to and with the first one, or below `len`
when there is none. -/
theorem scan_spec (buf : Buf) (len : Nat) (hlen : len ≤ readBufSize)
    (readBuf : Buf) :
    let s := scan buf len hlen readBuf
    (s.r = true ↔ ∃ k, k < len ∧ TerminatorAt buf.toList k) ∧
      (∀ k, k < len → TerminatorAt buf.toList k →
        (∀ j, j < k → ¬TerminatorAt buf.toList j) →
          ∀ i (hi : i < readBufSize),
            s.readBuf[i] = if i ≤ k then buf[i] else readBuf[i]) ∧
      ((∀ k, k < len → ¬TerminatorAt buf.toList k) →
        ∀ i (hi : i < readBufSize),
          s.readBuf[i] = if i < len then buf[i] else readBuf[i]) := by
  intro s
  cases scan_result buf len hlen readBuf with
  | found k hk hterm hleast hr hbuf =>
      refine ⟨iff_of_true hr ⟨k, hk, hterm⟩, ?_, fun h => absurd hterm (h k hk)⟩
      intro k' _ hterm' hleast' i hi
      rw [first_unique hterm' hleast' hterm hleast,
        getElem_of_overwritten hbuf (by omega) i hi]
      simp only [Nat.lt_succ_iff]
  | missing hnone hr hbuf =>
      refine ⟨iff_of_false (by rw [hr]; decide) ?_, ?_, ?_⟩
      · intro h
        rcases h with ⟨k, hk, hterm⟩
        exact hnone k hk hterm
      · intro k hk hterm
        exact absurd hterm (hnone k hk)
      · intro _ i hi
        exact getElem_of_overwritten hbuf hlen i hi

/-- A well-formed request of 21 bytes is terminated. -/
theorem scan_spec_frame :
    (scan (frame 0x53 0x61) 21 (Nat.le_refl _) (Vector.replicate _ 0)).r = true :=
  (scan_spec (frame 0x53 0x61) 21 (Nat.le_refl _) (Vector.replicate _ 0)).1.mpr
    ⟨20, by decide, by decide⟩

/-! ## The first terminator -/

theorem TerminatorAt.lt_length {b : List UInt8} {k : Nat}
    (h : TerminatorAt b k) : k < b.length :=
  (List.getElem?_eq_some_iff.mp h.1).1

/-- Two different bytes stand before the end of transmission. -/
theorem TerminatorAt.two_le {b : List UInt8} {k : Nat}
    (h : TerminatorAt b k) : 2 ≤ k := by
  rcases h with ⟨-, hcr, hlf⟩
  match k with
  | 0 => simp at hcr
  | 1 =>
      rcases b with _ | ⟨x, xs⟩
      · simp at hcr
      · simp only [List.take_succ_cons, List.take_zero,
          List.mem_singleton] at hcr hlf
        rw [← hcr] at hlf
        exact absurd hlf (by decide)
  | k + 2 => omega

/-- A terminator inside the first part does not depend on what follows. -/
theorem terminatorAt_append_iff {b c : List UInt8} {k : Nat}
    (hk : k < b.length) : TerminatorAt (b ++ c) k ↔ TerminatorAt b k := by
  unfold TerminatorAt
  rw [List.getElem?_append_left hk, List.take_append_of_le_length hk.le]

/-- Index of the first terminator. -/
def firstTerminator (b : List UInt8) : Option Nat :=
  (List.range b.length).find? fun k => decide (TerminatorAt b k)

theorem firstTerminator_eq_some_iff {b : List UInt8} {k : Nat} :
    firstTerminator b = some k ↔
      TerminatorAt b k ∧ ∀ j, j < k → ¬TerminatorAt b j := by
  unfold firstTerminator
  rw [List.find?_range_eq_some]
  constructor
  · intro h
    rcases h with ⟨hterm, -, hleast⟩
    exact ⟨by simpa using hterm, fun j hj => by simpa using hleast j hj⟩
  · intro h
    rcases h with ⟨hterm, hleast⟩
    refine ⟨by simpa using hterm, List.mem_range.mpr hterm.lt_length, ?_⟩
    intro j hj
    simpa using hleast j hj

theorem firstTerminator_eq_none_iff {b : List UInt8} :
    firstTerminator b = none ↔ ∀ k, ¬TerminatorAt b k := by
  unfold firstTerminator
  rw [List.find?_eq_none]
  constructor
  · intro h k hk
    exact h k (List.mem_range.mpr hk.lt_length) (by simpa using hk)
  · intro h k _ hk
    exact h k (by simpa using hk)

/-- The scan of the whole buffer, found case. -/
theorem scan_of_firstTerminator_some {buf : Buf} (readBuf : Buf) {k : Nat}
    (h : firstTerminator buf.toList = some k) :
    (scan buf readBufSize (Nat.le_refl _) readBuf).r = true ∧
      (scan buf readBufSize (Nat.le_refl _) readBuf).readBuf.toList =
        buf.toList.take (k + 1) ++ readBuf.toList.drop (k + 1) := by
  obtain ⟨hterm, hleast⟩ := firstTerminator_eq_some_iff.mp h
  have hk : k < readBufSize := by simpa using hterm.lt_length
  cases scan_result buf readBufSize (Nat.le_refl _) readBuf with
  | found k' hk' hterm' hleast' hr hbuf =>
      rw [first_unique hterm hleast hterm' hleast']
      exact ⟨hr, hbuf⟩
  | missing hnone hr hbuf => exact absurd hterm (hnone k hk)

/-- The scan of the whole buffer, failing case. -/
theorem scan_of_firstTerminator_none {buf : Buf} (readBuf : Buf)
    (h : firstTerminator buf.toList = none) :
    (scan buf readBufSize (Nat.le_refl _) readBuf).r = false ∧
      (scan buf readBufSize (Nat.le_refl _) readBuf).readBuf = buf := by
  have hnone := firstTerminator_eq_none_iff.mp h
  cases scan_result buf readBufSize (Nat.le_refl _) readBuf with
  | found k hk hterm hleast hr hbuf => exact absurd hterm (hnone k)
  | missing _ hr hbuf =>
      refine ⟨hr, Vector.toList_inj.mp ?_⟩
      rw [hbuf, List.take_of_length_le (by simp),
        List.drop_eq_nil_of_le (by simp), List.append_nil]

/-- The scan of the whole buffer succeeds exactly on a terminator. -/
theorem scan_r_eq (buf readBuf : Buf) :
    (scan buf readBufSize (Nat.le_refl _) readBuf).r =
      (firstTerminator buf.toList).isSome := by
  cases h : firstTerminator buf.toList with
  | some k => exact (scan_of_firstTerminator_some readBuf h).1
  | none => exact (scan_of_firstTerminator_none readBuf h).1

/-- Whether the scan succeeds does not depend on what it overwrites. -/
theorem scan_r_congr (buf readBuf readBuf' : Buf) :
    (scan buf readBufSize (Nat.le_refl _) readBuf).r =
      (scan buf readBufSize (Nat.le_refl _) readBuf').r := by
  rw [scan_r_eq, scan_r_eq]

/-- Scanning the same buffer again overwrites the same bytes. -/
theorem scan_scan (buf readBuf : Buf) :
    (scan buf readBufSize (Nat.le_refl _)
        (scan buf readBufSize (Nat.le_refl _) readBuf).readBuf).readBuf =
      (scan buf readBufSize (Nat.le_refl _) readBuf).readBuf := by
  cases h : firstTerminator buf.toList with
  | some k =>
      have hk : k < buf.toList.length :=
        (firstTerminator_eq_some_iff.mp h).1.lt_length
      have hlen : (buf.toList.take (k + 1)).length = k + 1 := by
        rw [List.length_take]
        omega
      apply Vector.toList_inj.mp
      rw [(scan_of_firstTerminator_some _ h).2,
        (scan_of_firstTerminator_some readBuf h).2,
        List.drop_append_of_le_length hlen.ge, List.drop_of_length_le hlen.le,
        List.nil_append]
  | none =>
      rw [(scan_of_firstTerminator_none _ h).2,
        (scan_of_firstTerminator_none readBuf h).2]

/-! ## The exits of `parseRequest` -/

/-- `start` and `stop` are the only accepted command pairs. -/
theorem command_eq_zero_iff (readBuf : Buf) :
    command readBuf = 0 ↔
      readBuf[0] = 'L'.toNat.toUInt8 ∧ readBuf[1] = 'S'.toNat.toUInt8 := by
  unfold command
  grind

theorem command_eq_one_iff (readBuf : Buf) :
    command readBuf = 1 ↔
      readBuf[0] = 'L'.toNat.toUInt8 ∧ readBuf[1] = 's'.toNat.toUInt8 := by
  unfold command
  grind

/-- The command bytes either select start or stop, or the request fails. -/
theorem command_cases (readBuf : Buf) :
    command readBuf = -1 ∨ command readBuf = 0 ∨ command readBuf = 1 := by
  unfold command
  grind

/-- The command decision looks at the first two bytes only. -/
theorem command_congr {b b' : Buf}
    (h : b.toList.take 2 = b'.toList.take 2) : command b = command b' := by
  have hget : ∀ i (_ : i < 2) (_ : i < readBufSize), b[i] = b'[i] := by
    intro i hi hsize
    have hopt := congrArg (fun l => l[i]?) h
    have hopt' : b[i]? = b'[i]? := by
      simpa [List.getElem?_take, hi] using hopt
    simpa [Vector.getElem?_eq_getElem hsize] using hopt'
  unfold command
  rw [hget 0 (by omega) (by decide), hget 1 (by omega) (by decide)]

/-- The two command bytes select start or stop. -/
def CommandBytes (b : List UInt8) : Prop :=
  b[0]? = some 'L'.toNat.toUInt8 ∧
    (b[1]? = some 'S'.toNat.toUInt8 ∨ b[1]? = some 's'.toNat.toUInt8)

instance (b : List UInt8) : Decidable (CommandBytes b) :=
  inferInstanceAs (Decidable (_ ∧ (_ ∨ _)))

theorem command_eq_neg_one_iff (readBuf : Buf) :
    command readBuf = -1 ↔ ¬CommandBytes readBuf.toList := by
  have hget : ∀ i (hi : i < readBufSize),
      readBuf.toList[i]? = some readBuf[i] := by
    intro i hi
    rw [List.getElem?_eq_getElem (by simpa using hi), Vector.getElem_toList]
  unfold CommandBytes
  rw [hget 0 (by decide), hget 1 (by decide)]
  unfold command
  grind

/-- The extracted token is empty exactly when its field starts with a NUL. -/
theorem extractToken_eq_nil_iff (readBuf : Buf) :
    extractToken readBuf = [] ↔ readBuf.toList[2]? = some 0 := by
  have hlen : 2 < readBuf.toList.length := by simp [readBufSize]
  unfold extractToken cString
  rw [List.drop_eq_getElem_cons hlen, List.take_succ_cons,
    List.getElem?_eq_getElem hlen]
  simp

/-- The server after the scan has run over its `read_buf`. -/
def Server.scanned (s : Server) (buf : Buf) (len : Nat)
    (hlen : len ≤ readBufSize) : Server :=
  { s with readBuf := (scan buf len hlen s.readBuf).readBuf }

@[simp] theorem Server.scanned_token (s : Server) (buf : Buf) (len : Nat)
    (hlen : len ≤ readBufSize) : (s.scanned buf len hlen).token = s.token :=
  rfl

@[simp] theorem Server.scanned_polling (s : Server) (buf : Buf) (len : Nat)
    (hlen : len ≤ readBufSize) :
    (s.scanned buf len hlen).polling = s.polling := rfl

/-- The token string a request presents to the server in state `s`. -/
def presented (buf : Buf) (len : Nat) (hlen : len ≤ readBufSize)
    (s : Server) : List UInt8 :=
  extractToken (s.scanned buf len hlen).readBuf

/-- The four exits of `parseRequest`, with what each returns. -/
inductive ParseExit (verifyToken : List UInt8 → ω → Int × ω)
    (buf : Buf) (len : Nat) (hlen : len ≤ readBufSize)
    (s : Server) (w : ω) : Int × Server × ω → Prop
  | noTerminator (hr : (scan buf len hlen s.readBuf).r = false) :
      ParseExit verifyToken buf len hlen s w
        (-1, s.scanned buf len hlen, w)
  | refused (hr : (scan buf len hlen s.readBuf).r = true)
      (htok : s.token = [])
      (hans : (verifyToken (presented buf len hlen s) w).1 = -1) :
      ParseExit verifyToken buf len hlen s w
        (-1, s.scanned buf len hlen,
          (verifyToken (presented buf len hlen s) w).2)
  | verified (hr : (scan buf len hlen s.readBuf).r = true)
      (htok : s.token = [])
      (hans : (verifyToken (presented buf len hlen s) w).1 ≠ -1) :
      ParseExit verifyToken buf len hlen s w
        (command (s.scanned buf len hlen).readBuf,
          { s.scanned buf len hlen with token := presented buf len hlen s },
          (verifyToken (presented buf len hlen s) w).2)
  | cached (hr : (scan buf len hlen s.readBuf).r = true)
      (htok : s.token ≠ []) :
      ParseExit verifyToken buf len hlen s w
        (command (s.scanned buf len hlen).readBuf,
          s.scanned buf len hlen, w)

/-- Every call leaves by one of the four exits. -/
theorem parseRequest_exit (verifyToken : List UInt8 → ω → Int × ω)
    (buf : Buf) (len : Nat) (hlen : len ≤ readBufSize)
    (s : Server) (w : ω) :
    ParseExit verifyToken buf len hlen s w
      (parseRequest verifyToken buf len hlen s w) := by
  unfold parseRequest
  dsimp only
  split
  · next hframe =>
      split
      · next htok =>
          split
          · next hans => exact .refused hframe.1 htok hans
          · next hans => exact .verified hframe.1 htok hans
      · next htok => exact .cached hframe.1 htok
  · next hframe =>
      have hr : (scan buf len hlen s.readBuf).r = false := by
        rw [← Bool.not_eq_true]
        exact fun hr => hframe ⟨hr, rfl⟩
      exact .noTerminator hr

/-- With a token in the cache the call of `verifyToken` is not made. -/
theorem parseRequest_of_cached {ω' : Type}
    (verifyToken : List UInt8 → ω → Int × ω)
    (verifyToken' : List UInt8 → ω' → Int × ω') {s : Server} (h : s.token ≠ [])
    (buf : Buf) (len : Nat) (hlen : len ≤ readBufSize) (w : ω) (w' : ω') :
    (parseRequest verifyToken buf len hlen s w).1 =
        (parseRequest verifyToken' buf len hlen s w').1 ∧
      (parseRequest verifyToken buf len hlen s w).2.1 =
        (parseRequest verifyToken' buf len hlen s w').2.1 ∧
      (parseRequest verifyToken buf len hlen s w).2.1.token = s.token ∧
      (parseRequest verifyToken buf len hlen s w).2.2 = w := by
  unfold parseRequest
  simp only [if_neg h]
  split
  · exact ⟨rfl, rfl, rfl, rfl⟩
  · exact ⟨rfl, rfl, rfl, rfl⟩

/-- `parseRequest` does not touch the polling flag. -/
theorem parseRequest_polling (verifyToken : List UInt8 → ω → Int × ω)
    (buf : Buf) (len : Nat) (hlen : len ≤ readBufSize)
    (s : Server) (w : ω) :
    (parseRequest verifyToken buf len hlen s w).2.1.polling = s.polling := by
  have hexit := parseRequest_exit verifyToken buf len hlen s w
  generalize parseRequest verifyToken buf len hlen s w = out at hexit ⊢
  cases hexit <;> rfl

/-! ## Messages of 21 bytes -/

/-- The scan of a whole buffer. -/
abbrev scan21 (buf readBuf : Buf) : Scan :=
  scan buf readBufSize (Nat.le_refl _) readBuf

/-- The token string of a whole buffer. -/
abbrev presented21 (buf : Buf) (s : Server) : List UInt8 :=
  presented buf readBufSize (Nat.le_refl _) s

/-- The parse of a whole buffer. -/
def parse21 (verifyToken : List UInt8 → ω → Int × ω) (buf : Buf) (s : Server)
    (w : ω) : Int × Server × ω :=
  parseRequest verifyToken buf readBufSize (Nat.le_refl _) s w

theorem parse21_exit (verifyToken : List UInt8 → ω → Int × ω) (buf : Buf)
    (s : Server) (w : ω) :
    ParseExit verifyToken buf readBufSize (Nat.le_refl _) s w
      (parse21 verifyToken buf s w) :=
  parseRequest_exit verifyToken buf readBufSize (Nat.le_refl _) s w

/-- The terminator stands behind the command bytes, so these are the ones of
the buffer. -/
theorem command_scan21 {buf : Buf} (readBuf : Buf)
    (h : (scan21 buf readBuf).r = true) :
    command (scan21 buf readBuf).readBuf = command buf := by
  obtain ⟨k, hk⟩ := Option.isSome_iff_exists.mp ((scan_r_eq buf readBuf).symm.trans h)
  obtain ⟨hterm, -⟩ := firstTerminator_eq_some_iff.mp hk
  have htwo := hterm.two_le
  have hlt := hterm.lt_length
  apply command_congr
  rw [(scan_of_firstTerminator_some readBuf hk).2, List.take_append_of_le_length
    (by rw [List.length_take]; omega), List.take_take, Nat.min_eq_left (by omega)]

/-- What the parse answers: the command of the buffer, unless the terminator is
missing or the token refused. -/
theorem parse21_answer (verifyToken : List UInt8 → ω → Int × ω) (buf : Buf)
    (s : Server) (w : ω) :
    (parse21 verifyToken buf s w).1 =
      if (firstTerminator buf.toList).isSome = true ∧
          (s.token = [] → (verifyToken (presented21 buf s) w).1 ≠ -1) then
        command buf
      else -1 := by
  have hr := scan_r_eq buf s.readBuf
  have hexit := parse21_exit verifyToken buf s w
  generalize parse21 verifyToken buf s w = out at hexit ⊢
  cases hexit with
  | noTerminator hmissing =>
      rw [if_neg]
      intro h
      rcases h with ⟨hterm, -⟩
      rw [← hr, hmissing] at hterm
      exact absurd hterm (by decide)
  | refused hfound htok hans =>
      rw [if_neg]
      intro h
      rcases h with ⟨-, hacc⟩
      exact hacc htok hans
  | verified hfound htok hans =>
      rw [if_pos ⟨hr.symm.trans hfound, fun _ => hans⟩]
      exact command_scan21 s.readBuf hfound
  | cached hfound htok =>
      rw [if_pos ⟨hr.symm.trans hfound, fun hnil => absurd hnil htok⟩]
      exact command_scan21 s.readBuf hfound

end LidarPublisher.Udp.ParseRequest
