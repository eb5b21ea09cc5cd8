import LidarPublisher.Lib.Run
import LidarPublisher.Udp.HandleReceive

/-!
# Which datagrams are isolated from earlier ones

`handle_receive` parses all 21 bytes of the socket's `read_buf`, and
`parseRequest` extracts the token from its own `read_buf`; both may hold bytes
of earlier datagrams.  A datagram is isolated when its outcome is a function of
its own bytes and of the session.  `SelfContained` says which datagrams are, in
terms of where their first terminator stands.
-/

namespace LidarPublisher.Udp.Isolation

open LidarPublisher.Lib.Run
open LidarPublisher.Lib.Bytes
open LidarPublisher.Udp.ParseRequest
open LidarPublisher.Udp.HandleReceive

variable {ω : Type}

/-- The node after one completion in the world of that moment. -/
def hear (verifyToken : List UInt8 → ω → Int × ω) (n : Node)
    (e : Completion × ω) : Node :=
  (complete verifyToken e.1 n e.2).2.1

/-- What a datagram received without error does to the session: the result of
`parseRequest`, the new cached token and the new polling flag. -/
def outcome (verifyToken : List UInt8 → ω → Int × ω) (d : Datagram)
    (n : Node) (w : ω) : Option Int × List UInt8 × Bool :=
  let (res, n, _) := complete verifyToken { datagram := d, error := .success } n w
  (res, n.server.token, n.server.polling)

/-- Two histories that leave the same session are not told apart by `d`. -/
def Isolated (verifyToken : List UInt8 → ω → Int × ω) (d : Datagram) : Prop :=
  ∀ (garbage garbage' : Buf) (hist hist' : List (Completion × ω)),
    let n := runFrom (hear verifyToken) (Node.init garbage) hist
    let n' := runFrom (hear verifyToken) (Node.init garbage') hist'
    n.server.token = n'.server.token → n.server.polling = n'.server.polling →
      ∀ w, outcome verifyToken d n w = outcome verifyToken d n' w

/-- Stale bytes behind `b` can complete a terminator: there is room for the
control bytes `b` does not contain. -/
def Completable (b : List UInt8) : Prop :=
  b.length + (if carriageReturn ∈ b then 0 else 1) +
    (if lineFeed ∈ b then 0 else 1) < readBufSize

/-- Either the datagram carries a terminator behind its token field (or behind a
NUL that ends it), or no stale bytes can complete one, or completing one leads
nowhere because the token is empty and the command bytes are wrong. -/
def SelfContained (d : Datagram) : Prop :=
  match firstTerminator d.bytes with
  | some k => 17 ≤ k ∨ (0 : UInt8) ∈ (d.bytes.take (k + 1)).drop 2
  | none => ¬Completable d.bytes ∨
      (d.bytes[2]? = some 0 ∧ ¬CommandBytes d.bytes)

/-! ## The outcome in terms of the scan -/

/-- The whole buffer as the parser sees it. -/
def merged (d : Datagram) (n : Node) : Buf :=
  overlay d.bytes d.fits n.socket.readBuf

@[simp] theorem toList_merged (d : Datagram) (n : Node) :
    (merged d n).toList = d.bytes ++ n.socket.readBuf.toList.drop d.bytes.length :=
  rfl

/-- The server's `read_buf` after the scan of the merged buffer. -/
def scannedBuf (d : Datagram) (n : Node) : Buf :=
  (n.server.scanned (merged d n) readBufSize (Nat.le_refl _)).readBuf

/-- The call of `parseRequest` made for the datagram leaves by one of its
exits. -/
theorem parsed_exit (verifyToken : List UInt8 → ω → Int × ω) (d : Datagram)
    (n : Node) (w : ω) :
    ParseExit verifyToken (merged d n) readBufSize (Nat.le_refl _) n.server w
      (parsed verifyToken d n w) :=
  parseRequest_exit verifyToken (merged d n) readBufSize (Nat.le_refl _)
    n.server w

/-- Without a terminator the session stays as it is. -/
theorem outcome_of_none (verifyToken : List UInt8 → ω → Int × ω)
    (d : Datagram) (n : Node) (w : ω)
    (h : firstTerminator (merged d n).toList = none) :
    outcome verifyToken d n w = (some (-1), n.server.token, n.server.polling) := by
  have hscan := (scan_of_firstTerminator_none n.server.readBuf h).1
  unfold outcome
  rw [complete_success, respond_eq]
  have hexit := parsed_exit verifyToken d n w
  generalize parsed verifyToken d n w = out at hexit ⊢
  cases hexit with
  | noTerminator hr => rfl
  | refused hr _ _ => simp [hr] at hscan
  | verified hr _ _ => simp [hr] at hscan
  | cached hr _ => simp [hr] at hscan

/-- With a terminator the outcome is a function of the session, the extracted
token and the command decision. -/
theorem outcome_of_some (verifyToken : List UInt8 → ω → Int × ω)
    (d : Datagram) (n : Node) (w : ω) {k : Nat}
    (h : firstTerminator (merged d n).toList = some k) :
    outcome verifyToken d n w =
      if n.server.token = [] then
        if (verifyToken (extractToken (scannedBuf d n)) w).1 = -1 then
          (some (-1), [], n.server.polling)
        else
          (some (command (scannedBuf d n)), extractToken (scannedBuf d n),
            pollingAfter (command (scannedBuf d n)) n.server.polling)
      else
        (some (command (scannedBuf d n)), n.server.token,
          pollingAfter (command (scannedBuf d n)) n.server.polling) := by
  have hscan := (scan_of_firstTerminator_some n.server.readBuf h).1
  unfold outcome
  rw [complete_success, respond_eq]
  have hexit := parsed_exit verifyToken d n w
  generalize parsed verifyToken d n w = out at hexit ⊢
  cases hexit with
  | noTerminator hr => simp [hr] at hscan
  | refused hr htok hans =>
      change (verifyToken (extractToken (scannedBuf d n)) w).1 = -1 at hans
      rw [if_pos htok, if_pos hans]
      simp [startReceive, pollingAfter, htok]
  | verified hr htok hans =>
      change (verifyToken (extractToken (scannedBuf d n)) w).1 ≠ -1 at hans
      rw [if_pos htok, if_neg hans]
      rfl
  | cached hr htok =>
      rw [if_neg htok]
      rfl

/-! ## Self-contained datagrams are isolated -/

/-- A terminator of the datagram itself is the first one of the buffer. -/
theorem firstTerminator_merged {d : Datagram} (n : Node) {k : Nat}
    (h : firstTerminator d.bytes = some k) :
    firstTerminator (merged d n).toList = some k := by
  obtain ⟨hterm, hleast⟩ := firstTerminator_eq_some_iff.mp h
  rw [firstTerminator_eq_some_iff, toList_merged,
    terminatorAt_append_iff hterm.lt_length]
  refine ⟨hterm, fun j hj => ?_⟩
  rw [terminatorAt_append_iff (hj.trans hterm.lt_length)]
  exact hleast j hj

/-- A terminator of the buffer that the datagram does not carry stands behind
the datagram, and the missing control bytes fit before it. -/
theorem completable_of_merged {d : Datagram} (n : Node) {k : Nat}
    (hnone : firstTerminator d.bytes = none)
    (h : TerminatorAt (merged d n).toList k) :
    d.bytes.length ≤ k ∧ Completable d.bytes := by
  have hk : k < readBufSize := by
    have hlt := h.lt_length
    rwa [Vector.length_toList] at hlt
  have hlen : d.bytes.length ≤ k := by
    by_contra hlt
    rw [toList_merged, terminatorAt_append_iff (by omega)] at h
    exact firstTerminator_eq_none_iff.mp hnone k h
  refine ⟨hlen, ?_⟩
  rcases h with ⟨-, hcr, hlf⟩
  rw [toList_merged, List.take_append, List.take_of_length_le hlen,
    List.mem_append] at hcr hlf
  generalize hrest : (n.socket.readBuf.toList.drop d.bytes.length).take
    (k - d.bytes.length) = rest at hcr hlf
  have hroom : rest.length ≤ k - d.bytes.length := by
    rw [← hrest]
    exact List.length_take_le _ _
  -- each missing control byte takes a cell of its own between the datagram and `k`
  have hcells : (if carriageReturn ∈ d.bytes then 0 else 1) +
      (if lineFeed ∈ d.bytes then 0 else 1) ≤ rest.length := by
    by_cases hcrd : carriageReturn ∈ d.bytes
    · by_cases hlfd : lineFeed ∈ d.bytes
      · simp [hcrd, hlfd]
      · have hpos := List.length_pos_of_mem (hlf.resolve_left hlfd)
        simp only [hcrd, hlfd, if_true, if_false]
        omega
    · have hcrr := hcr.resolve_left hcrd
      by_cases hlfd : lineFeed ∈ d.bytes
      · have hpos := List.length_pos_of_mem hcrr
        simp only [hcrd, hlfd, if_true, if_false]
        omega
      · have hlfr := hlf.resolve_left hlfd
        have hpair : [carriageReturn, lineFeed] ⊆ rest := by
          simp [hcrr, hlfr]
        have htwo := List.subperm_of_subset (by decide) hpair |>.length_le
        simp only [hcrd, hlfd, if_false]
        simpa using htwo
  unfold Completable
  omega

/-- The server's `read_buf` after a scan that found a terminator at `k`. -/
theorem toList_scannedBuf {d : Datagram} {n : Node} {k : Nat}
    (h : firstTerminator (merged d n).toList = some k) :
    (scannedBuf d n).toList =
      (merged d n).toList.take (k + 1) ++
        n.server.readBuf.toList.drop (k + 1) :=
  (scan_of_firstTerminator_some _ h).2

/-- The scan copied the buffer up to its first terminator. -/
theorem getElem?_scannedBuf {d : Datagram} {n : Node} {k i : Nat}
    (h : firstTerminator (merged d n).toList = some k) (hi : i ≤ k) :
    (scannedBuf d n).toList[i]? = (merged d n).toList[i]? := by
  have hk : k < (merged d n).toList.length :=
    (firstTerminator_eq_some_iff.mp h).1.lt_length
  rw [toList_scannedBuf h, List.getElem?_append_left (by
    rw [List.length_take]; omega), List.getElem?_take, if_pos (by omega)]

theorem getElem?_merged_of_lt {d : Datagram} (n : Node) {i : Nat}
    (hi : i < d.bytes.length) : (merged d n).toList[i]? = d.bytes[i]? := by
  rw [toList_merged, List.getElem?_append_left hi]

/-- Behind the datagram the buffer still holds what was there before. -/
theorem getElem?_merged_of_le {d : Datagram} (n : Node) {i : Nat}
    (hi : d.bytes.length ≤ i) :
    (merged d n).toList[i]? = n.socket.readBuf.toList[i]? := by
  rw [toList_merged, List.getElem?_append_right hi, List.getElem?_drop,
    Nat.add_sub_cancel' hi]

/-- The bytes the scan copied from the datagram, up to `m`. -/
theorem take_scannedBuf {d : Datagram} {n : Node} {k m : Nat}
    (h : firstTerminator (merged d n).toList = some k)
    (hm : m ≤ k + 1) (hd : m ≤ d.bytes.length) :
    (scannedBuf d n).toList.take m = d.bytes.take m := by
  have hlt : k < (merged d n).toList.length :=
    (firstTerminator_eq_some_iff.mp h).1.lt_length
  rw [toList_scannedBuf h, List.take_append_of_le_length (by
    rw [List.length_take]; omega), List.take_take, Nat.min_eq_left hm,
    toList_merged, List.take_append_of_le_length hd]

/-- With the terminator behind the token field, or a NUL before it, the token
is read from the datagram alone. -/
theorem extractToken_scannedBuf {d : Datagram} (n : Node) {k : Nat}
    (h : firstTerminator d.bytes = some k)
    (htok : 17 ≤ k ∨ (0 : UInt8) ∈ (d.bytes.take (k + 1)).drop 2) :
    extractToken (scannedBuf d n) =
      cString ((d.bytes.take (min 18 (k + 1))).drop 2) := by
  have hmerged := firstTerminator_merged n h
  have hk : k < d.bytes.length :=
    (firstTerminator_eq_some_iff.mp h).1.lt_length
  unfold extractToken
  rw [List.take_drop]
  by_cases h17 : 17 ≤ k
  · rw [Nat.min_eq_left (by omega),
      take_scannedBuf hmerged (by omega) (by omega)]
  · have hnul := htok.resolve_left h17
    rw [Nat.min_eq_right (by omega)]
    have hsplit : (scannedBuf d n).toList.take (2 + 16) =
        d.bytes.take (k + 1) ++
          ((scannedBuf d n).toList.take (2 + 16)).drop (k + 1) := by
      rw [← take_scannedBuf hmerged (Nat.le_refl (k + 1)) (by omega)]
      rw [← Nat.min_eq_left (show k + 1 ≤ 2 + 16 by omega), ← List.take_take,
        Nat.min_eq_left (by omega), List.take_append_drop]
    rw [hsplit, List.drop_append_of_le_length (by
      have htwo := (firstTerminator_eq_some_iff.mp h).1.two_le
      rw [List.length_take]
      omega)]
    exact cString_append_of_mem _ hnul

/-- The outcome of a self-contained datagram is a function of the session. -/
theorem outcome_congr (verifyToken : List UInt8 → ω → Int × ω)
    {d : Datagram} (hd : SelfContained d) (n n' : Node)
    (htok : n.server.token = n'.server.token)
    (hpoll : n.server.polling = n'.server.polling) (w : ω) :
    outcome verifyToken d n w = outcome verifyToken d n' w := by
  unfold SelfContained at hd
  cases hterm : firstTerminator d.bytes with
  | some k =>
      rw [hterm] at hd
      obtain ⟨hat, -⟩ := firstTerminator_eq_some_iff.mp hterm
      have hk := hat.lt_length
      have htwo := hat.two_le
      have hcmd : command (scannedBuf d n) = command (scannedBuf d n') := by
        apply command_congr
        rw [take_scannedBuf (firstTerminator_merged n hterm) (by omega)
            (by omega),
          take_scannedBuf (firstTerminator_merged n' hterm) (by omega)
            (by omega)]
      rw [outcome_of_some verifyToken d n w (firstTerminator_merged n hterm),
        outcome_of_some verifyToken d n' w (firstTerminator_merged n' hterm),
        hcmd, extractToken_scannedBuf n hterm hd,
        extractToken_scannedBuf n' hterm hd, htok, hpoll]
  | none =>
      rw [hterm] at hd
      -- whether or not stale bytes complete a terminator, nothing happens
      have hidle : ∀ m : Node, outcome verifyToken d m w =
          (some (-1), m.server.token, m.server.polling) := by
        intro m
        cases hm : firstTerminator (merged d m).toList with
        | none => exact outcome_of_none verifyToken d m w hm
        | some k =>
            have hat := (firstTerminator_eq_some_iff.mp hm).1
            obtain ⟨hlen, hroom⟩ := completable_of_merged m hterm hat
            obtain ⟨hnul, hcmd⟩ := hd.resolve_left (fun h => h hroom)
            have hthree : 3 ≤ d.bytes.length :=
              (List.getElem?_eq_some_iff.mp hnul).1
            have hbyte : ∀ i, i < 3 →
                (scannedBuf d m).toList[i]? = d.bytes[i]? := by
              intro i hi
              rw [getElem?_scannedBuf hm (by omega),
                getElem?_merged_of_lt m (by omega)]
            have htoken : extractToken (scannedBuf d m) = [] := by
              rw [extractToken_eq_nil_iff, hbyte 2 (by omega)]
              exact hnul
            have hcommand : command (scannedBuf d m) = -1 := by
              rw [command_eq_neg_one_iff, CommandBytes, hbyte 0 (by omega),
                hbyte 1 (by omega)]
              exact hcmd
            rw [outcome_of_some verifyToken d m w hm, htoken, hcommand]
            by_cases hempty : m.server.token = []
            · simp [hempty, pollingAfter]
            · simp [hempty, pollingAfter]
      rw [hidle n, hidle n', htok, hpoll]

/-! ## The other datagrams are not -/

/-- An oracle that accepts everything or nothing, as the world says. -/
def acceptsWhen (_ : List UInt8) (w : Bool) : Int × Bool :=
  (if w then 1 else -1, w)

/-- A datagram that fills the buffer leaves nothing of the old contents. -/
theorem merged_full (b : Buf) (n : Node) : merged (Datagram.full b) n = b :=
  Vector.toList_inj.mp
    (toList_overlay_of_length_eq _ (by simp [Datagram.full]) _)

/-- The node after one full datagram in a world that accepts nothing. -/
def primed (b : Buf) : Node :=
  hear acceptsWhen (Node.init b)
    ({ datagram := Datagram.full b, error := .success }, false)

/-- Such a datagram fills the socket's buffer and leaves the session closed. -/
theorem primed_session (b : Buf) :
    (primed b).socket.readBuf = b ∧ (primed b).server.token = [] ∧
      (primed b).server.polling = false := by
  have hexit := parsed_exit acceptsWhen (Datagram.full b) (Node.init b) false
  unfold primed hear
  rw [complete_success, respond_eq]
  generalize parsed acceptsWhen (Datagram.full b) (Node.init b) false = out
    at hexit ⊢
  refine ⟨merged_full b (Node.init b), ?_⟩
  cases hexit with
  | noTerminator hr => exact ⟨rfl, rfl⟩
  | refused hr htok hans => exact ⟨rfl, rfl⟩
  | verified hr htok hans => simp [acceptsWhen] at hans
  | cached hr htok => exact absurd rfl htok

/-- Without a terminator it fills the server's buffer, too. -/
theorem primed_server_readBuf (b : Buf) (h : firstTerminator b.toList = none) :
    (primed b).server.readBuf = b := by
  have hscan : (scan b readBufSize (Nat.le_refl _)
      (Node.init b).server.readBuf).r = false ∧ _ :=
    scan_of_firstTerminator_none _ h
  have hexit := parsed_exit acceptsWhen (Datagram.full b) (Node.init b) false
  rw [merged_full] at hexit
  unfold primed hear
  rw [complete_success, respond_eq]
  generalize parsed acceptsWhen (Datagram.full b) (Node.init b) false = out
    at hexit ⊢
  cases hexit with
  | noTerminator hr => exact hscan.2
  | refused hr htok hans => simp [hscan.1] at hr
  | verified hr htok hans => simp [hscan.1] at hr
  | cached hr htok => simp [hscan.1] at hr

/-- In an accepting world an isolated datagram does the same after any two
primed nodes. -/
theorem Isolated.outcome_primed {d : Datagram} (h : Isolated acceptsWhen d)
    (b c : Buf) :
    outcome acceptsWhen d (primed b) true =
      outcome acceptsWhen d (primed c) true := by
  have hb := primed_session b
  have hc := primed_session c
  exact h b c [({ datagram := Datagram.full b, error := .success }, false)]
    [({ datagram := Datagram.full c, error := .success }, false)]
    (hb.2.1.trans hc.2.1.symm) (hb.2.2.trans hc.2.2.symm) true

/-- The outcome after a primed node whose merged buffer has a terminator. -/
theorem outcome_primed_of_some {d : Datagram} {b : Buf} {k : Nat}
    (h : firstTerminator (merged d (primed b)).toList = some k) :
    outcome acceptsWhen d (primed b) true =
      (some (command (scannedBuf d (primed b))),
        extractToken (scannedBuf d (primed b)),
        pollingAfter (command (scannedBuf d (primed b))) false) := by
  rw [outcome_of_some acceptsWhen d (primed b) true h,
    if_pos (primed_session b).2.1, if_neg (by simp [acceptsWhen]),
    (primed_session b).2.2]

/-- The token of an early terminated datagram runs into the old bytes of the
server's buffer. -/
theorem extractToken_primed {d : Datagram} {k : Nat}
    (h : firstTerminator d.bytes = some k) (hk : k < 17)
    (hnul : (0 : UInt8) ∉ (d.bytes.take (k + 1)).drop 2)
    (c : UInt8) (hc : c ≠ 0)
    (hnone : firstTerminator (List.replicate readBufSize c) = none) :
    extractToken (scannedBuf d (primed (Vector.replicate readBufSize c))) =
      (d.bytes.take (k + 1)).drop 2 ++ List.replicate (17 - k) c := by
  have hat := (firstTerminator_eq_some_iff.mp h).1
  have hlen := hat.lt_length
  have htwo := hat.two_le
  have hmerged := firstTerminator_merged
    (primed (Vector.replicate readBufSize c)) h
  have hold := primed_server_readBuf (Vector.replicate readBufSize c)
    (by simpa using hnone)
  have hregion : ((scannedBuf d
      (primed (Vector.replicate readBufSize c))).toList.drop 2).take 16 =
      (d.bytes.take (k + 1)).drop 2 ++ List.replicate (17 - k) c := by
    rw [toList_scannedBuf hmerged, hold, toList_merged,
      List.take_append_of_le_length (by omega), Vector.toList_replicate,
      List.drop_replicate, List.drop_append_of_le_length (by
        rw [List.length_take]; omega), List.take_append,
      List.take_of_length_le (by rw [List.length_drop, List.length_take]; omega),
      List.take_replicate]
    congr 2
    rw [List.length_drop, List.length_take]
    simp only [readBufSize]
    omega
  unfold extractToken
  rw [hregion, cString_append_of_notMem _ hnul]
  congr 1
  simp [cString, hc]

/-- Early termination with an open token field is not isolated: two old buffers
give two tokens. -/
theorem not_isolated_of_early {d : Datagram} {k : Nat}
    (h : firstTerminator d.bytes = some k) (hk : k < 17)
    (hnul : (0 : UInt8) ∉ (d.bytes.take (k + 1)).drop 2) :
    ¬Isolated acceptsWhen d := by
  intro hiso
  have heq := hiso.outcome_primed
    (Vector.replicate readBufSize 1) (Vector.replicate readBufSize 2)
  rw [outcome_primed_of_some (firstTerminator_merged _ h),
    outcome_primed_of_some (firstTerminator_merged _ h)] at heq
  have htoken := congrArg (fun o => o.2.1) heq
  simp only at htoken
  rw [extractToken_primed h hk hnul 1 (by decide) (by decide),
    extractToken_primed h hk hnul 2 (by decide) (by decide)] at htoken
  have hrep := List.append_cancel_left htoken
  rw [List.replicate_inj] at hrep
  rcases hrep.2 with h0 | h12
  · omega
  · exact absurd h12 (by decide)

/-- Old contents that complete the terminator of `b`: the control byte that `b`
may lack stands next to the last cell. -/
def completing (b : List UInt8) : Buf :=
  if carriageReturn ∈ b then
    #v[1, 1, 1, 1, 1, 1, 1, 1, 1, 1, 1, 1, 1, 1, 1, 1, 1, 1,
      carriageReturn, lineFeed, endOfTransmission]
  else
    #v[1, 1, 1, 1, 1, 1, 1, 1, 1, 1, 1, 1, 1, 1, 1, 1, 1, 1,
      lineFeed, carriageReturn, endOfTransmission]

theorem terminatorAt_completing {d : Datagram} (n : Node)
    (hroom : Completable d.bytes)
    (hold : n.socket.readBuf = completing d.bytes) :
    TerminatorAt (merged d n).toList 20 := by
  unfold Completable readBufSize at hroom
  have hmem : ∀ b : UInt8, (∃ i, i < 20 ∧ (merged d n).toList[i]? = some b) →
      b ∈ (merged d n).toList.take 20 := by
    rintro b ⟨i, hi, hget⟩
    apply List.mem_of_getElem? (i := i)
    rw [List.getElem?_take, if_pos hi, hget]
  have hown : ∀ b ∈ d.bytes, b ∈ (merged d n).toList.take 20 := by
    intro b hb
    obtain ⟨i, hi, hget⟩ := List.mem_iff_getElem.mp hb
    refine hmem b ⟨i, by omega, ?_⟩
    rw [getElem?_merged_of_lt n hi, List.getElem?_eq_getElem hi, hget]
  refine ⟨?_, ?_, ?_⟩
  · rw [getElem?_merged_of_le n (by omega), hold]
    unfold completing
    split <;> rfl
  · by_cases hcr : carriageReturn ∈ d.bytes
    · exact hown _ hcr
    · rw [if_neg hcr] at hroom
      refine hmem _ ⟨19, by omega, ?_⟩
      rw [getElem?_merged_of_le n (by omega), hold, completing, if_neg hcr]
      rfl
  · by_cases hlf : lineFeed ∈ d.bytes
    · exact hown _ hlf
    · rw [if_neg hlf] at hroom
      by_cases hcr : carriageReturn ∈ d.bytes
      · rw [if_pos hcr] at hroom
        refine hmem _ ⟨19, by omega, ?_⟩
        rw [getElem?_merged_of_le n (by omega), hold, completing, if_pos hcr]
        rfl
      · rw [if_neg hcr] at hroom
        refine hmem _ ⟨18, by omega, ?_⟩
        rw [getElem?_merged_of_le n (by omega), hold, completing, if_neg hcr]
        rfl

/-- A datagram without a terminator, behind which old bytes can complete one,
is not isolated: after zeros nothing happens, after the completing bytes the
session changes. -/
theorem not_isolated_of_completable {d : Datagram}
    (h : firstTerminator d.bytes = none) (hroom : Completable d.bytes)
    (hlive : ¬(d.bytes[2]? = some 0 ∧ ¬CommandBytes d.bytes)) :
    ¬Isolated acceptsWhen d := by
  intro hiso
  have heq := hiso.outcome_primed
    (Vector.replicate readBufSize 0) (completing d.bytes)
  have hzero : firstTerminator
      (merged d (primed (Vector.replicate readBufSize 0))).toList = none := by
    rw [firstTerminator_eq_none_iff]
    intro k hat
    obtain ⟨hlen, -⟩ := completable_of_merged _ h hat
    have hbyte := hat.1
    rw [getElem?_merged_of_le _ hlen, (primed_session _).1,
      Vector.toList_replicate, List.getElem?_replicate] at hbyte
    split at hbyte
    · exact absurd (Option.some.inj hbyte) (by decide)
    · exact absurd hbyte (by simp)
  have hat := terminatorAt_completing (primed (completing d.bytes)) hroom
    (primed_session _).1
  obtain ⟨k, hterm⟩ : ∃ k, firstTerminator
      (merged d (primed (completing d.bytes))).toList = some k := by
    cases hterm : firstTerminator
        (merged d (primed (completing d.bytes))).toList with
    | none => exact absurd hat (firstTerminator_eq_none_iff.mp hterm 20)
    | some k => exact ⟨k, rfl⟩
  have hkat := (firstTerminator_eq_some_iff.mp hterm).1
  obtain ⟨hlen, -⟩ := completable_of_merged _ h hkat
  have htwo := hkat.two_le
  rw [outcome_of_none acceptsWhen d _ true hzero, (primed_session _).2.1,
    outcome_primed_of_some hterm] at heq
  have hcmd := congrArg (fun o => o.1) heq
  have htok := congrArg (fun o => o.2.1) heq
  simp only [Option.some.injEq] at hcmd htok
  have hnul := (extractToken_eq_nil_iff _).mp htok.symm
  have hbad := (command_eq_neg_one_iff _).mp hcmd.symm
  rw [getElem?_scannedBuf hterm (by omega)] at hnul
  by_cases hthree : 3 ≤ d.bytes.length
  · rw [getElem?_merged_of_lt _ (by omega)] at hnul
    rw [CommandBytes, getElem?_scannedBuf hterm (by omega),
      getElem?_scannedBuf hterm (by omega),
      getElem?_merged_of_lt _ (by omega),
      getElem?_merged_of_lt _ (by omega)] at hbad
    exact hlive ⟨hnul, hbad⟩
  · rw [getElem?_merged_of_le _ (by omega), (primed_session _).1,
      completing] at hnul
    revert hnul
    split <;> decide

/-- **Datagram isolation.**  The outcome of a datagram is a function of its own
bytes and of the session, for every oracle and every two histories, exactly
when the datagram is self-contained. -/
theorem isolated_iff_selfContained (d : Datagram) :
    (∀ (ω : Type) (verifyToken : List UInt8 → ω → Int × ω),
      Isolated verifyToken d) ↔ SelfContained d := by
  constructor
  · intro h
    have hiso := h Bool acceptsWhen
    unfold SelfContained
    cases hterm : firstTerminator d.bytes with
    | some k =>
        by_contra hbad
        obtain ⟨hk, hnul⟩ := not_or.mp hbad
        exact not_isolated_of_early hterm (by omega) hnul hiso
    | none =>
        by_contra hbad
        obtain ⟨hroom, hlive⟩ := not_or.mp hbad
        exact not_isolated_of_completable hterm (not_not.mp hroom) hlive hiso
  · intro hd ω verifyToken garbage garbage' hist hist' n n' htok hpoll w
    exact outcome_congr verifyToken hd n n' htok hpoll w

/-- A complete request arrives. -/
def fullRequest (start : UInt8) : Completion × Unit :=
  ({ datagram := Datagram.full (frame start 65), error := .success }, ())

/-- The two bytes `LS` start the scanner with the token an earlier datagram left
in the buffer; after a datagram of zeros they do nothing. -/
theorem not_isolated :
    ¬∀ (d : Datagram) (ω : Type) (verifyToken : List UInt8 → ω → Int × ω),
      Isolated verifyToken d := by
  intro h
  have heq := h { bytes := ascii "LS", fits := by decide } Unit
    (fun _ w => (1, w)) (Vector.replicate readBufSize 0)
    (Vector.replicate readBufSize 0)
    [fullRequest 'S'.toNat.toUInt8, fullRequest 's'.toNat.toUInt8]
    [fullRequest 'S'.toNat.toUInt8, fullRequest 's'.toNat.toUInt8,
      ({ datagram := Datagram.full (Vector.replicate readBufSize 0)
         error := .success }, ())]
    (by decide) (by decide) ()
  revert heq
  decide

end LidarPublisher.Udp.Isolation
