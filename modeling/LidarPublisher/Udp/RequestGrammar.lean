import LidarPublisher.Udp.ParseRequest

/-!
# The grammar of requests

A request is meant to be `L`, the command byte, sixteen token bytes, carriage
return, line feed and end of transmission.  The parser understands every such
request, whatever it parsed before.  It also takes a terminator that stands
earlier, since the test on the length looks at the fixed size of `read_buf`; the
token field is then completed from the message before.
-/

namespace LidarPublisher.Udp.RequestGrammar

open LidarPublisher.Lib.Bytes
open LidarPublisher.Udp.ParseRequest

/-! ## Requests -/

inductive Command
  | start
  | stop
  deriving DecidableEq, Repr

/-- The byte behind `L`. -/
def Command.byte : Command → UInt8
  | .start => 'S'.toNat.toUInt8
  | .stop => 's'.toNat.toUInt8

/-- What `parseRequest` returns for the command. -/
def Command.code : Command → Int
  | .start => 0
  | .stop => 1

/-- Sixteen bytes without a NUL and without a terminator of their own. -/
structure TokenField where
  bytes : List UInt8
  length_eq : bytes.length = 16
  noNul : (0 : UInt8) ∉ bytes
  noTerminator : ∀ k, ¬TerminatorAt bytes k

/-- The three bytes that end a request. -/
def frameEnd : List UInt8 := [carriageReturn, lineFeed, endOfTransmission]

/-- The bytes of a request behind its two command bytes. -/
def TokenField.tail (t : TokenField) : List UInt8 := t.bytes ++ frameEnd

/-- The request with command `c'` and token field `t`. -/
def request (c' : Command) (t : TokenField) : Buf :=
  ⟨('L'.toNat.toUInt8 :: c'.byte :: t.tail).toArray, by
    simp [TokenField.tail, frameEnd, t.length_eq]⟩

theorem toList_request (c' : Command) (t : TokenField) :
    (request c' t).toList = 'L'.toNat.toUInt8 :: c'.byte :: t.tail := rfl

/-- The frame the parser aims at. -/
structure Framed (c' : Command) (buf : Buf) : Prop where
  lidar : buf[0] = 'L'.toNat.toUInt8
  start : buf[1] = c'.byte
  frameEnd : buf.toList.drop 18 = frameEnd

theorem command_eq_code_iff (c' : Command) (buf : Buf) :
    command buf = c'.code ↔ buf[0] = 'L'.toNat.toUInt8 ∧ buf[1] = c'.byte := by
  cases c' with
  | start => exact command_eq_zero_iff buf
  | stop => exact command_eq_one_iff buf

/-- Every request but the refused ones has one of the two codes. -/
theorem exists_code_iff (buf : Buf) :
    (∃ c' : Command, command buf = c'.code) ↔ CommandBytes buf.toList := by
  rw [← not_iff_not, ← command_eq_neg_one_iff]
  constructor
  · intro h
    rcases command_cases buf with hneg | hzero | hone
    · exact hneg
    · exact absurd ⟨.start, hzero⟩ h
    · exact absurd ⟨.stop, hone⟩ h
  · rintro h ⟨c', hcode⟩
    rw [h] at hcode
    cases c' <;> exact absurd hcode (by decide)

/-! ## Soundness of the frame -/

variable {ω : Type}

/-- When the answer is the code of a command. -/
theorem parse21_eq_code_iff (verifyToken : List UInt8 → ω → Int × ω)
    (buf : Buf) (s : Server) (w : ω) (c' : Command) :
    (parse21 verifyToken buf s w).1 = c'.code ↔
      (firstTerminator buf.toList).isSome = true ∧
        (s.token = [] → (verifyToken (presented21 buf s) w).1 ≠ -1) ∧
          command buf = c'.code := by
  rw [parse21_answer]
  split
  · next h =>
      exact ⟨fun hcode => ⟨h.1, h.2, hcode⟩, fun hcode => hcode.2.2⟩
  · next h =>
      apply iff_of_false
      · cases c' <;> decide
      · exact fun hcode => h ⟨hcode.1, hcode.2.1⟩

/-- **Soundness of the grammar.**  A request is answered with a command only if
the buffer has the frame of that command, exactly when the buffer ends in
carriage return, line feed and end of transmission, or when nothing can be
answered: it has no terminator, its first two bytes are no command, or no token
is cached and the presented one is refused. -/
theorem grammar_sound_iff (verifyToken : List UInt8 → ω → Int × ω)
    (buf : Buf) (s : Server) (w : ω) :
    (∀ c' : Command, (parse21 verifyToken buf s w).1 = c'.code → Framed c' buf) ↔
      buf.toList.drop 18 = frameEnd ∨ firstTerminator buf.toList = none ∨
        ¬CommandBytes buf.toList ∨
          (s.token = [] ∧ (verifyToken (presented21 buf s) w).1 = -1) := by
  simp only [parse21_eq_code_iff]
  constructor
  · intro h
    by_contra hcond
    simp only [not_or, not_and, not_not] at hcond
    rcases hcond with ⟨hend, hterm, hbytes, hacc⟩
    obtain ⟨c', hcode⟩ := (exists_code_iff buf).mpr hbytes
    exact hend (h c' ⟨Option.isSome_iff_ne_none.mpr hterm, hacc, hcode⟩).frameEnd
  · rintro h c' ⟨hterm, hacc, hcode⟩
    rcases h with hend | hnone | hbytes | ⟨htok, hans⟩
    · obtain ⟨hlidar, hstart⟩ := (command_eq_code_iff c' buf).mp hcode
      exact ⟨hlidar, hstart, hend⟩
    · rw [hnone] at hterm
      exact absurd hterm (by decide)
    · exact absurd ((exists_code_iff buf).mp ⟨c', hcode⟩) hbytes
    · exact absurd hans (hacc htok)

/-- A start command whose terminator stands in the token field. -/
def early : Buf :=
  #v['L'.toNat.toUInt8, 'S'.toNat.toUInt8, carriageReturn, lineFeed,
    endOfTransmission, 0, 0, 0, 0, 0, 0, 0, 0, 0, 0, 0, 0, 0, 0, 0, 0]

theorem not_grammar_sound :
    ¬∀ (verifyToken : List UInt8 → Unit → Int × Unit) (buf : Buf) (s : Server)
      (c' : Command), (parse21 verifyToken buf s ()).1 = c'.code →
        Framed c' buf := by
  intro h
  have hend := (h (fun _ w => (1, w)) early Server.init .start
    (by decide)).frameEnd
  exact absurd hend (by decide)

/-! ## The round trip -/

/-- A byte that is none of the control bytes shifts terminators by one. -/
theorem terminatorAt_cons_iff {a : UInt8} {b : List UInt8} {k : Nat}
    (hcr : a ≠ carriageReturn) (hlf : a ≠ lineFeed) :
    TerminatorAt (a :: b) (k + 1) ↔ TerminatorAt b k := by
  unfold TerminatorAt
  rw [List.getElem?_cons_succ, List.take_succ_cons, List.mem_cons, List.mem_cons]
  simp [hcr.symm, hlf.symm]

theorem getElem?_tail (t : TokenField) (i : Nat) :
    t.tail[16 + i]? = frameEnd[i]? := by
  rw [TokenField.tail, List.getElem?_append_right (by rw [t.length_eq]; omega),
    t.length_eq, Nat.add_sub_cancel_left]

/-- The first terminator stands behind the token field. -/
theorem firstTerminator_tail (t : TokenField) :
    firstTerminator t.tail = some 18 := by
  rw [firstTerminator_eq_some_iff]
  have hend : t.tail.take 18 = t.bytes ++ [carriageReturn, lineFeed] := by
    rw [TokenField.tail, List.take_append, List.take_of_length_le
      (by rw [t.length_eq]; omega), t.length_eq]
    rfl
  refine ⟨⟨getElem?_tail t 2, ?_, ?_⟩, fun j hj hterm => ?_⟩
  · rw [hend]
    simp
  · rw [hend]
    simp
  · by_cases hfield : j < 16
    · have hlt : j < t.bytes.length := by rw [t.length_eq]; exact hfield
      exact t.noTerminator j ((terminatorAt_append_iff hlt).mp hterm)
    · -- the two bytes before the end of transmission are other bytes
      obtain ⟨i, rfl⟩ := Nat.exists_eq_add_of_le (Nat.le_of_not_lt hfield)
      have hbyte := hterm.1
      rw [getElem?_tail] at hbyte
      match i with
      | 0 => exact absurd hbyte (by decide)
      | 1 => exact absurd hbyte (by decide)
      | i + 2 => omega

/-- The bytes of the two commands are no control bytes. -/
theorem Command.byte_ne (c' : Command) :
    c'.byte ≠ carriageReturn ∧ c'.byte ≠ lineFeed := by
  cases c' <;> decide

theorem firstTerminator_request (c' : Command) (t : TokenField) :
    firstTerminator (request c' t).toList = some 20 := by
  obtain ⟨hterm, hleast⟩ := firstTerminator_eq_some_iff.mp (firstTerminator_tail t)
  have hshift : ∀ k, TerminatorAt (request c' t).toList (k + 2) ↔
      TerminatorAt t.tail k := by
    intro k
    rw [toList_request, terminatorAt_cons_iff (by decide) (by decide),
      terminatorAt_cons_iff c'.byte_ne.1 c'.byte_ne.2]
  rw [firstTerminator_eq_some_iff]
  refine ⟨(hshift 18).mpr hterm, fun j hj hat => ?_⟩
  obtain ⟨k, rfl⟩ := Nat.exists_eq_add_of_le' hat.two_le
  exact hleast k (by omega) ((hshift k).mp hat)

/-- The scan copies the whole request. -/
theorem scan21_request (c' : Command) (t : TokenField) (readBuf : Buf) :
    (scan21 (request c' t) readBuf).r = true ∧
      (scan21 (request c' t) readBuf).readBuf = request c' t := by
  obtain ⟨hr, hbuf⟩ := scan_of_firstTerminator_some readBuf
    (firstTerminator_request c' t)
  refine ⟨hr, Vector.toList_inj.mp ?_⟩
  rw [hbuf, List.take_of_length_le (by simp), List.drop_of_length_le (by simp),
    List.append_nil]

theorem extractToken_request (c' : Command) (t : TokenField) :
    extractToken (request c' t) = t.bytes := by
  unfold extractToken
  rw [toList_request, List.drop_succ_cons, List.drop_succ_cons, List.drop_zero,
    TokenField.tail, ← t.length_eq, List.take_left]
  have hcut := cString_append_of_notMem [] t.noNul
  rw [List.append_nil] at hcut
  rw [hcut]
  exact List.append_nil _

/-- **Every request is understood.**  Whatever was parsed before, a request with
no cached token verifies exactly its sixteen token bytes, caches them if they
are accepted and answers its command; with a cached token it answers its command
and leaves the cache alone. -/
theorem request_understood (verifyToken : List UInt8 → ω → Int × ω)
    (c' : Command) (t : TokenField) (s : Server) (w : ω) :
    parse21 verifyToken (request c' t) s w =
      if s.token = [] then
        if (verifyToken t.bytes w).1 = -1 then
          (-1, { s with readBuf := request c' t }, (verifyToken t.bytes w).2)
        else
          (c'.code, { s with readBuf := request c' t, token := t.bytes },
            (verifyToken t.bytes w).2)
      else (c'.code, { s with readBuf := request c' t }, w) := by
  obtain ⟨hr, hbuf⟩ := scan21_request c' t s.readBuf
  have hcommand : command (request c' t) = c'.code :=
    (command_eq_code_iff c' _).mpr ⟨rfl, rfl⟩
  unfold parse21 parseRequest
  dsimp only
  rw [hbuf, if_pos ⟨hr, rfl⟩, extractToken_request, hcommand]

/-! ## Stale bytes in the token -/

/-- If the terminator check succeeds, the token is `tok`. -/
def Extracts (buf : Buf) (s : Server) (tok : List UInt8) : Prop :=
  (scan21 buf s.readBuf).r = true → presented21 buf s = tok

/-- No stale byte shows in the token of a buffer whose first terminator is at
`k`: a NUL ends the token before, or the token bytes behind `k` are, up to a
NUL, those of the buffer. -/
def NothingStale (buf old : Buf) (k : Nat) : Prop :=
  (0 : UInt8) ∈ (buf.toList.take (k + 1)).drop 2 ∨
    cString ((old.toList.drop (k + 1)).take (17 - k)) =
      cString ((buf.toList.drop (k + 1)).take (17 - k))

/-- The token field of a buffer whose bytes behind the terminator are `rest`. -/
private theorem tokenField_split {xs rest : List UInt8} {k : Nat}
    (hxs : xs.length = k + 1) (hk : 2 ≤ k) :
    ((xs ++ rest).drop 2).take 16 = (xs.drop 2).take 16 ++ rest.take (17 - k) := by
  rw [List.drop_append_of_le_length (by omega), List.take_append,
    List.length_drop, hxs, show 16 - (k + 1 - 2) = 17 - k by omega]

/-- The token comes from the buffer exactly if nothing stale shows in it. -/
theorem extracts_iff (buf : Buf) (s : Server) :
    Extracts buf s (extractToken buf) ↔
      ∀ k, firstTerminator buf.toList = some k →
        NothingStale buf s.readBuf k := by
  cases hterm : firstTerminator buf.toList with
  | none =>
      apply iff_of_true
      · intro hr
        rw [scan_r_eq, hterm] at hr
        exact absurd hr (by decide)
      · intro k hk
        exact absurd hk (by simp)
  | some k =>
      obtain ⟨hr, hbuf⟩ := scan_of_firstTerminator_some s.readBuf hterm
      obtain ⟨hat, -⟩ := firstTerminator_eq_some_iff.mp hterm
      have htwo := hat.two_le
      have hlt := hat.lt_length
      have hlen : (buf.toList.take (k + 1)).length = k + 1 := by
        rw [List.length_take]
        omega
      have hown : extractToken buf = cString (((buf.toList.take (k + 1)).drop 2).take 16 ++
          (buf.toList.drop (k + 1)).take (17 - k)) := by
        rw [← tokenField_split hlen htwo, List.take_append_drop]
        rfl
      have hmixed : presented21 buf s =
          cString (((buf.toList.take (k + 1)).drop 2).take 16 ++
            (s.readBuf.toList.drop (k + 1)).take (17 - k)) := by
        rw [← tokenField_split hlen htwo, ← hbuf]
        rfl
      have hiff : Extracts buf s (extractToken buf) ↔
          presented21 buf s = extractToken buf :=
        ⟨fun h => h hr, fun h _ => h⟩
      rw [hiff, hown, hmixed]
      simp only [Option.some.injEq, forall_eq', NothingStale]
      by_cases hlate : 17 ≤ k
      · -- the field ends before the terminator
        rw [show 17 - k = 0 by omega, List.take_zero, List.take_zero]
        exact iff_of_true rfl (Or.inr rfl)
      · have hshort : ((buf.toList.take (k + 1)).drop 2).take 16 =
            (buf.toList.take (k + 1)).drop 2 := by
          rw [List.take_of_length_le]
          rw [List.length_drop, hlen]
          omega
        rw [hshort]
        by_cases hnul : (0 : UInt8) ∈ (buf.toList.take (k + 1)).drop 2
        · rw [cString_append_of_mem _ hnul, cString_append_of_mem _ hnul]
          exact iff_of_true rfl (Or.inl hnul)
        · rw [cString_append_of_notMem _ hnul, cString_append_of_notMem _ hnul,
            List.append_cancel_left_eq]
          exact ⟨Or.inr, fun h => h.resolve_left hnul⟩

/-- **When no stale byte shows.**  After two different pasts the parser extracts
the token of the buffer if and only if, at the first terminator, nothing stale
shows in either. -/
theorem token_fresh_iff (buf : Buf) (s s' : Server) :
    (Extracts buf s (extractToken buf) ∧ Extracts buf s' (extractToken buf)) ↔
      ∀ k, firstTerminator buf.toList = some k →
        NothingStale buf s.readBuf k ∧ NothingStale buf s'.readBuf k := by
  rw [extracts_iff, extracts_iff]
  exact ⟨fun h k hk => ⟨h.1 k hk, h.2 k hk⟩,
    fun h => ⟨fun k hk => (h k hk).1, fun k hk => (h k hk).2⟩⟩

/-- A server whose `read_buf` is filled with one byte. -/
def filled (b : UInt8) : Server :=
  { Server.init with readBuf := Vector.replicate readBufSize b }

/-- The early terminator keeps what stood behind it. -/
theorem not_token_fresh :
    ¬∀ (buf : Buf) (s s' : Server), s.token = s'.token →
      Extracts buf s (extractToken buf) ∧ Extracts buf s' (extractToken buf) := by
  intro h
  have hfresh := (h early (filled 0x41) (filled 0x42) rfl).1 (by decide)
  exact absurd hfresh (by decide)

/-- The buffers that are safe whatever was parsed before: the first terminator
stands behind the token field, or a NUL ends the token before it. -/
theorem token_always_fresh_iff (buf : Buf) :
    (∀ s, Extracts buf s (extractToken buf)) ↔
      ∀ k, firstTerminator buf.toList = some k →
        17 ≤ k ∨ (0 : UInt8) ∈ (buf.toList.take (k + 1)).drop 2 := by
  simp only [extracts_iff]
  constructor
  · intro h k hk
    by_contra hcond
    obtain ⟨hearly, hnul⟩ := not_or.mp hcond
    have hroom : 17 - k = (17 - k - 1) + 1 := by omega
    -- a past of NULs and a past of ones cannot both agree with the buffer
    have hzero := (h (filled 0) k hk).resolve_left hnul
    have hone := (h (filled 1) k hk).resolve_left hnul
    rw [← hone] at hzero
    have hdrop : ∀ b : UInt8, (filled b).readBuf.toList.drop (k + 1) =
        b :: List.replicate (19 - k) b := by
      intro b
      show (List.replicate 21 b).drop (k + 1) = _
      rw [List.drop_replicate, show 21 - (k + 1) = 19 - k + 1 by omega]
      rfl
    rw [hdrop, hdrop, hroom, List.take_succ_cons, List.take_succ_cons] at hzero
    exact absurd hzero (by simp [cString])
  · intro h s k hk
    rcases h k hk with hlate | hnul
    · refine Or.inr ?_
      rw [show 17 - k = 0 by omega, List.take_zero, List.take_zero]
    · exact Or.inl hnul

end LidarPublisher.Udp.RequestGrammar
