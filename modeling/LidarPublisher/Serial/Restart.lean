import LidarPublisher.Lib.Simulation
import LidarPublisher.Serial.Handler

/-!
# Lines after a restart

`stop` resets the port and the `io_service`, and `start` opens a new port, but
neither clears the unfinished line in `read_buf_str`, and a read that was issued
before may still bring its bytes afterwards: the handler takes them for bytes of
the new port.  The lines delivered after a restart depend on both.
-/

namespace LidarPublisher.Serial.Restart

open LidarPublisher.Lib.Run
open LidarPublisher.Lib.Simulation
open LidarPublisher.Lib.Bytes
open LidarPublisher.Lib.Lines
open LidarPublisher.Serial.Handler

/-- `stop`, and then a `start` that finds a working device. -/
def restarted (s : SerialHandler) : SerialHandler :=
  (start .works (stop false s).2).2

/-- Neither another `stop` nor another end-of-line character. -/
def Continues : Event → Prop
  | .start _ => True
  | .stop _ => False
  | .setEolChar _ => False
  | .completion _ => True
  | .staleCompletion _ => True

instance : (e : Event) → Decidable (Continues e)
  | .start _ => inferInstanceAs (Decidable True)
  | .stop _ => inferInstanceAs (Decidable False)
  | .setEolChar _ => inferInstanceAs (Decidable False)
  | .completion _ => inferInstanceAs (Decidable True)
  | .staleCompletion _ => inferInstanceAs (Decidable True)

/-- The bytes an event brings of a read of the present port. -/
def newBytes (s : SerialHandler) : Event → List UInt8
  | .completion r =>
      match s.port with
      | none => []
      | some p => if p.outstanding = 0 then [] else r.bytes
  | _ => []

/-- The bytes an event brings of a read of an earlier port. -/
def staleBytes (s : SerialHandler) : Event → List UInt8
  | .staleCompletion r => if s.cancelled = 0 then [] else r.bytes
  | _ => []

/-- The bytes received from the present port in a run. -/
def received (s : SerialHandler) (es : List Event) : List UInt8 :=
  traceFrom step newBytes s es

/-- The bytes of earlier ports that are handled in a run. -/
def leftOver (s : SerialHandler) (es : List Event) : List UInt8 :=
  traceFrom step staleBytes s es

/-- The lines delivered in a run. -/
def linesAfter (s : SerialHandler) (es : List Event) : List (List UInt8) :=
  (runFrom step s es).delivered.drop s.delivered.length

variable {s : SerialHandler}

/-! ## The restart -/

theorem stop_port (s : SerialHandler) : (stop false s).2.port = none := by
  unfold stop
  cases hp : s.port with
  | none => exact hp
  | some p => rfl

/-- After a completed `stop` the start succeeds. -/
theorem start_stop (s : SerialHandler) :
    start .works (stop false s).2 =
      (some true, { (stop false s).2 with
        port := some (SerialPort.fresh true).asyncReadSome }) :=
  start_of_none (stop_port s) .works

/-- A restart keeps the unfinished line and the reads that are pending. -/
theorem restarted_fields (s : SerialHandler) :
    (restarted s).port = some (SerialPort.fresh true).asyncReadSome ∧
      (restarted s).readBufStr = s.readBufStr ∧
      (restarted s).endOfLineChar = s.endOfLineChar ∧
      (restarted s).cancelled = pending s := by
  unfold restarted pending
  rw [start_stop]
  unfold stop
  cases s.port with
  | none => exact ⟨rfl, rfl, rfl, (Nat.zero_add _).symm⟩
  | some p => exact ⟨rfl, rfl, rfl, Nat.add_comm _ _⟩

theorem portOpen_restarted (s : SerialHandler) : PortOpen (restarted s) :=
  ⟨_, (restarted_fields s).1, rfl⟩

/-! ## The events after it -/

/-- An event that leaves the port alone frames the bytes it brings. -/
theorem frames_step (h : PortOpen s) {e : Event} (he : Continues e) :
    Frames s (newBytes s e ++ staleBytes s e) (step s e) := by
  have hopen := h
  rcases h with ⟨p, hp, hpopen⟩
  cases e with
  | start device =>
      rw [show step s (.start device) = s from
        congrArg Prod.snd (start_of_port hp device)]
      exact Frames.refl hopen
  | stop cancelThrows => exact absurd he id
  | setEolChar b => exact absurd he id
  | completion r =>
      unfold step newBytes staleBytes
      rw [hp]
      dsimp only
      rw [List.append_nil]
      split
      · exact Frames.refl hopen
      · have hframes := frames_handleRead (s := { s with port := some p.complete })
          ⟨p.complete, rfl, hpopen⟩ r
        exact ⟨hframes.portOpen, hframes.eol, hframes.line, hframes.lines⟩
  | staleCompletion r =>
      unfold step newBytes staleBytes
      dsimp only
      rw [List.nil_append]
      split
      · exact Frames.refl hopen
      · have hframes := frames_handleRead
          (s := { s with cancelled := s.cancelled - 1 }) hopen r
        exact ⟨hframes.portOpen, hframes.eol, hframes.line, hframes.lines⟩

theorem frames_runFrom (h : PortOpen s) {es : List Event}
    (hes : ∀ e ∈ es, Continues e) :
    Frames s (traceFrom step (fun t e => newBytes t e ++ staleBytes t e) s es)
      (runFrom step s es) := by
  induction es generalizing s with
  | nil => exact Frames.refl h
  | cons e es ih =>
      rcases List.forall_mem_cons.mp hes with ⟨he, hrest⟩
      have hfirst := frames_step h he
      exact hfirst.trans (ih hfirst.portOpen hrest)

/-- Without bytes of earlier ports, the bytes framed are those received. -/
theorem trace_of_leftOver_nil {es : List Event} (h : leftOver s es = []) :
    traceFrom step (fun t e => newBytes t e ++ staleBytes t e) s es =
      received s es := by
  unfold leftOver received at *
  induction es generalizing s with
  | nil => rfl
  | cons e es ih =>
      rw [traceFrom, List.append_eq_nil_iff] at h
      rw [traceFrom, traceFrom, h.1, List.append_nil, ih h.2]

/-- The lines after a restart begin with the line it interrupted. -/
theorem linesAfter_restarted {es : List Event} (hes : ∀ e ∈ es, Continues e)
    (h : leftOver (restarted s) es = []) :
    linesAfter (restarted s) es =
      segments s.endOfLineChar s.readBufStr (received (restarted s) es) := by
  obtain ⟨-, hline, heol, -⟩ := restarted_fields s
  have hlines := (frames_runFrom (portOpen_restarted s) hes).lines
  rw [trace_of_leftOver_nil h, hline, heol] at hlines
  unfold linesAfter
  rw [hlines, List.drop_left]

/-- An event does not bring back a read of an earlier port. -/
theorem cancelled_step (h : PortOpen s) (hnone : s.cancelled = 0) {e : Event}
    (he : Continues e) : (step s e).cancelled = 0 := by
  rcases h with ⟨p, hp, hpopen⟩
  have hread : ∀ (r : ReadResult) (q : SerialPort) (t : SerialHandler),
      t.port = some q → q.isOpen = true → t.cancelled = 0 →
        (handleRead r t).cancelled = 0 := by
    intro r q t hq hqopen ht
    cases r with
    | success chunk =>
        rw [handleRead_success hq hqopen]
        exact ht
    | error =>
        rw [handleRead_error hq hqopen]
        exact ht
  cases e with
  | start device =>
      rw [show step s (.start device) = s from
        congrArg Prod.snd (start_of_port hp device)]
      exact hnone
  | stop cancelThrows => exact absurd he id
  | setEolChar b => exact absurd he id
  | completion r =>
      unfold step
      rw [hp]
      dsimp only
      split
      · exact hnone
      · exact hread r p.complete { s with port := some p.complete } rfl hpopen
          hnone
  | staleCompletion r =>
      unfold step
      dsimp only
      rw [if_pos hnone]
      exact hnone

/-- With no read pending none is left over. -/
theorem leftOver_eq_nil (h : PortOpen s) (hnone : s.cancelled = 0)
    {es : List Event} (hes : ∀ e ∈ es, Continues e) : leftOver s es = [] := by
  unfold leftOver
  induction es generalizing s with
  | nil => rfl
  | cons e es ih =>
      rcases List.forall_mem_cons.mp hes with ⟨he, hrest⟩
      have hstale : staleBytes s e = [] := by
        cases e with
        | staleCompletion r => exact if_pos hnone
        | start device => rfl
        | stop cancelThrows => rfl
        | setEolChar b => rfl
        | completion r => rfl
      rw [traceFrom, hstale, List.nil_append]
      exact ih (frames_step h he).portOpen (cancelled_step h hnone he) hrest

theorem leftOver_restarted (h : pending s = 0) {es : List Event}
    (hes : ∀ e ∈ es, Continues e) : leftOver (restarted s) es = [] :=
  leftOver_eq_nil (portOpen_restarted s) ((restarted_fields s).2.2.2.trans h) hes

/-! ## Two histories -/

@[simp] theorem linesAfter_nil (s : SerialHandler) : linesAfter s [] = [] :=
  List.drop_length

/-- Without bytes of earlier ports two histories are told apart by the first end
of line. -/
theorem linesAfter_eq_iff {s' : SerialHandler}
    (heol : s.endOfLineChar = s'.endOfLineChar) {post post' : List Event}
    (hpost : ∀ e ∈ post, Continues e) (hpost' : ∀ e ∈ post', Continues e)
    (hsame : received (restarted s) post = received (restarted s') post')
    (hleft : leftOver (restarted s) post = [])
    (hleft' : leftOver (restarted s') post' = []) :
    linesAfter (restarted s) post = linesAfter (restarted s') post' ↔
      s.readBufStr = s'.readBufStr ∨
        s.endOfLineChar ∉ received (restarted s) post := by
  rw [linesAfter_restarted hpost hleft, linesAfter_restarted hpost' hleft',
    ← hsame, ← heol]
  exact segments_eq_iff s.readBufStr s'.readBufStr _

/-- A chunk of one byte. -/
def single (b : UInt8) : Chunk :=
  { bytes := [b], fits := show 1 ≤ serialPortReadBufSize by decide }

/-- A read that is pending can deliver a line on its own. -/
theorem linesAfter_stale (h : pending s ≠ 0) :
    received (restarted s) [.staleCompletion (.success (single s.endOfLineChar))] =
        [] ∧
      linesAfter (restarted s)
        [.staleCompletion (.success (single s.endOfLineChar))] ≠ [] := by
  obtain ⟨-, hline, heol, hcancelled⟩ := restarted_fields s
  refine ⟨rfl, ?_⟩
  have hcontinues : ∀ e ∈
      [Event.staleCompletion (.success (single s.endOfLineChar))],
      Continues e := by simp [Continues]
  have hlines := (frames_runFrom (portOpen_restarted s) hcontinues).lines
  have hstale : staleBytes (restarted s)
      (.staleCompletion (.success (single s.endOfLineChar))) =
        [s.endOfLineChar] := if_neg (by rw [hcancelled]; exact h)
  simp only [traceFrom, hstale, newBytes, List.nil_append, List.append_nil, hline,
    heol, segments_cons_eol, segments_nil] at hlines
  unfold linesAfter
  rw [hlines, List.drop_left]
  simp

/-- The first read after a restart brings a byte. -/
theorem received_single (s : SerialHandler) (b : UInt8) :
    received (restarted s) [.completion (.success (single b))] = [b] ∧
      leftOver (restarted s) [.completion (.success (single b))] = [] := by
  refine ⟨?_, rfl⟩
  unfold received traceFrom newBytes
  rw [(restarted_fields s).1]
  rfl

/-- **When a restart isolates the reader.**  Of two histories with the same
end-of-line character: as long as no bytes of earlier reads are handled, they
deliver the same lines after a restart exactly if they left the same unfinished
line behind or no end of line is received; and they do so whatever is received,
and whatever else is handled, exactly if no read was pending and they left the
same unfinished line. -/
theorem restart_isolated_iff
    (garbage garbage' : Vector UInt8 serialPortReadBufSize)
    (es es' : List Event)
    (heol : (runFrom step (SerialHandler.init garbage) es).endOfLineChar =
      (runFrom step (SerialHandler.init garbage') es').endOfLineChar) :
    let s := runFrom step (SerialHandler.init garbage) es
    let s' := runFrom step (SerialHandler.init garbage') es'
    (∀ post post' : List Event,
      (∀ e ∈ post, Continues e) → (∀ e ∈ post', Continues e) →
      received (restarted s) post = received (restarted s') post' →
      leftOver (restarted s) post = [] → leftOver (restarted s') post' = [] →
        (linesAfter (restarted s) post = linesAfter (restarted s') post' ↔
          s.readBufStr = s'.readBufStr ∨
            s.endOfLineChar ∉ received (restarted s) post)) ∧
      ((∀ post post' : List Event,
        (∀ e ∈ post, Continues e) → (∀ e ∈ post', Continues e) →
        received (restarted s) post = received (restarted s') post' →
          linesAfter (restarted s) post = linesAfter (restarted s') post') ↔
        pending s = 0 ∧ pending s' = 0 ∧ s.readBufStr = s'.readBufStr) := by
  intro s s'
  refine ⟨fun post post' hpost hpost' hsame hleft hleft' =>
    linesAfter_eq_iff heol hpost hpost' hsame hleft hleft', ?_, ?_⟩
  · intro h
    refine ⟨?_, ?_, ?_⟩
    · by_contra hpending
      rcases linesAfter_stale hpending with ⟨hreceived, hlines⟩
      exact hlines ((h _ [] (by simp [Continues]) (by simp) hreceived).trans
        (linesAfter_nil _))
    · by_contra hpending
      rcases linesAfter_stale hpending with ⟨hreceived, hlines⟩
      exact hlines ((h [] _ (by simp) (by simp [Continues])
        hreceived.symm).symm.trans (linesAfter_nil _))
    · -- an end of line shows what was left unfinished
      rcases received_single s s.endOfLineChar with ⟨hreceived, hleft⟩
      rcases received_single s' s.endOfLineChar with ⟨hreceived', hleft'⟩
      have hsame := hreceived.trans hreceived'.symm
      have hlines := h _ _ (by simp [Continues]) (by simp [Continues]) hsame
      rcases (linesAfter_eq_iff heol (by simp [Continues]) (by simp [Continues])
        hsame hleft hleft').mp hlines with hline | hnone
      · exact hline
      · refine absurd ?_ hnone
        change s.endOfLineChar ∈ received (restarted s) _
        rw [hreceived]
        exact List.mem_singleton_self _
  · rintro ⟨hpending, hpending', hline⟩ post post' hpost hpost' hsame
    exact (linesAfter_eq_iff heol hpost hpost' hsame
      (leftOver_restarted hpending hpost)
      (leftOver_restarted hpending' hpost')).mpr (Or.inl hline)

/-- A chunk, received after a start. -/
def startedWith (chunk : Chunk) : List Event :=
  [.start .works, .completion (.success chunk)]

/-- One more letter does not show whether there was one before; after a whole
line nothing does. -/
theorem restart_isolated_letter :
    linesAfter (restarted (runFrom step (SerialHandler.init zeroed) []))
        [.completion (.success (single 0x62))] =
      linesAfter (restarted (runFrom step (SerialHandler.init zeroed)
          (startedWith (single 0x61))))
        [.completion (.success (single 0x62))] ∧
      ∀ post post' : List Event,
        (∀ e ∈ post, Continues e) → (∀ e ∈ post', Continues e) →
        received (restarted (runFrom step (SerialHandler.init zeroed) [])) post =
            received (restarted (runFrom step (SerialHandler.init zeroed)
              (startedWith (single 0x0a)))) post' →
          linesAfter (restarted (runFrom step (SerialHandler.init zeroed) []))
              post =
            linesAfter (restarted (runFrom step (SerialHandler.init zeroed)
              (startedWith (single 0x0a)))) post' :=
  ⟨((restart_isolated_iff zeroed zeroed [] (startedWith (single 0x61)) rfl).1 _ _
      (by simp [Continues]) (by simp [Continues]) rfl rfl rfl).mpr
      (Or.inr (by decide)),
    (restart_isolated_iff zeroed zeroed [] (startedWith (single 0x0a)) rfl).2.mpr
      ⟨rfl, rfl, rfl⟩⟩

/-- A fresh handler and one that was stopped behind the letter `a` both receive
the line `b` after the start. -/
theorem not_restart_isolated :
    ¬∀ (garbage garbage' : Vector UInt8 serialPortReadBufSize)
      (es es' post post' : List Event),
      (runFrom step (SerialHandler.init garbage) es).endOfLineChar =
          (runFrom step (SerialHandler.init garbage') es').endOfLineChar →
        (∀ e ∈ post, Continues e) → (∀ e ∈ post', Continues e) →
        received (restarted (runFrom step (SerialHandler.init garbage) es)) post =
            received (restarted (runFrom step (SerialHandler.init garbage') es'))
              post' →
          linesAfter (restarted (runFrom step (SerialHandler.init garbage) es))
              post =
            linesAfter (restarted (runFrom step (SerialHandler.init garbage') es'))
              post' := by
  intro h
  let line : List Event :=
    [.completion (.success { bytes := ascii "b\n", fits := by decide })]
  have hcontinues : ∀ e ∈ line, Continues e := by simp [line, Continues]
  have hlines := h zeroed zeroed [] (startedWith (single 0x61)) line line rfl
    hcontinues hcontinues rfl
  rw [linesAfter_restarted hcontinues rfl, linesAfter_restarted hcontinues rfl]
    at hlines
  exact absurd hlines (by decide)

end LidarPublisher.Serial.Restart
