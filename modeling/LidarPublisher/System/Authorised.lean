import LidarPublisher.Lib.History
import LidarPublisher.System.Step
import LidarPublisher.Token.Outcome

/-!
# Nothing is published without an accepted token

The checks of a request and the publisher thread are far apart: the one caches a
token, sets a flag and returns, the other polls the flag.  Going back from a
published scan one finds the step that entered the loop, the request that
switched polling on, and the request whose token was checked.
-/

namespace LidarPublisher.System.Authorised

open LidarPublisher.Lib.Run
open LidarPublisher.Lib.Simulation
open LidarPublisher.Lib.History
open LidarPublisher.Sqlite.Lexer
open LidarPublisher.Sqlite.Execute
open LidarPublisher.Token.Clock
open LidarPublisher.Token.Query
open LidarPublisher.Token.VerifyToken
open LidarPublisher.Token.Acceptance
open LidarPublisher.Token.Outcome (getLast?_of_target)
open LidarPublisher.Udp
open LidarPublisher.Udp.ParseRequest
open LidarPublisher.Udp.HandleReceive
open LidarPublisher.Udp.SessionExpiry (Session Request Opens opens_or_same
  opened_of_cached)
open LidarPublisher.Polling.StartPolling
open LidarPublisher.System.Step (Process Occasion Heard session send tick fieldOfAs
  after_append handle_of_heard handle_of_error)

variable (e : Engine)

/-! ## The table that accepted the token -/

/-- A token read as a literal is accepted only if an unexpired row holds it. -/
theorem accepts_before {token : CToken} (hq : dquote ∉ token.bytes)
    (hcol : lookupColumn token.bytes = none) (f : Faults) (now later : LocalTime)
    (db : Db)
    (hcode : (verifyToken (Calls.faulty e f) now later token.bytes db).1 ≠ -1) :
    Accepts token.bytes now db.table := by
  rw [ne_eq, verifyToken_eq_neg_one_iff] at hcode
  rcases Option.ne_none_iff_exists'.mp hcode with ⟨column0, htarget⟩
  have hlast := getLast?_of_target htarget
  rw [found_faulty, parse_selectQuery hq token.noNul, lookupName, hcol] at hlast
  have hmem : column0 ∈ (matching e now (.literal token.bytes) db.table).map
      Row.userId := by
    have hdelivered := List.mem_of_getLast? hlast
    unfold delivered at hdelivered
    split at hdelivered
    · exact hdelivered
    · exact List.mem_of_mem_take hdelivered
  by_contra hnone
  rw [(matching_literal_eq_nil_iff e now token.bytes db.table).mpr hnone] at hmem
  exact absurd hmem List.not_mem_nil

/-- The request that opens a session names a row of the table it meets. -/
theorem accepts_of_opens {s : Session} {q : Request} {token : List UInt8}
    (h : Opens e s q token) (hq : dquote ∉ token)
    (hcol : lookupColumn token = none) : Accepts token q.now s.db.table := by
  have hpresented : (s.presentedToken q).bytes = token := h.presented
  subst hpresented
  exact accepts_before (e.returning q.rows) hq hcol q.faults q.now q.later s.db
    h.accepted

/-! ## The request that was checked -/

/-- The completion is a request that opens the session with `token`. -/
structure Authorises (p : Process) (c : Completion) (o : Occasion)
    (token : List UInt8) : Prop where
  heard : Heard p c
  opens : Opens e ((session e).state p) (p.request c o) token
  row : dquote ∉ token → lookupColumn token = none →
    Accepts token o.now p.db.table

theorem authorises_of_opens {p : Process} {c : Completion} {o : Occasion}
    {token : List UInt8} (hheard : Heard p c)
    (h : Opens e ((session e).state p) (p.request c o) token) :
    Authorises e p c o token :=
  { heard := hheard
    opens := h
    row := accepts_of_opens e h }

/-- A cached token was checked by a request of the run. -/
theorem authorised_of_cached (garbage : Buf) (table : Table)
    (es : List Step.Event)
    (h : (Process.after e garbage table es).node.server.token ≠ []) :
    ∃ pre c o post, es = pre ++ .completion c o :: post ∧
      Authorises e (Process.after e garbage table pre) c o
        (Process.after e garbage table es).node.server.token := by
  have hview : ∀ fs, (session e).state (Process.after e garbage table fs) =
      runFrom (SessionExpiry.step e)
        ((session e).state (Process.init garbage table))
        ((session e).trace (Process.init garbage table) fs) :=
    (session e).state_runFrom (Process.init garbage table)
  have htoken : (Process.after e garbage table es).node.server.token =
      ((session e).state (Process.after e garbage table es)).server.token := rfl
  rw [htoken, hview] at h ⊢
  rcases opened_of_cached e _ rfl _ h with ⟨pre', q, post', htrace, hopens⟩
  rcases (session e).exists_of_trace_eq htrace with
    ⟨pre, ev, post, a, b, rfl, hev, hpre, -⟩
  have hstate : (session e).state (Process.after e garbage table pre) =
      runFrom (SessionExpiry.step e)
        ((session e).state (Process.init garbage table))
        ((session e).trace (Process.init garbage table) pre) := hview pre
  change (session e).events (Process.after e garbage table pre) ev = _ at hev
  cases ev with
  | completion c o =>
      refine ⟨pre, c, o, post, rfl, ?_⟩
      unfold session at hev
      dsimp only at hev
      split at hev
      · next hheard =>
          rcases List.singleton_eq_append_iff.mp hev with
            ⟨rfl, hlast⟩ | ⟨-, hlast⟩
          · injection List.cons.inj hlast |>.1 with hq
            rw [List.append_nil] at hpre
            rw [hpre, ← hstate, hq] at hopens
            exact authorises_of_opens e hheard hopens
          · exact absurd hlast (by simp)
      · exact absurd hev.symm (by simp)
  | write t =>
      rcases List.singleton_eq_append_iff.mp hev with ⟨-, hlast⟩ | ⟨-, hlast⟩
      · exact absurd (List.cons.inj hlast).1 (by simp)
      · exact absurd hlast (by simp)
  | start => exact absurd hev (by simp [session])
  | rosShutdown => exact absurd hev (by simp [session])
  | publisher ros => exact absurd hev (by simp [session])

/-- Behind an honoured request stands one that was checked, maybe itself. -/
theorem authorised_of_honoured (garbage : Buf) (table : Table)
    (pre : List Step.Event) (c : Completion) (o : Occasion)
    (hheard : Heard (Process.after e garbage table pre) c) {res : Int}
    (hres : ((Process.after e garbage table pre).handle e c o).1 = some res)
    (h : res = 0 ∨ res = 1) :
    ∃ pre₀ c₀ o₀ post₀, pre ++ [.completion c o] =
        pre₀ ++ .completion c₀ o₀ :: post₀ ∧
      Authorises e (Process.after e garbage table pre₀) c₀ o₀
        (Process.after e garbage table
          (pre ++ [.completion c o])).node.server.token := by
  have hstep : (session e).state
        (Process.after e garbage table (pre ++ [.completion c o])) =
      SessionExpiry.step e
        ((session e).state (Process.after e garbage table pre))
        (.request ((Process.after e garbage table pre).request c o)) := by
    rw [after_append]
    have hstate := (session e).state_step
      (Process.after e garbage table pre) (.completion c o)
    rw [show (session e).events (Process.after e garbage table pre)
      (.completion c o) = [.request _] from if_pos hheard] at hstate
    exact hstate
  have htoken : (Process.after e garbage table
        (pre ++ [.completion c o])).node.server.token =
      ((session e).state (Process.after e garbage table
        (pre ++ [.completion c o]))).server.token := rfl
  rcases opens_or_same e ((session e).state (Process.after e garbage table pre))
    ((Process.after e garbage table pre).request c o) with
    hopens | ⟨hsame, hcached⟩
  · refine ⟨pre, c, o, [], rfl, ?_⟩
    rw [htoken, hstep]
    exact authorises_of_opens e hheard hopens
  · have hhonoured : SessionExpiry.Honoured e
        ((session e).state (Process.after e garbage table pre))
        ((Process.after e garbage table pre).request c o) := by
      have hcode := (handle_of_heard e (Process.after e garbage table pre) o
        hheard.2).1
      rw [hcode] at hres
      rw [← Option.some.inj hres] at h
      exact h
    rcases authorised_of_cached e garbage table pre (hcached hhonoured) with
      ⟨pre₀, c₀, o₀, post₀, rfl, hauth⟩
    refine ⟨pre₀, c₀, o₀, post₀ ++ [.completion c o], by simp, ?_⟩
    rw [htoken, hstep, hsame]
    exact hauth

/-! ## From a published scan back to the request -/

/-- The thread is in the loops of a sweep, or has been. -/
def Begun (p : Process) : Prop :=
  p.publisher.pc = .inner ∨ p.publisher.pc = .body ∨ p.publisher.published ≠ []

/-- The loops are entered by the thread, past its two tests. -/
theorem polling_of_begins {p : Process} {ev : Step.Event} (h : ¬Begun p)
    (hb : Begun (Step.step e p ev)) : p.node.server.polling = true := by
  cases ev with
  | completion c o =>
      unfold Step.step at hb
      dsimp only at hb
      split at hb
      · exact absurd hb h
      · exact absurd hb h
  | write t => exact absurd hb h
  | start => exact absurd hb h
  | rosShutdown => exact absurd hb h
  | publisher ros =>
      by_contra hoff
      apply h
      unfold Begun at hb ⊢
      change (p.publisher.step _ ros).pc = .inner ∨
        (p.publisher.step _ ros).pc = .body ∨
          (p.publisher.step _ ros).published ≠ [] at hb
      unfold Publisher.step at hb
      cases hpc : p.publisher.pc with
      | waiting =>
          rw [hpc] at hb
          dsimp only at hb
          split at hb
          · simpa using hb
          · simpa [hpc] using hb
      | outer =>
          rw [hpc] at hb
          dsimp only at hb
          rw [if_neg hoff] at hb
          simpa [hpc] using hb
      | inner => exact Or.inl rfl
      | body => exact Or.inr (Or.inl rfl)
      | undefined =>
          rw [hpc] at hb
          simpa [hpc] using hb

/-- Only a start request switches polling on. -/
theorem start_of_polling {p : Process} {ev : Step.Event}
    (h : ¬p.node.server.polling = true)
    (hb : (Step.step e p ev).node.server.polling = true) :
    ∃ c o, ev = .completion c o ∧ Heard p c ∧ (p.handle e c o).1 = some 0 := by
  cases ev with
  | completion c o =>
      refine ⟨c, o, rfl, ?_⟩
      unfold Step.step at hb
      dsimp only at hb
      split at hb
      · exact absurd hb h
      · next harmed =>
          change (complete (o.verify e) c p.node p.db).2.1.server.polling =
            true at hb
          show Heard p c ∧ (complete (o.verify e) c p.node p.db).1 = some 0
          rw [polling_complete] at hb
          by_cases herr : c.error = .other
          · have hnone : (complete (o.verify e) c p.node p.db).1 = none :=
              congrArg Prod.fst (handle_of_error e p o herr)
            rw [hnone] at hb
            exact absurd hb h
          · refine ⟨⟨harmed, herr⟩, ?_⟩
            cases hres : (complete (o.verify e) c p.node p.db).1 with
            | none =>
                rw [hres] at hb
                exact absurd hb h
            | some res =>
                rw [hres, Option.map_some, Option.getD_some] at hb
                unfold pollingAfter at hb
                split at hb
                · next h0 => rw [h0]
                · split at hb
                  · exact absurd hb (by simp)
                  · exact absurd hb h
  | write t => exact absurd hb h
  | start => exact absurd hb h
  | rosShutdown => exact absurd hb h
  | publisher ros => exact absurd hb h

/-- The thread may have left its first loop. -/
def Awake (p : Process) : Prop :=
  p.publisher.initialized = true ∨ p.publisher.pc ≠ .waiting ∨
    p.publisher.published ≠ []

/-- The thread waits for `lidarserver::start`. -/
theorem start_of_awake {p : Process} {ev : Step.Event} (h : ¬Awake p)
    (hb : Awake (Step.step e p ev)) : ev = .start := by
  cases ev with
  | completion c o =>
      unfold Step.step at hb
      dsimp only at hb
      split at hb
      · exact absurd hb h
      · exact absurd hb h
  | write t => exact absurd hb h
  | start => rfl
  | rosShutdown => exact absurd hb h
  | publisher ros =>
      rcases not_or.mp h with ⟨hoff, hrest⟩
      have hpc : p.publisher.pc = .waiting := not_not.mp (not_or.mp hrest).1
      have hsame : p.publisher.step p.node.server.polling ros = p.publisher := by
        unfold Publisher.step
        rw [hpc]
        exact if_neg hoff
      change Awake { p with publisher := p.publisher.step _ ros } at hb
      rw [hsame] at hb
      exact absurd hb h

/-- **Nothing is published without an accepted token.**  Before the first scan
the process was started and a start request was honoured; no scan is older than
that request, which opened the session or found it opened by a request whose
token `verifyToken` accepted.  A token read as a literal was then that of an
unexpired row. -/
theorem published_authorised (garbage : Buf) (table : Table)
    (es : List Step.Event)
    (h : (Process.after e garbage table es).publisher.published ≠ []) :
    Step.Event.start ∈ es ∧
      ∃ pre c o post, es = pre ++ .completion c o :: post ∧
        (Process.after e garbage table pre).publisher.published = [] ∧
        Heard (Process.after e garbage table pre) c ∧
        ((Process.after e garbage table pre).handle e c o).1 = some 0 ∧
        ∃ pre₀ c₀ o₀ post₀, pre ++ [.completion c o] =
            pre₀ ++ .completion c₀ o₀ :: post₀ ∧
          Authorises e (Process.after e garbage table pre₀) c₀ o₀
            (Process.after e garbage table
              (pre ++ [.completion c o])).node.server.token := by
  constructor
  · rcases mem_of_inv_history (P := (· = Step.Event.start))
      (Q := Awake) (s := Process.init garbage table)
      (by simp [Awake, Process.init, Publisher.init])
      (fun _ _ => start_of_awake e) (Or.inr (Or.inr h)) with
      ⟨ev, hmem, rfl⟩
    exact hmem
  · rcases exists_first_step Begun (s := Process.init garbage table)
      (by simp [Begun, Process.init, Publisher.init]) (Or.inr (Or.inr h)) with
      ⟨pre', ev', post', rfl, hbefore, hbegun⟩
    have hpolling : (Process.after e garbage table pre').node.server.polling =
        true := by
      rw [runFrom_append] at hbegun
      exact polling_of_begins e (hbefore pre' List.prefix_rfl) hbegun
    have hoff : ¬(Process.init garbage table).node.server.polling = true :=
      Bool.false_ne_true
    change (runFrom (Step.step e) (Process.init garbage table) pre').node.server.polling =
      true at hpolling
    rcases exists_first_step (fun p : Process => p.node.server.polling = true)
      hoff hpolling with ⟨pre, ev, post, rfl, hoff, hon⟩
    rw [runFrom_append] at hon
    rcases start_of_polling e (hoff pre List.prefix_rfl) hon with
      ⟨c, o, rfl, hheard, hzero⟩
    refine ⟨pre, c, o, post ++ ev' :: post', by simp, ?_, hheard, hzero,
      authorised_of_honoured e garbage table pre c o hheard hzero (Or.inl rfl)⟩
    by_contra hne
    exact hbefore pre (List.prefix_append pre _) (Or.inr (Or.inr hne))

/-- A run up to the first scan, on a table that knows the token. -/
theorem published_authorised_noon :
    ∃ pre c o token, Authorises Engine.plain
      (Process.after Engine.plain (Vector.replicate readBufSize 0) sixteenAsTable
        pre) c o token := by
  rcases (published_authorised Engine.plain (Vector.replicate readBufSize 0)
    sixteenAsTable
    [.start, tick, send .start fieldOfAs (.at noon), tick, tick, tick]
    (by decide +kernel)).2 with
    ⟨_, _, _, _, -, -, -, -, pre, c, o, _, -, hauth⟩
  exact ⟨pre, c, o, _, hauth⟩

end LidarPublisher.System.Authorised
