import LidarPublisher.Lib.Run
import LidarPublisher.Token.Acceptance
import LidarPublisher.Udp.HandleReceive
import Mathlib.Data.List.Induction

/-!
# Sessions and the expiration of their tokens

Requests run against the database, which other writers change in between.  The
token is checked by the request that opens the session; later requests find it
in the cache and do not look at the table again.
-/

namespace LidarPublisher.Udp.SessionExpiry

open LidarPublisher.Lib.Run
open LidarPublisher.Lib.Bytes
open LidarPublisher.Sqlite.Lexer
open LidarPublisher.Sqlite.Ledger
open LidarPublisher.Sqlite.Execute
open LidarPublisher.Token.Clock
open LidarPublisher.Token.Query
open LidarPublisher.Token.VerifyToken
open LidarPublisher.Token.Acceptance
open LidarPublisher.Udp.ParseRequest
open LidarPublisher.Udp.HandleReceive

/-- The server and the database it asks. -/
structure Session where
  server : Server
  db : Db

/-- No token cached, polling off. -/
def Session.start (readBuf : Buf) (table : Table) : Session :=
  { server := { readBuf := readBuf, token := [], polling := false }
    db := { table := table, handles := [] } }

/-- A request at the time `now`.  Should `verifyToken` be called, `later` is its
second clock reading, and `rows` are those of a query that was meant to be
another. -/
structure Request where
  buf : Buf
  faults : Faults
  rows : OtherRows
  now : LocalTime
  later : LocalTime

inductive Event
  /-- Another writer leaves this table. -/
  | write (table : Table)
  | request (q : Request)

/-- The clock readings of a run, in order. -/
def readings (es : List Event) : List LocalTime :=
  es.flatMap fun ev =>
    match ev with
    | .write _ => []
    | .request q => [q.now, q.later]

/-- The token string taken from a request. -/
def Session.presented (s : Session) (q : Request) : List UInt8 :=
  ParseRequest.presented q.buf readBufSize (Nat.le_refl _) s.server

variable (e : Engine)

/-- The call of `verifyToken` a request leads to. -/
def Request.verify (q : Request) : List UInt8 → Db → Int × Db :=
  verifyToken (Calls.faulty (e.returning q.rows) q.faults) q.now q.later

/-- The call of `parseRequest` for a request. -/
def Session.parse (s : Session) (q : Request) : Int × Server × Db :=
  parseRequest (q.verify e) q.buf readBufSize (Nat.le_refl _) s.server s.db

def step (s : Session) : Event → Session
  | .write table => { s with db := { s.db with table := table } }
  | .request q =>
      let (res, server, db) := s.parse e q
      { server := { server with polling := pollingAfter res server.polling }
        db := db }

/-- `parseRequest` returns 0 or 1. -/
def Honoured (s : Session) (q : Request) : Prop :=
  (s.parse e q).1 = 0 ∨ (s.parse e q).1 = 1

instance (s : Session) (q : Request) : Decidable (Honoured e s q) :=
  inferInstanceAs (Decidable (_ ∨ _))

/-- When a request is honoured, the table has an unexpired row for the cached
token. -/
def SessionLive (s : Session) : Event → Prop
  | .write _ => True
  | .request q => Honoured e s q →
      Accepts (step e s (.request q)).server.token q.now
        (step e s (.request q)).db.table

/-- With nothing cached the request presents the token to `verifyToken`, which
accepts it, and the token is cached. -/
structure Opens (s : Session) (q : Request) (token : List UInt8) : Prop where
  empty : s.server.token = []
  presented : s.presented q = token
  accepted : (q.verify e token s.db).1 ≠ -1
  cached : (step e s (.request q)).server.token = token
  db : (step e s (.request q)).db = (q.verify e token s.db).2

/-- The request is decided on the cached token: the table and `verifyToken` have
no part in it, whatever they are, and it leaves token and database alone. -/
structure OnCache (s : Session) (q : Request) : Prop where
  token : (step e s (.request q)).server.token = s.server.token
  db : (step e s (.request q)).db = s.db
  parse : ∀ (ω : Type) (verifyToken : List UInt8 → ω → Int × ω) (w : ω),
    parseRequest verifyToken q.buf readBufSize (Nat.le_refl _) s.server w =
      ((s.parse e q).1, (s.parse e q).2.1, w)

/-! ## The request that opened the session -/

/-- A request opens the session or leaves the cached token alone; it is honoured
only when it opens the session or finds a token in the cache. -/
theorem opens_or_same (s : Session) (q : Request) :
    Opens e s q (step e s (.request q)).server.token ∨
      (step e s (.request q)).server.token = s.server.token ∧
        (Honoured e s q → s.server.token ≠ []) := by
  have hexit := parseRequest_exit (q.verify e) q.buf readBufSize (Nat.le_refl _)
    s.server s.db
  have hstep : step e s (.request q) =
      { server :=
          { (s.parse e q).2.1 with
            polling := pollingAfter (s.parse e q).1 (s.parse e q).2.1.polling }
        db := (s.parse e q).2.2 } := rfl
  change ParseExit _ _ _ _ _ _ (s.parse e q) at hexit
  unfold Honoured
  by_cases hopens : Opens e s q (step e s (.request q)).server.token
  · exact Or.inl hopens
  · right
    rw [hstep]
    generalize hout : s.parse e q = out at hexit
    cases hexit with
    | noTerminator hr => exact ⟨rfl, by simp⟩
    | refused hr htok hans => exact ⟨rfl, by simp⟩
    | verified hr htok hans =>
        refine absurd ?_ hopens
        rw [hstep, hout]
        exact
          { empty := htok
            presented := rfl
            accepted := hans
            cached := by rw [hstep, hout]
            db := by rw [hstep, hout] }
    | cached hr htok => exact ⟨rfl, fun _ => htok⟩

/-- Once a token is cached, requests are decided on it. -/
theorem onCache {s : Session} (h : s.server.token ≠ []) (q : Request) :
    OnCache e s q where
  token := (parseRequest_of_cached (q.verify e) (q.verify e) h q.buf readBufSize
    (Nat.le_refl _) s.db s.db).2.2.1
  db := (parseRequest_of_cached (q.verify e) (q.verify e) h q.buf readBufSize
    (Nat.le_refl _) s.db s.db).2.2.2
  parse := by
    intro ω verifyToken w
    rcases parseRequest_of_cached verifyToken (q.verify e) h q.buf readBufSize
      (Nat.le_refl _) w s.db with ⟨hres, hserver, -, hworld⟩
    exact Prod.ext hres (Prod.ext hserver hworld)

/-- A cached token was put there by a request of the run. -/
theorem opened_of_cached (s : Session) (hs : s.server.token = [])
    (es : List Event) (hne : (runFrom (step e) s es).server.token ≠ []) :
    ∃ pre q post, es = pre ++ .request q :: post ∧
      Opens e (runFrom (step e) s pre) q
        (runFrom (step e) s es).server.token := by
  induction es using List.reverseRecOn with
  | nil => exact absurd hs hne
  | append_singleton es ev ih =>
      rw [runFrom_append, runFrom_cons, runFrom_nil] at hne ⊢
      cases ev with
      | write table =>
          obtain ⟨pre, q, post, rfl, hopens⟩ := ih hne
          exact ⟨pre, q, post ++ [.write table], by simp, hopens⟩
      | request q =>
          rcases opens_or_same e (runFrom (step e) s es) q with
            hopens | ⟨hsame, -⟩
          · exact ⟨es, q, [], rfl, hopens⟩
          · rw [hsame] at hne ⊢
            obtain ⟨pre, q', post, rfl, hopens⟩ := ih hne
            exact ⟨pre, q', post ++ [.request q], by simp, hopens⟩

/-- The bytes taken from a request are a C string of at most 16 bytes. -/
def Session.presentedToken (s : Session) (q : Request) : CToken where
  bytes := s.presented q
  noNul h := cString_ne_zero _ 0 h rfl
  short := by
    refine (cString_length_le _).trans ?_
    rw [List.length_take]
    exact Nat.min_le_left _ _

/-- The opening request leaves an unexpired row of its token, if the token is
read as a literal. -/
theorem Opens.accepts {s : Session} {q : Request} {token : List UInt8}
    (h : Opens e s q token) (hle : q.now ≤ q.later) (hq : dquote ∉ token)
    (hcol : lookupColumn token = none) :
    Accepts token q.now (step e s (.request q)).db.table := by
  have hpresented : (s.presentedToken q).bytes = token := h.presented
  rw [h.db]
  subst hpresented
  exact accepts_of_accepted hq hcol (e.returning q.rows) q.faults hle s.db
    h.accepted

/-- **Session expiry.**  Behind every honoured request stands a request of the
run, at the same time or earlier, that presented the session's token and had it
accepted; with an empty cache it is the honoured request itself.  If the token
has no double quote and names no column, the table then had an unexpired row for
it.  Once a token is cached, all requests are decided on it, whatever has become
of its row. -/
theorem honoured_session (readBuf : Buf) (table : Table) (es : List Event)
    (h : Chronological (readings es)) (pre post : List Event) (q : Request)
    (hsplit : es = pre ++ .request q :: post) :
    let run := runFrom (step e) (Session.start readBuf table)
    let token := (run (pre ++ [.request q])).server.token
    (Honoured e (run pre) q →
      ∃ pre₀ q₀ post₀, pre ++ [.request q] = pre₀ ++ .request q₀ :: post₀ ∧
        q₀.now ≤ q.now ∧
        ((run pre).server.token = [] → pre₀ = pre) ∧
        Opens e (run pre₀) q₀ token ∧
        (dquote ∉ token → lookupColumn token = none →
          Accepts token q₀.now (run (pre₀ ++ [.request q₀])).db.table)) ∧
      ((run pre).server.token ≠ [] → OnCache e (run pre) q) := by
  intro run token
  refine ⟨fun hres => ?_, fun hne => onCache e hne q⟩
  subst hsplit
  have hlast : ∀ (fs : List Event) (r : Request),
      run (fs ++ [.request r]) = step e (run fs) (.request r) := by
    intro fs r
    exact runFrom_append _ fs [.request r]
  rcases opens_or_same e (run pre) q with hopens | ⟨hsame, hcache⟩
  · have hle : q.now ≤ q.later := by
      simp only [readings, List.flatMap_append, List.flatMap_cons] at h
      have hq := (List.pairwise_append.mp h).2.1
      exact (List.pairwise_cons.mp hq).1 q.later (by simp)
    rw [← hlast] at hopens
    refine ⟨pre, q, [], rfl, LocalTime.le_refl _, fun _ => rfl, hopens, ?_⟩
    rw [hlast]
    exact hopens.accepts e hle
  · obtain ⟨pre₀, q₀, post₀, rfl, hopens⟩ :=
      opened_of_cached e (Session.start readBuf table) rfl pre (hcache hres)
    obtain ⟨hle, hbefore⟩ : q₀.now ≤ q₀.later ∧ q₀.now ≤ q.now := by
      simp only [readings, List.flatMap_append, List.flatMap_cons,
        List.append_assoc] at h
      have hq₀ := (List.pairwise_append.mp h).2.1
      exact ⟨(List.pairwise_cons.mp hq₀).1 q₀.later (by simp),
        (List.pairwise_cons.mp hq₀).1 q.now (by simp)⟩
    have htoken : token =
        (run (pre₀ ++ .request q₀ :: post₀)).server.token := by
      rw [← hsame, ← hlast]
    rw [htoken]
    refine ⟨pre₀, q₀, post₀ ++ [.request q], by simp, hbefore,
      fun hnil => absurd hnil (hcache hres), hopens, ?_⟩
    rw [hlast]
    exact hopens.accepts e hle

/-- A start request with a token of sixteen `A`s, at noon. -/
def startRequest : Request :=
  { buf := frame 'S'.toNat.toUInt8 65, faults := .none, rows := fun _ _ => []
    now := noon, later := noon }

/-- The session of this request, on a table from which its token was deleted
afterwards. -/
def revoked : Session :=
  runFrom (step Engine.plain)
    (Session.start (Vector.replicate readBufSize 0) sixteenAsTable)
    [.request startRequest, .write []]

theorem token_revoked : revoked.server.token = sixteenAs.bytes := by
  decide +kernel

theorem honoured_revoked : Honoured Engine.plain revoked startRequest := by
  decide +kernel

/-- The request again: it is honoured on the cached token. -/
theorem honoured_session_startRequest :
    let run := runFrom (step Engine.plain)
      (Session.start (Vector.replicate readBufSize 0) sixteenAsTable)
    (∃ pre₀ q₀, Opens Engine.plain (run pre₀) q₀ sixteenAs.bytes ∧
      Accepts sixteenAs.bytes q₀.now
        (run (pre₀ ++ [.request q₀])).db.table) ∧
      Honoured Engine.plain revoked startRequest ∧
      OnCache Engine.plain revoked startRequest := by
  obtain ⟨hopened, hcache⟩ :=
    honoured_session Engine.plain (Vector.replicate readBufSize 0) sixteenAsTable
      [.request startRequest, .write [], .request startRequest] (by decide)
      [.request startRequest, .write []] [] startRequest rfl
  obtain ⟨pre₀, q₀, post₀, -, -, -, hopens, haccepts⟩ := hopened honoured_revoked
  have hcached : OnCache Engine.plain revoked startRequest := by
    apply hcache
    change revoked.server.token ≠ []
    rw [token_revoked]
    decide
  have htoken : (step Engine.plain revoked
      (.request startRequest)).server.token = sixteenAs.bytes :=
    hcached.token.trans token_revoked
  rw [runFrom_append, show runFrom (step Engine.plain)
    (Session.start (Vector.replicate readBufSize 0) sixteenAsTable)
    [.request startRequest, .write []] = revoked from rfl, runFrom_cons,
    runFrom_nil, htoken] at hopens haccepts
  exact ⟨⟨pre₀, q₀, hopens, haccepts (by decide) (by decide)⟩, honoured_revoked,
    hcached⟩

/-- The token is deleted after the session was opened; the next request is
honoured all the same. -/
theorem not_sessionLive :
    ¬∀ (e : Engine) (readBuf : Buf) (table : Table) (es : List Event),
      Chronological (readings es) →
        EveryStep (step e) (SessionLive e) (Session.start readBuf table) es := by
  intro h
  have hrun := h Engine.plain (Vector.replicate readBufSize 0) sixteenAsTable
    [.request startRequest, .write [], .request startRequest] (by decide)
  have hlive := hrun.2.2.1 honoured_revoked
  revert hlive
  decide +kernel

end LidarPublisher.Udp.SessionExpiry
