import LidarPublisher.Lib.Run
import LidarPublisher.Udp.HandleReceive

/-!
# The cached session token over whole runs

`verifyToken` is an oracle here: every request brings its own answer function,
and the world threaded through `parseRequest` records the calls.  The invariant
says that the record ends with the call that opened the session, if one did;
session history and authentication are read off it.
-/

namespace LidarPublisher.Udp.TokenCache

open LidarPublisher.Lib.Run
open LidarPublisher.Lib.Bytes
open LidarPublisher.Udp.ParseRequest
open LidarPublisher.Udp.HandleReceive

/-! ## Recorded calls -/

/-- One call of `verifyToken`: its argument and what it returned. -/
structure Call where
  token : List UInt8
  answer : Int
  deriving DecidableEq, Repr

/-- `parseRequest` treats every answer but `-1` as acceptance. -/
def Call.Accepted (c : Call) : Prop := c.answer ≠ -1

/-- The call that fills the cache: an accepted, non-empty token. -/
def Call.Opens (c : Call) : Prop := c.answer ≠ -1 ∧ c.token ≠ []

instance (c : Call) : Decidable c.Accepted := inferInstanceAs (Decidable (_ ≠ _))

instance (c : Call) : Decidable c.Opens := inferInstanceAs (Decidable (_ ∧ _))

/-- The oracle: answer with `answer` and append the call to the record. -/
def record (answer : List UInt8 → Int) (tok : List UInt8) (calls : List Call) :
    Int × List Call :=
  (answer tok, calls ++ [{ token := tok, answer := answer tok }])

/-- What the cached token says about the calls made so far: either it is empty
and no call opened the session, or it is the argument of the last call, the
first one that did. -/
def TokenInv (token : List UInt8) (calls : List Call) : Prop :=
  (token = [] ∧ ∀ c ∈ calls, ¬c.Opens) ∨
    ∃ pre c, calls = pre ++ [c] ∧ c.Opens ∧ c.token = token ∧
      ∀ d ∈ pre, ¬d.Opens

theorem TokenInv.none_of_nil {calls : List Call} (h : TokenInv [] calls) :
    ∀ c ∈ calls, ¬c.Opens := by
  rcases h with ⟨-, hnone⟩ | ⟨pre, c, -, hc, htok, -⟩
  · exact hnone
  · exact absurd htok hc.2

theorem TokenInv.accepted_of_ne {token : List UInt8} {calls : List Call}
    (h : TokenInv token calls) (hne : token ≠ []) :
    ∃ c ∈ calls, c.Accepted ∧ c.token = token := by
  rcases h with ⟨htok, -⟩ | ⟨pre, c, rfl, hc, htok, -⟩
  · exact absurd htok hne
  · exact ⟨c, by simp, hc.1, htok⟩

/-- Recording one more call while the cache is empty. -/
theorem TokenInv.append {calls : List Call} (h : TokenInv [] calls)
    (c : Call) :
    (c.answer = -1 → TokenInv [] (calls ++ [c])) ∧
      (c.answer ≠ -1 → TokenInv c.token (calls ++ [c])) := by
  have hclosed (hc : ¬c.Opens) : ∀ d ∈ calls ++ [c], ¬d.Opens := by
    intro d hd
    rcases List.mem_append.mp hd with hd | hd
    · exact h.none_of_nil d hd
    · rwa [List.mem_singleton.mp hd]
  constructor
  · intro hans
    exact Or.inl ⟨rfl, hclosed fun hc => hc.1 hans⟩
  · intro hans
    by_cases htok : c.token = []
    · exact Or.inl ⟨htok, hclosed fun hc => hc.2 htok⟩
    · exact Or.inr ⟨calls, c, rfl, ⟨hans, htok⟩, rfl, h.none_of_nil⟩

/-- One request keeps the token invariant, on every exit of the parser. -/
theorem tokenInv_parseRequest (answer : List UInt8 → Int) (buf : Buf)
    (len : Nat) (hlen : len ≤ readBufSize) (s : Server) (calls : List Call)
    (h : TokenInv s.token calls) :
    TokenInv (parseRequest (record answer) buf len hlen s calls).2.1.token
      (parseRequest (record answer) buf len hlen s calls).2.2 := by
  have hexit := parseRequest_exit (record answer) buf len hlen s calls
  generalize parseRequest (record answer) buf len hlen s calls = out at hexit ⊢
  cases hexit with
  | noTerminator hr => exact h
  | refused hr htok hans =>
      rw [htok] at h
      rw [Server.scanned_token, htok]
      exact (h.append { token := presented buf len hlen s, answer := _ }).1 hans
  | verified hr htok hans =>
      rw [htok] at h
      exact (h.append { token := presented buf len hlen s, answer := _ }).2 hans
  | cached hr htok => exact h

/-- A request is honoured only when the record holds an accepted call. -/
theorem accepted_of_honoured (answer : List UInt8 → Int) (buf : Buf)
    (len : Nat) (hlen : len ≤ readBufSize) (s : Server) (calls : List Call)
    (h : TokenInv s.token calls)
    (hres : (parseRequest (record answer) buf len hlen s calls).1 ≠ -1) :
    ∃ c ∈ (parseRequest (record answer) buf len hlen s calls).2.2,
      c.Accepted := by
  have hexit := parseRequest_exit (record answer) buf len hlen s calls
  generalize parseRequest (record answer) buf len hlen s calls = out
    at hexit hres ⊢
  cases hexit with
  | noTerminator hr => exact absurd rfl hres
  | refused hr htok hans => exact absurd rfl hres
  | verified hr htok hans =>
      let c : Call :=
        { token := presented buf len hlen s
          answer := answer (presented buf len hlen s) }
      exact ⟨c, List.mem_append_right _ (by simp [c]), hans⟩
  | cached hr htok =>
      obtain ⟨c, hc, hacc, -⟩ := h.accepted_of_ne htok
      exact ⟨c, hc, hacc⟩

/-- Calls are only ever appended. -/
theorem calls_prefix (answer : List UInt8 → Int) (buf : Buf)
    (len : Nat) (hlen : len ≤ readBufSize) (s : Server) (calls : List Call) :
    calls <+: (parseRequest (record answer) buf len hlen s calls).2.2 := by
  have hexit := parseRequest_exit (record answer) buf len hlen s calls
  generalize parseRequest (record answer) buf len hlen s calls = out at hexit ⊢
  cases hexit with
  | noTerminator hr => exact List.prefix_refl _
  | refused hr htok hans => exact List.prefix_append _ _
  | verified hr htok hans => exact List.prefix_append _ _
  | cached hr htok => exact List.prefix_refl _

/-! ## Session history -/

/-- The node, the calls of `verifyToken` so far and the results of
`parseRequest` so far. -/
structure Trace where
  node : Node
  calls : List Call
  results : List Int

def Trace.init (garbage : Buf) : Trace :=
  { node := Node.init garbage, calls := [], results := [] }

/-- A datagram received without error, with the oracle that answers for it. -/
structure Arrival where
  datagram : Datagram
  answer : List UInt8 → Int

/-- One completion of `handle_receive` without error. -/
def arrive (t : Trace) (a : Arrival) : Trace :=
  let (res, node, calls) :=
    complete (record a.answer) { datagram := a.datagram, error := .success }
      t.node t.calls
  { node := node, calls := calls, results := t.results ++ res.toList }

/-- The results that set the polling flag. -/
def honoured (results : List Int) : List Int :=
  results.filter fun r => r = 0 ∨ r = 1

/-- What holds of every trace. -/
structure TraceInv (t : Trace) : Prop where
  token : TokenInv t.node.server.token t.calls
  polling : t.node.server.polling = true ↔
    (honoured t.results).getLast? = some 0
  accepted : honoured t.results ≠ [] → ∃ c ∈ t.calls, c.Accepted

theorem arrive_eq (t : Trace) (a : Arrival) :
    arrive t a =
      { node := respond (parsed (record a.answer) a.datagram t.node t.calls).1
          { t.node.receive a.datagram with
            server := (parsed (record a.answer) a.datagram t.node t.calls).2.1 }
        calls := (parsed (record a.answer) a.datagram t.node t.calls).2.2
        results := t.results ++
          [(parsed (record a.answer) a.datagram t.node t.calls).1] } := by
  unfold arrive
  rw [complete_success]
  rfl

/-- The last honoured result after one more result. -/
private theorem getLast_honoured_append (results : List Int) (res : Int)
    (polling : Bool)
    (h : polling = true ↔ (honoured results).getLast? = some 0) :
    pollingAfter res polling = true ↔
      (honoured (results ++ [res])).getLast? = some 0 := by
  by_cases h0 : res = 0
  · simp [h0, honoured, pollingAfter]
  · by_cases h1 : res = 1
    · simp [h1, honoured, pollingAfter]
    · simpa [h0, h1, honoured, pollingAfter] using h

theorem traceInv_arrive (t : Trace) (a : Arrival) (h : TraceInv t) :
    TraceInv (arrive t a) := by
  have hnext := tokenInv_parseRequest a.answer
    (t.node.receive a.datagram).socket.readBuf readBufSize (Nat.le_refl _)
    t.node.server t.calls h.token
  have hacc := accepted_of_honoured a.answer
    (t.node.receive a.datagram).socket.readBuf readBufSize (Nat.le_refl _)
    t.node.server t.calls h.token
  have hpre := calls_prefix a.answer
    (t.node.receive a.datagram).socket.readBuf readBufSize (Nat.le_refl _)
    t.node.server t.calls
  have hpoll := parseRequest_polling (record a.answer)
    (t.node.receive a.datagram).socket.readBuf readBufSize (Nat.le_refl _)
    t.node.server t.calls
  change TokenInv (parsed _ _ _ _).2.1.token (parsed _ _ _ _).2.2 at hnext
  change (parsed _ _ _ _).1 ≠ -1 → ∃ c ∈ (parsed _ _ _ _).2.2, _ at hacc
  change _ <+: (parsed _ _ _ _).2.2 at hpre
  change (parsed _ _ _ _).2.1.polling = _ at hpoll
  rw [arrive_eq, respond_eq]
  generalize parsed (record a.answer) a.datagram t.node t.calls = out at *
  refine { token := hnext, polling := ?_, accepted := ?_ }
  · show pollingAfter out.1 out.2.1.polling = true ↔ _
    rw [hpoll]
    exact getLast_honoured_append t.results out.1 _ h.polling
  · intro hne
    by_cases hres : out.1 = -1
    · have hsame : honoured (t.results ++ [out.1]) = honoured t.results := by
        simp [honoured, hres]
      rw [hsame] at hne
      obtain ⟨c, hc, hok⟩ := h.accepted hne
      exact ⟨c, hpre.subset hc, hok⟩
    · exact hacc hres

theorem traceInv_init (garbage : Buf) : TraceInv (Trace.init garbage) where
  token := Or.inl ⟨rfl, by simp [Trace.init]⟩
  polling := by
    simp [Trace.init, Node.init, startReceive, Server.init, honoured]
  accepted := by simp [Trace.init, honoured]

/-- The trace invariant holds in every reachable state. -/
theorem traceInv_run (garbage : Buf) (as : List Arrival) :
    TraceInv (runFrom arrive (Trace.init garbage) as) :=
  inv_runFrom TraceInv traceInv_arrive _ as (traceInv_init garbage)

/-- The argument of the first accepted call with a non-empty token. -/
def firstOpened (calls : List Call) : Option (List UInt8) :=
  (calls.find? fun c => decide c.Opens).map Call.token

/-- The token invariant, as the value of the cached token. -/
theorem TokenInv.eq_firstOpened {token : List UInt8} {calls : List Call}
    (h : TokenInv token calls) : token = (firstOpened calls).getD [] := by
  rcases h with ⟨rfl, hnone⟩ | ⟨pre, c, rfl, hc, rfl, hnone⟩
  · have hfind : calls.find? (fun c => decide c.Opens) = none := by
      simpa using hnone
    simp [firstOpened, hfind]
  · have hfind : pre.find? (fun c => decide c.Opens) = none := by
      simpa using hnone
    simp [firstOpened, List.find?_append, hfind, hc]

/-- Nothing is recorded behind a call that opened the session. -/
theorem TokenInv.last_of_opens {token : List UInt8} {calls : List Call}
    (h : TokenInv token calls) {pre post : List Call} {c : Call}
    (hsplit : calls = pre ++ c :: post) (hc : c.Opens) : post = [] := by
  rcases h with ⟨-, hnone⟩ | ⟨pre', c', rfl, -, -, hnone⟩
  · exact absurd hc (hnone c (by rw [hsplit]; simp))
  · rcases List.eq_nil_or_concat post with rfl | ⟨post', d, rfl⟩
    · rfl
    · have hpre : pre' = pre ++ c :: post' := by
        have heq : pre' ++ [c'] = (pre ++ c :: post') ++ [d] := by
          simpa using hsplit
        exact (List.append_inj' heq rfl).1
      exact absurd hc (hnone c (by rw [hpre]; simp))

/-- **Session history.**  In every reachable state the cached token is the
first accepted non-empty token, after which `verifyToken` is not called again;
polling is on exactly when the last honoured request was a start request; and
nothing is honoured before some token was accepted. -/
theorem session_history (garbage : Buf) (as : List Arrival) :
    let t := runFrom arrive (Trace.init garbage) as
    t.node.server.token = (firstOpened t.calls).getD [] ∧
      (∀ pre c post, t.calls = pre ++ c :: post → c.Opens → post = []) ∧
      (t.node.server.polling = true ↔
        (honoured t.results).getLast? = some 0) ∧
      ((∃ r ∈ t.results, r = 0 ∨ r = 1) → ∃ c ∈ t.calls, c.Accepted) ∧
      (t.node.server.polling = true → ∃ c ∈ t.calls, c.Accepted) := by
  intro t
  have hinv : TraceInv t := traceInv_run garbage as
  refine ⟨hinv.token.eq_firstOpened, fun pre c post hsplit hc =>
    hinv.token.last_of_opens hsplit hc, hinv.polling, ?_, ?_⟩
  · intro h
    rcases h with ⟨r, hr, hval⟩
    apply hinv.accepted
    apply List.ne_nil_of_mem (a := r)
    simp [honoured, hr, hval]
  · intro hon
    apply hinv.accepted
    intro hnil
    have hlast := hinv.polling.mp hon
    simp [hnil] at hlast

/-! ## Authentication -/

/-- A buffer handed to `parseRequest`, with the oracle that answers for it. -/
structure Request where
  buf : Buf
  answer : List UInt8 → Int

/-- The server and the calls of `verifyToken` so far. -/
structure Session where
  server : Server
  calls : List Call

/-- No token cached, polling off. -/
def Session.start (readBuf : Buf) : Session :=
  { server := { readBuf := readBuf, token := [], polling := false }
    calls := [] }

/-- The call of `parseRequest` for one request. -/
def Session.parse (s : Session) (q : Request) : Int × Server × List Call :=
  parseRequest (record q.answer) q.buf readBufSize (Nat.le_refl _)
    s.server s.calls

/-- The token string taken from a request. -/
def Session.presented (s : Session) (q : Request) : List UInt8 :=
  ParseRequest.presented q.buf readBufSize (Nat.le_refl _) s.server

/-- One request, with the polling flag as `handle_receive` sets it. -/
def serve (s : Session) (q : Request) : Session :=
  let (res, server, calls) := s.parse q
  { server := { server with polling := pollingAfter res server.polling }
    calls := calls }

/-- An honoured request carries a token that `verifyToken` accepted, now or
earlier in the run. -/
def Authenticated (s : Session) (q : Request) : Prop :=
  (s.parse q).1 = 0 ∨ (s.parse q).1 = 1 →
    ∃ c ∈ (s.parse q).2.2, c.Accepted ∧ c.token = s.presented q

/-- The request is not a complete one with start or stop bytes that reaches a
cached token it does not carry.  The empty token, which never enters the cache,
passes when it was accepted before. -/
def OwnToken (s : Session) (q : Request) : Prop :=
  s.server.token ≠ [] →
    (scan q.buf readBufSize (Nat.le_refl _) s.server.readBuf).r = true →
      command (s.server.scanned q.buf readBufSize (Nat.le_refl _)).readBuf
          ≠ -1 →
        s.presented q = s.server.token ∨
          (s.presented q = [] ∧ ∃ c ∈ s.calls, c.Accepted ∧ c.token = [])

/-- The tokens accepted before a session was opened are all empty. -/
theorem TokenInv.accepted_token {token : List UInt8} {calls : List Call}
    (h : TokenInv token calls) {c : Call} (hc : c ∈ calls)
    (hacc : c.Accepted) : c.token = token ∨ c.token = [] := by
  rcases h with ⟨rfl, hnone⟩ | ⟨pre, d, rfl, hd, rfl, hnone⟩
  · by_contra hne
    exact hnone c hc ⟨hacc, fun hnil => hne (Or.inr hnil)⟩
  · rcases List.mem_append.mp hc with hpre | hlast
    · by_contra hne
      exact hnone c hpre ⟨hacc, fun hnil => hne (Or.inr hnil)⟩
    · rw [List.mem_singleton.mp hlast]
      exact Or.inl rfl

/-- At one step, under the token invariant, authentication is exactly the
condition on the request. -/
theorem authenticated_iff_ownToken (s : Session) (q : Request)
    (h : TokenInv s.server.token s.calls) :
    Authenticated s q ↔ OwnToken s q := by
  have hexit := parseRequest_exit (record q.answer) q.buf readBufSize
    (Nat.le_refl _) s.server s.calls
  unfold Authenticated OwnToken Session.parse
  generalize parseRequest (record q.answer) q.buf readBufSize (Nat.le_refl _)
    s.server s.calls = out at hexit ⊢
  cases hexit with
  | noTerminator hr => simp [hr]
  | refused hr htok hans => simp [htok]
  | verified hr htok hans =>
      refine ⟨fun _ hne => absurd htok hne, fun _ _ => ?_⟩
      exact ⟨{ token := s.presented q, answer := q.answer (s.presented q) },
        List.mem_append_right _ (by simp [Session.presented]), hans, rfl⟩
  | cached hr htok =>
      have hcmd := command_cases
        (s.server.scanned q.buf readBufSize (Nat.le_refl _)).readBuf
      constructor
      · intro hauth _ _ hne
        obtain ⟨c, hc, hacc, htoken⟩ := hauth (hcmd.resolve_left hne)
        rcases h.accepted_token hc hacc with hown | hnil
        · exact Or.inl (htoken.symm.trans hown)
        · exact Or.inr ⟨htoken.symm.trans hnil, c, hc, hacc, hnil⟩
      · intro hown hres
        rcases hown htok hr (by rcases hres with hres | hres <;> omega) with
          hsame | ⟨hnil, c, hc, hacc, htoken⟩
        · obtain ⟨c, hc, hacc, htoken⟩ := h.accepted_of_ne htok
          exact ⟨c, hc, hacc, htoken.trans hsame.symm⟩
        · exact ⟨c, hc, hacc, htoken.trans hnil.symm⟩

theorem tokenInv_serve (s : Session) (q : Request)
    (h : TokenInv s.server.token s.calls) :
    TokenInv (serve s q).server.token (serve s q).calls :=
  tokenInv_parseRequest q.answer q.buf readBufSize (Nat.le_refl _) s.server
    s.calls h

/-- **Authentication over whole runs.**  Every honoured request of a run
carries an accepted token exactly when every complete request that arrives
while a token is cached carries that token. -/
theorem authenticated_run_iff (readBuf : Buf) (qs : List Request) :
    EveryStep serve Authenticated (Session.start readBuf) qs ↔
      EveryStep serve OwnToken (Session.start readBuf) qs :=
  everyStep_congr_of_inv (fun s => TokenInv s.server.token s.calls)
    tokenInv_serve authenticated_iff_ownToken _ qs
    (Or.inl ⟨rfl, by simp [Session.start]⟩)

/-- An oracle that knows the token of sixteen `A`s only. -/
def knowsA (tok : List UInt8) : Int :=
  if tok = List.replicate 16 'A'.toNat.toUInt8 then 1 else -1

/-- A client with the good token opens the session; a second client's token is
never looked at and its start request is honoured. -/
theorem not_authenticated_run :
    ¬∀ (readBuf : Buf) (qs : List Request),
      EveryStep serve Authenticated (Session.start readBuf) qs := by
  intro h
  have hrun := h (Vector.replicate readBufSize 0)
    [{ buf := frame 'S'.toNat.toUInt8 'A'.toNat.toUInt8, answer := knowsA },
      { buf := frame 'S'.toNat.toUInt8 'B'.toNat.toUInt8, answer := knowsA }]
  obtain ⟨c, hc, -, htoken⟩ := hrun.2.1 (by decide)
  revert c
  decide

end LidarPublisher.Udp.TokenCache
