import LidarPublisher.Token.Repetition
import LidarPublisher.Udp.Isolation
import LidarPublisher.Udp.RequestGrammar

/-!
# Duplicate datagrams

The same datagram, received twice in a row while the clock stands still.  The
second copy finds both buffers as the first one left them, so it presents the
same token.  It is verified again only when the cached token is still empty:
after a refusal, or after an empty token has been accepted.  The query of the
second call may return other rows, but only when the token made another
statement of it.
-/

namespace LidarPublisher.Udp.Duplicate

open LidarPublisher.Lib.Bytes
open LidarPublisher.Sqlite.Lexer
open LidarPublisher.Sqlite.Execute
open LidarPublisher.Token.Clock
open LidarPublisher.Token.Query
open LidarPublisher.Token.VerifyToken
open LidarPublisher.Token.Acceptance
open LidarPublisher.Token.Repetition
open LidarPublisher.Udp.ParseRequest
open LidarPublisher.Udp.HandleReceive
open LidarPublisher.Udp.Isolation
open LidarPublisher.Udp.RequestGrammar (TokenField request)

/-! ## Asking twice -/

section Oracle

variable {ω τ : Type} (verifyToken verifyToken' : List UInt8 → ω → Int × ω)
  {view : ω → τ}

/-- What of the world is compared is settled by the first call: a refusal is
repeated, and then or for the empty token the second call changes nothing
more. -/
structure Repeats (view : ω → τ) (tok : List UInt8) (w : ω) : Prop where
  refused : (verifyToken tok w).1 = -1 →
    (verifyToken' tok (verifyToken tok w).2).1 = -1
  world : (verifyToken tok w).1 = -1 ∨ tok = [] →
    view (verifyToken' tok (verifyToken tok w).2).2 = view (verifyToken tok w).2

/-- A parse that finds the server in state `s'`, would give the answer `answer`
once more or refuse, and leaves everything as it is. -/
structure Settled (view : ω → τ) (answer : Int) (s' : Server) (w' : ω)
    (out : Int × Server × ω) : Prop where
  answer : out.1 = answer ∨ out.1 = -1
  readBuf : out.2.1.readBuf = s'.readBuf
  token : out.2.1.token = s'.token
  world : view out.2.2 = view w'

variable {buf : Buf} {s s' : Server}

/-- The server that a second copy meets has scanned the buffer already. -/
private theorem scanned_again
    (h : s'.readBuf = (scan21 buf s.readBuf).readBuf) :
    (s'.scanned buf readBufSize (Nat.le_refl _)).readBuf = s'.readBuf ∧
      presented21 buf s' = presented21 buf s := by
  have hscan : (scan21 buf s'.readBuf).readBuf = s'.readBuf := by
    rw [h, scan_scan]
  refine ⟨hscan, ?_⟩
  show extractToken (scan21 buf s'.readBuf).readBuf =
    extractToken (scan21 buf s.readBuf).readBuf
  rw [hscan, h]

/-- A second parse settles if the answer and the token are repeated wherever it
gets behind the verification. -/
private theorem settled_of_exit
    (h : s'.readBuf = (scan21 buf s.readBuf).readBuf) {answer : Int} {w' : ω}
    (hverified : (scan21 buf s.readBuf).r = true → s'.token = [] →
      (verifyToken (presented21 buf s) w').1 ≠ -1 →
        presented21 buf s = [] ∧ command s'.readBuf = answer)
    (hcached : (scan21 buf s.readBuf).r = true → s'.token ≠ [] →
      command s'.readBuf = answer)
    (hworld : (scan21 buf s.readBuf).r = true → s'.token = [] →
      view (verifyToken (presented21 buf s) w').2 = view w') :
    Settled view answer s' w' (parse21 verifyToken buf s' w') := by
  obtain ⟨hscan, hpres⟩ := scanned_again h
  rw [scan_r_congr buf s.readBuf s'.readBuf] at hverified hcached hworld
  rw [← hpres] at hverified hworld
  have hexit := parse21_exit verifyToken buf s' w'
  generalize parse21 verifyToken buf s' w' = out at hexit ⊢
  cases hexit with
  | noTerminator hr => exact ⟨Or.inr rfl, hscan, rfl, rfl⟩
  | refused hr htok hans => exact ⟨Or.inr rfl, hscan, rfl, hworld hr htok⟩
  | verified hr htok hans =>
      obtain ⟨hnil, hcommand⟩ := hverified hr htok hans
      refine ⟨Or.inl ?_, hscan, ?_, hworld hr htok⟩
      · rw [hscan, hcommand]
      · show presented21 buf s' = s'.token
        rw [hnil, htok]
  | cached hr htok =>
      refine ⟨Or.inl ?_, hscan, rfl, rfl⟩
      rw [hscan, hcached hr htok]

variable {verifyToken verifyToken'}

/-- **Parsing a buffer again settles nothing new.**  The second parse meets the
buffer and the token that the first one left. -/
theorem settled_parse21 {buf : Buf} {s t : Server} {w : ω}
    (hrep : (scan21 buf s.readBuf).r = true → s.token = [] →
      Repeats verifyToken verifyToken' view (presented21 buf s) w)
    (hreadBuf : t.readBuf = (parse21 verifyToken buf s w).2.1.readBuf)
    (htoken : t.token = (parse21 verifyToken buf s w).2.1.token) :
    Settled view (parse21 verifyToken buf s w).1 t
      (parse21 verifyToken buf s w).2.2
      (parse21 verifyToken' buf t (parse21 verifyToken buf s w).2.2) := by
  have hexit := parse21_exit verifyToken buf s w
  generalize parse21 verifyToken buf s w = out at hexit hreadBuf htoken ⊢
  cases hexit with
  | noTerminator hr =>
      have hnone : (scan21 buf s.readBuf).r ≠ true := by simp [hr]
      exact settled_of_exit verifyToken' hreadBuf (fun h => absurd h hnone)
        (fun h => absurd h hnone) (fun h => absurd h hnone)
  | refused hr htok hans =>
      have hagain := hrep hr htok
      exact settled_of_exit verifyToken' hreadBuf
        (fun _ _ hacc => absurd (hagain.refused hans) hacc)
        (fun _ hne => absurd (htoken.trans htok) hne)
        (fun _ _ => hagain.world (Or.inl hans))
  | verified hr htok hans =>
      -- verified again only if the token is empty, and then accepted once more
      exact settled_of_exit verifyToken' hreadBuf
        (fun _ hnil _ => ⟨htoken.symm.trans hnil, by rw [hreadBuf]⟩)
        (fun _ _ => by rw [hreadBuf])
        (fun _ hnil => (hrep hr htok).world (Or.inr (htoken.symm.trans hnil)))
  | cached hr htok =>
      exact settled_of_exit verifyToken' hreadBuf
        (fun _ hnil => absurd (htoken.symm.trans hnil) htok)
        (fun _ _ => by rw [hreadBuf])
        (fun _ hnil => absurd (htoken.symm.trans hnil) htok)

/-- A token that is refused first and accepted then opens the session. -/
theorem token_parse21_again {buf : Buf} {s t : Server} {w : ω}
    (hr : (scan21 buf s.readBuf).r = true) (htok : s.token = [])
    (hrefused : (verifyToken (presented21 buf s) w).1 = -1)
    (haccepted : (verifyToken' (presented21 buf s)
      (verifyToken (presented21 buf s) w).2).1 ≠ -1)
    (hreadBuf : t.readBuf = (parse21 verifyToken buf s w).2.1.readBuf)
    (htoken : t.token = (parse21 verifyToken buf s w).2.1.token) :
    (parse21 verifyToken buf s w).2.1.token = [] ∧
      (parse21 verifyToken' buf t (parse21 verifyToken buf s w).2.2).2.1.token =
        presented21 buf s := by
  have hexit := parse21_exit verifyToken buf s w
  generalize parse21 verifyToken buf s w = out at hexit hreadBuf htoken ⊢
  cases hexit with
  | noTerminator hr' => exact absurd hr (by simp [hr'])
  | verified hr' htok' hans => exact absurd hrefused hans
  | cached hr' htok' => exact absurd htok htok'
  | refused hr' htok' hans =>
      refine ⟨htok, ?_⟩
      obtain ⟨-, hpres⟩ := scanned_again hreadBuf
      rw [scan_r_congr buf s.readBuf t.readBuf] at hr
      have haccepted' : (verifyToken' (presented21 buf t)
          (verifyToken (presented21 buf s) w).2).1 ≠ -1 := by
        rw [hpres]
        exact haccepted
      refine Eq.trans ?_ hpres
      have hexit := parse21_exit verifyToken' buf t
        (verifyToken (presented21 buf s) w).2
      generalize parse21 verifyToken' buf t (verifyToken (presented21 buf s) w).2 =
        out at hexit ⊢
      cases hexit with
      | noTerminator hr' => exact absurd hr (by simp [hr'])
      | refused hr' htok' hant => exact absurd hant haccepted'
      | verified hr' htok' hant => rfl
      | cached hr' htok' => exact absurd (htoken.trans htok) htok'

/-! ## Handling a datagram again -/

variable (verifyToken)

/-- One datagram received without error. -/
def handle (d : Datagram) (n : Node) (w : ω) : Node × ω :=
  (complete verifyToken { datagram := d, error := .success } n w).2

/-- The state after a datagram, in terms of the parse. -/
theorem handle_eq (d : Datagram) (n : Node) (w : ω) :
    (handle verifyToken d n w).1.socket.readBuf = merged d n ∧
      (handle verifyToken d n w).1.server =
        { (parse21 verifyToken (merged d n) n.server w).2.1 with
          polling := pollingAfter
            (parse21 verifyToken (merged d n) n.server w).1 n.server.polling } ∧
      (handle verifyToken d n w).2 =
        (parse21 verifyToken (merged d n) n.server w).2.2 := by
  have hpolling : (parse21 verifyToken (merged d n) n.server w).2.1.polling =
      n.server.polling :=
    parseRequest_polling verifyToken (merged d n) readBufSize (Nat.le_refl _)
      n.server w
  unfold handle
  rw [complete_success, respond_eq, ← hpolling]
  exact ⟨rfl, rfl, rfl⟩

/-- Giving the same answer again, or refusing, does not move the polling
flag. -/
theorem pollingAfter_again {res res' : Int} (h : res' = res ∨ res' = -1)
    (polling : Bool) :
    pollingAfter res' (pollingAfter res polling) = pollingAfter res polling := by
  rcases h with rfl | rfl
  · unfold pollingAfter
    grind
  · rfl

variable {verifyToken}

/-- The second copy meets the socket buffer of the first. -/
theorem merged_handle (d : Datagram) (n : Node) (w : ω) :
    merged d (handle verifyToken d n w).1 = merged d n := by
  show overlay d.bytes d.fits (handle verifyToken d n w).1.socket.readBuf = _
  rw [(handle_eq verifyToken d n w).1]
  exact overlay_overlay d.bytes d.fits n.socket.readBuf

/-- A second copy leaves the buffers, the session and the view of the world as
the first one left them. -/
theorem handle_twice {d : Datagram} {n : Node} {w : ω}
    (hrep : (scan21 (merged d n) n.server.readBuf).r = true →
      n.server.token = [] →
        Repeats verifyToken verifyToken' view (presented21 (merged d n) n.server)
          w) :
    let once := handle verifyToken d n w
    let twice := handle verifyToken' d once.1 once.2
    twice.1.socket.readBuf = once.1.socket.readBuf ∧
      twice.1.server = once.1.server ∧ view twice.2 = view once.2 := by
  intro once twice
  obtain ⟨hsocket, hserver, hworld⟩ := handle_eq verifyToken d n w
  obtain ⟨hsocket', hserver', hworld'⟩ := handle_eq verifyToken' d once.1 once.2
  have hmerged : merged d once.1 = merged d n := merged_handle d n w
  have hsettled := settled_parse21 (t := once.1.server) hrep (by rw [hserver])
    (by rw [hserver])
  have hpolling : once.1.server.polling = pollingAfter
      (parse21 verifyToken (merged d n) n.server w).1 n.server.polling := by
    rw [hserver]
  rw [← hworld] at hsettled
  rw [hmerged] at hserver' hworld'
  refine ⟨by rw [hsocket', hmerged, hsocket], ?_, ?_⟩
  · rw [hserver']
    dsimp only
    rw [show once.2 = (handle verifyToken d n w).2 from rfl, hsettled.readBuf,
      hsettled.token, hpolling, pollingAfter_again hsettled.answer, ← hpolling]
  · rw [hworld']
    exact hsettled.world

/-- A token that is refused first and accepted then makes a difference. -/
theorem token_handle_twice {d : Datagram} {n : Node} {w : ω}
    (hr : (scan21 (merged d n) n.server.readBuf).r = true)
    (htok : n.server.token = [])
    (hrefused : (verifyToken (presented21 (merged d n) n.server) w).1 = -1)
    (haccepted : (verifyToken' (presented21 (merged d n) n.server)
      (verifyToken (presented21 (merged d n) n.server) w).2).1 ≠ -1) :
    let once := handle verifyToken d n w
    let twice := handle verifyToken' d once.1 once.2
    once.1.server.token = [] ∧
      twice.1.server.token = presented21 (merged d n) n.server := by
  intro once twice
  obtain ⟨-, hserver, hworld⟩ := handle_eq verifyToken d n w
  obtain ⟨-, hserver', -⟩ := handle_eq verifyToken' d once.1 once.2
  rw [show merged d once.1 = merged d n from merged_handle d n w] at hserver'
  rcases token_parse21_again (t := once.1.server) hr htok hrefused haccepted
    (by rw [hserver]) (by rw [hserver]) with ⟨honce, htwice⟩
  rw [← hworld] at htwice
  exact ⟨by rw [hserver]; exact honce, by rw [hserver']; exact htwice⟩

end Oracle

/-! ## The database as the oracle -/

/-- The token makes another statement of the query, which SQLite compiles, and
which returns no row the first time and one the second time. -/
structure Wavers (e : Engine) (now : LocalTime) (token : List UInt8)
    (table : Table) (rows rows' : OtherRows) : Prop where
  other : parse (selectQuery token (strftime now.toTm)) =
    .other (selectQuery token (strftime now.toTm))
  compiles : e.compiles (selectQuery token (strftime now.toTm)) = true
  first : rows (selectQuery token (strftime now.toTm)) table = []
  second : rows' (selectQuery token (strftime now.toTm)) table ≠ []

/-- A token without a double quote is read as a literal. -/
theorem not_wavers_of_plain {token : List UInt8} (hq : dquote ∉ token)
    (h0 : (0 : UInt8) ∉ token) (e : Engine) (now : LocalTime) (table : Table)
    (rows rows' : OtherRows) : ¬Wavers e now token table rows rows' := by
  intro h
  have hother := h.other
  rw [parse_selectQuery hq h0] at hother
  exact absurd hother (by simp)

/-- With all SQLite calls succeeding a token is refused when its query is not
compiled or returns no row. -/
theorem refused_real_iff (e : Engine) (now later : LocalTime)
    (token : List UInt8) (db : Db) :
    (verifyToken (Calls.real e) now later token db).1 = -1 ↔
      (parse (selectQuery token (strftime now.toTm))).compiles e = true →
        (parse (selectQuery token (strftime now.toTm))).rows e db.table = [] := by
  rw [verifyToken_eq_neg_one_iff, Calls.real, target_faulty, found_faulty]
  simp only [Faults.none, delivered, true_and, and_true]
  split
  · next hcompiles =>
      rw [List.getLast?_eq_none_iff]
      exact ⟨fun h _ => h, fun h => h hcompiles⟩
  · next hcompiles => exact iff_of_true rfl fun h => absurd h hcompiles

/-- A query that does not waver is answered twice in the same way. -/
theorem repeats_of_not_wavers {e : Engine} {now : LocalTime}
    {token : List UInt8} {db : Db} {rows rows' : OtherRows}
    (h : ¬Wavers e now token db.table rows rows') :
    Repeats (verifyToken (Calls.real (e.returning rows)) now now)
      (verifyToken (Calls.real (e.returning rows')) now now) Db.table token
      db := by
  have hrefused : (verifyToken (Calls.real (e.returning rows)) now now token
      db).1 = -1 → (verifyToken (Calls.real (e.returning rows')) now now token
        (verifyToken (Calls.real (e.returning rows)) now now token db).2).1 =
          -1 := by
    intro hfirst
    rw [refused_real_iff, table_of_refused hfirst]
    rw [refused_real_iff] at hfirst
    rw [Statement.compiles_returning] at hfirst ⊢
    intro hcompiles
    have hnone := hfirst hcompiles
    rcases parse_selectQuery_cases token (strftime now.toTm) with
      ⟨x, y, hparse⟩ | hparse
    · rw [hparse, Statement.rows_returning] at hnone ⊢
      exact hnone
    · rw [hparse] at hcompiles hnone ⊢
      by_contra hsome
      exact h ⟨hparse, hcompiles, hnone, hsome⟩
  refine { refused := hrefused, world := ?_ }
  rintro (hfirst | rfl)
  · exact table_of_refused (hrefused hfirst)
  · exact table_verifyToken_twice [] List.not_mem_nil List.not_mem_nil
      (by decide) _ _ now db

/-- A query that wavers is refused first and accepted then. -/
theorem Wavers.differs {e : Engine} {now : LocalTime} {token : List UInt8}
    {db : Db} {rows rows' : OtherRows}
    (h : Wavers e now token db.table rows rows') :
    (verifyToken (Calls.real (e.returning rows)) now now token db).1 = -1 ∧
      (verifyToken (Calls.real (e.returning rows')) now now token
        (verifyToken (Calls.real (e.returning rows)) now now token db).2).1 ≠
          -1 := by
  have hrefused : (verifyToken (Calls.real (e.returning rows)) now now token
      db).1 = -1 := by
    rw [refused_real_iff, h.other]
    exact fun _ => h.first
  refine ⟨hrefused, ?_⟩
  rw [ne_eq, refused_real_iff, table_of_refused hrefused, h.other]
  exact fun hnone => h.second (hnone h.compiles)

/-- **Duplicates.**  With a clock that stands still and all SQLite calls
succeeding, receiving a datagram twice leaves the buffers, the session and the
table as receiving it once does, exactly unless the token is verified and its
query wavers. -/
theorem duplicate_harmless_iff (e : Engine) (now : LocalTime) (d : Datagram)
    (n : Node) (db : Db) (rows rows' : OtherRows) :
    (let once := handle
        (verifyToken (Calls.real (e.returning rows)) now now) d n db
      let twice := handle
        (verifyToken (Calls.real (e.returning rows')) now now) d once.1 once.2
      twice.1.socket.readBuf = once.1.socket.readBuf ∧
        twice.1.server = once.1.server ∧ twice.2.table = once.2.table) ↔
      ((scan21 (merged d n) n.server.readBuf).r = true → n.server.token = [] →
        ¬Wavers e now (presented21 (merged d n) n.server) db.table rows
          rows') := by
  constructor
  · rintro ⟨-, hserver, -⟩ hr htok hwavers
    rcases hwavers.differs with ⟨hrefused, haccepted⟩
    rcases token_handle_twice hr htok hrefused haccepted with ⟨honce, htwice⟩
    rw [hserver, honce] at htwice
    -- an empty token does not make another statement of the query
    refine not_wavers_of_plain List.not_mem_nil List.not_mem_nil e now db.table
      rows rows' ?_
    rw [htwice]
    exact hwavers
  · intro h
    exact handle_twice fun hr htok => repeats_of_not_wavers (h hr htok)

/-- A token that makes the condition `token="" or random()>0`. -/
def randomField : TokenField where
  bytes := ascii "\"or random()>0--"
  length_eq := by decide
  noNul := by decide
  noTerminator k h := by
    have hcr : carriageReturn ∈ ascii "\"or random()>0--" :=
      List.mem_of_mem_take h.2.1
    exact absurd hcr (by decide)

/-- No row is selected for the first copy of a start request, and one for the
second. -/
theorem not_duplicate_harmless :
    ¬∀ (e : Engine) (now : LocalTime) (d : Datagram) (n : Node) (db : Db)
        (rows rows' : OtherRows),
      let once := handle
        (verifyToken (Calls.real (e.returning rows)) now now) d n db
      let twice := handle
        (verifyToken (Calls.real (e.returning rows')) now now) d once.1 once.2
      twice.1.socket.readBuf = once.1.socket.readBuf ∧
        twice.1.server = once.1.server ∧ twice.2.table = once.2.table := by
  intro h
  have hserver := (h { Engine.plain with compiles := fun _ => true } noon
    (.full (request .start randomField)) (Node.init (Vector.replicate readBufSize 0))
    { table := sixteenAsTable, handles := [] } (fun _ _ => [])
    (fun _ table => table.map Row.userId)).2.1
  have htoken := congrArg Server.token hserver
  revert htoken
  decide +kernel

end LidarPublisher.Udp.Duplicate
