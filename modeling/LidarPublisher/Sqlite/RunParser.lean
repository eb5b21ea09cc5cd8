import LidarPublisher.Sqlite.Extent

/-!
# The loop of `sqlite3RunParser`

The loop measures one token after the other and hands those that are no spaces
to the parser, until it meets the terminating NUL, the text is longer than the
limit, a token is not recognized, or the parser has set `rc`: for an error, or
because a `;` has completed the statement.  The parser is a parameter here; the
calls behind the loop, which end its input, are left out, and nobody calls
`sqlite3_interrupt`.
-/

namespace LidarPublisher.Sqlite.RunParser

open LidarPublisher.Lib.Bytes
open LidarPublisher.Sqlite.Lexer
open LidarPublisher.Sqlite.Extent

/-- A parser: its state at the start, a call of `sqlite3Parser`, and the test
`rc == SQLITE_OK && !mallocFailed`. -/
structure Parser (σ : Type*) where
  init : σ
  feed : σ → Token → σ
  ok : σ → Bool
  ok_init : ok init = true

/-- What ends the loop. -/
inductive Stop
  /-- `zSql[i]==0` -/
  | nul
  /-- `i>mxSqlLen` -/
  | tooBig
  /-- `tokenType==TK_ILLEGAL` -/
  | unrecognized
  /-- `pParse->rc!=SQLITE_OK || db->mallocFailed` -/
  | notOk
  deriving DecidableEq, Repr

/-- What the loop leaves: `sLastToken` in each of its rounds, the parser and
`zTail`. -/
structure Outcome (σ : Type*) where
  pieces : List Token
  parser : σ
  tail : List UInt8
  stop : Stop

variable {σ : Type*}

/-- The outcome with one more round before it. -/
def Outcome.after (t : Token) (o : Outcome σ) : Outcome σ :=
  { o with pieces := t :: o.pieces }

theorem ne_nil_of_byteAt {z : List UInt8} (h : byteAt z 0 ≠ 0) : z ≠ [] := by
  rintro rfl
  exact h rfl

/-- The loop from offset `i` on, where `z` is the rest of the text. -/
def loop (P : Parser σ) (mxSqlLen i : Nat) (p : σ) (z : List UInt8) :
    Outcome σ :=
  if _hnul : byteAt z 0 = 0 then
    { pieces := [], parser := p, tail := z, stop := .nul }
  else
    let t := lastToken z
    let rest := z.drop (getToken z).2
    let i := i + (getToken z).2
    if mxSqlLen < i then
      { pieces := [t], parser := p, tail := rest, stop := .tooBig }
    else if t.kind = .space then (loop P mxSqlLen i p rest).after t
    else if t.kind = .illegal then
      { pieces := [t], parser := p, tail := rest, stop := .unrecognized }
    else
      let p := P.feed p t
      if P.ok p then (loop P mxSqlLen i p rest).after t
      else { pieces := [t], parser := p, tail := rest, stop := .notOk }
  termination_by z.length
  decreasing_by
    all_goals exact length_drop_getToken_lt (ne_nil_of_byteAt ‹_›)

/-- The pieces that are looked at behind the test of the length. -/
def Outcome.handled (o : Outcome σ) : List Token :=
  if o.stop = .tooBig then o.pieces.dropLast else o.pieces

/-- The tokens handed to the parser. -/
def Outcome.fed (o : Outcome σ) : List Token :=
  o.handled.filter fun t => t.kind ≠ .space && t.kind ≠ .illegal

/-- The length of the pieces. -/
def Outcome.length (o : Outcome σ) : Nat :=
  (o.pieces.flatMap Token.text).length

/-- The token is what `sqlite3GetToken` finds at offset `i` of the text. -/
def MeasuredAt (z : List UInt8) (i : Nat) (t : Token) : Prop :=
  t = lastToken (z.drop i) ∧ Within (z.drop i) (getToken (z.drop i))

/-- What the loop does to the rest `z` of a text, at offset `i` and with the
parser in state `p`. -/
structure Covers (P : Parser σ) (mxSqlLen i : Nat) (p : σ) (z : List UInt8)
    (o : Outcome σ) : Prop where
  /-- The pieces are the text up to `zTail`. -/
  joined : o.pieces.flatMap Token.text ++ o.tail = z
  /-- Each is what `sqlite3GetToken` finds at its place, within the text. -/
  measured : ∀ before t after, o.pieces = before ++ t :: after →
    MeasuredAt z (before.flatMap Token.text).length t
  gaps : ∀ t ∈ o.pieces, t.kind = .space → Gap t.text
  parser : o.parser = o.fed.foldl P.feed p
  /-- They are the first tokens of the text, all of them if it is read through. -/
  first : o.fed <+: tokenize z
  all : o.stop = .nul → (0 : UInt8) ∉ z → o.fed = tokenize z
  nul : o.stop = .nul → byteAt o.tail 0 = 0
  tooBig : o.stop = .tooBig ↔ mxSqlLen < i + o.length
  unrecognized : o.stop = .unrecognized ↔ ∃ t ∈ o.handled, t.kind = .illegal
  notOk : o.stop = .notOk ↔ P.ok o.parser = false

/-! ## One round -/

variable {P : Parser σ} {mxSqlLen i : Nat} {p : σ} {z : List UInt8}
  {o : Outcome σ}

theorem length_lastToken (hne : z ≠ []) :
    (lastToken z).text.length = (getToken z).2 := by
  rw [lastToken, List.length_take]
  exact Nat.min_eq_left (getToken_within hne).le

/-- The first piece is measured at its place, and so are the others, behind it. -/
theorem measured_cons (hne : z ≠ []) {pieces : List Token}
    (h : ∀ before t after, pieces = before ++ t :: after →
      MeasuredAt (z.drop (getToken z).2) (before.flatMap Token.text).length t)
    (before : List Token) (t : Token) (after : List Token)
    (heq : lastToken z :: pieces = before ++ t :: after) :
    MeasuredAt z (before.flatMap Token.text).length t := by
  cases before with
  | nil =>
      rcases List.cons.inj heq with ⟨rfl, -⟩
      exact ⟨rfl, getToken_within hne⟩
  | cons first before =>
      rcases List.cons.inj heq with ⟨rfl, hrest⟩
      have hlater := h before t after hrest
      unfold MeasuredAt at hlater ⊢
      rw [List.drop_drop] at hlater
      rw [List.flatMap_cons, List.length_append, length_lastToken hne]
      exact hlater

theorem gap_lastToken (hne : z ≠ []) (hspace : (lastToken z).kind = .space) :
    Gap (lastToken z).text := gap_of_getToken hne hspace

/-- A round behind the end of which there is another one. -/
theorem handled_after (h : Covers P mxSqlLen i p z o) (hle : i ≤ mxSqlLen)
    (t : Token) : (o.after t).handled = t :: o.handled := by
  unfold Outcome.handled Outcome.after
  dsimp only
  by_cases hbig : o.stop = .tooBig
  · have hpieces : o.pieces ≠ [] := by
      intro hnil
      have hlt := h.tooBig.mp hbig
      rw [Outcome.length, hnil] at hlt
      exact absurd hlt (by simpa using hle)
    rw [if_pos hbig, if_pos hbig, List.dropLast_cons_of_ne_nil hpieces]
  · rw [if_neg hbig, if_neg hbig]

theorem length_after (t : Token) (o : Outcome σ) :
    (o.after t).length = t.text.length + o.length := by
  unfold Outcome.length Outcome.after
  rw [List.flatMap_cons, List.length_append]

/-- The loop goes on behind a space, and behind a token that the parser takes. -/
theorem Covers.after (hne : z ≠ []) (hle : i + (getToken z).2 ≤ mxSqlLen)
    (hlegal : (lastToken z).kind ≠ .illegal)
    (h : Covers P mxSqlLen (i + (getToken z).2)
      (if (lastToken z).kind = .space then p else P.feed p (lastToken z))
      (z.drop (getToken z).2) o) :
    Covers P mxSqlLen i p z (o.after (lastToken z)) := by
  have hhandled := handled_after h hle (lastToken z)
  have hfed : (o.after (lastToken z)).fed =
      if (lastToken z).kind = .space then o.fed else lastToken z :: o.fed := by
    unfold Outcome.fed
    rw [hhandled]
    by_cases hspace : (lastToken z).kind = .space
    · rw [if_pos hspace, List.filter_cons_of_neg (by simp [hspace])]
    · rw [if_neg hspace, List.filter_cons_of_pos (by simp [hspace, hlegal])]
  have htokens : tokenize z =
      if (lastToken z).kind = .space then tokenize (z.drop (getToken z).2)
      else lastToken z :: tokenize (z.drop (getToken z).2) := by
    rw [tokenize_of_ne_nil hne, if_neg hlegal]
  refine
    { joined := ?_, measured := ?_, gaps := ?_, parser := ?_, first := ?_
      all := ?_, nul := h.nul, tooBig := ?_, unrecognized := ?_
      notOk := h.notOk }
  · show ((lastToken z).text ++ o.pieces.flatMap Token.text) ++ o.tail = z
    rw [List.append_assoc, h.joined]
    exact List.take_append_drop _ z
  · exact measured_cons hne h.measured
  · intro t ht hspace
    rcases List.mem_cons.mp ht with rfl | hmem
    · exact gap_lastToken hne hspace
    · exact h.gaps t hmem hspace
  · show o.parser = _
    rw [hfed, h.parser]
    by_cases hspace : (lastToken z).kind = .space
    · rw [if_pos hspace, if_pos hspace]
    · rw [if_neg hspace, if_neg hspace, List.foldl_cons]
  · rw [hfed, htokens]
    by_cases hspace : (lastToken z).kind = .space
    · rw [if_pos hspace, if_pos hspace]
      exact h.first
    · rw [if_neg hspace, if_neg hspace]
      exact (List.prefix_cons_inj _).mpr h.first
  · intro hstop hnul
    rw [hfed, htokens, h.all hstop fun hmem => hnul (List.mem_of_mem_drop hmem)]
  · show o.stop = .tooBig ↔ _
    rw [h.tooBig, length_after, length_lastToken hne, Nat.add_assoc]
  · show o.stop = .unrecognized ↔ _
    rw [h.unrecognized, hhandled]
    simp [hlegal]

/-- The outcome of a round that ends the loop. -/
def endedBy (z : List UInt8) (q : σ) (stop : Stop) : Outcome σ :=
  { pieces := [lastToken z], parser := q, tail := z.drop (getToken z).2
    stop := stop }

end LidarPublisher.Sqlite.RunParser
