import LidarPublisher.Sqlite.Lexer

/-!
# Statements on the `tokens` table

What SQLite does with the two statements the server prints.  A double-quoted
word names a column when it matches one and is a text otherwise
(`lookupName`); texts compare bytewise; a text meets an integer column under
numeric affinity, which is a parameter of the engine, as is the reading of every
other statement.
-/

namespace LidarPublisher.Sqlite.Execute

open LidarPublisher.Lib.Bytes
open LidarPublisher.Lib.Decimal
open LidarPublisher.Sqlite.Lexer

/-- A row of `tokens`. -/
structure Row where
  rowid : Int64
  token : List UInt8
  userId : Int64
  expiration : List UInt8
  deriving DecidableEq, Repr

/-- The table, in scan order. -/
abbrev Table := List Row

/-! ## Name resolution -/

inductive Column
  | token | userId | expiration | rowid
  deriving DecidableEq, Repr

/-- `sqlite3StrICmp(a, b) == 0`. -/
def strIEq (a b : List UInt8) : Bool := a.map toLower = b.map toLower

/-- The column a word names: one of the table, or else the row identifier under
one of its three names. -/
def lookupColumn (word : List UInt8) : Option Column :=
  if strIEq word (ascii "token") then some .token
  else if strIEq word (ascii "userId") then some .userId
  else if strIEq word (ascii "expiration") then some .expiration
  else if strIEq word (ascii "_rowid_") || strIEq word (ascii "rowid") ||
      strIEq word (ascii "oid") then some .rowid
  else none

inductive Operand
  | column (c : Column)
  | literal (text : List UInt8)
  deriving DecidableEq, Repr

/-- `lookupName` on a double-quoted word. -/
def lookupName (word : List UInt8) : Operand :=
  match lookupColumn word with
  | some c => .column c
  | none => .literal word

/-! ## Parsing -/

inductive Statement
  /-- `select userId from tokens where token = x and expiration > y` -/
  | select (x y : Operand)
  /-- `update tokens set expiration = "buffer" where userId = uid` -/
  | update (buffer : List UInt8) (uid : Int)
  | other (text : List UInt8)
  deriving DecidableEq, Repr

def keyword (s : String) : Token := { kind := .keyword, text := ascii s }

def name (s : String) : Token := { kind := .id, text := ascii s }

def equals : Token := { kind := .eq, text := ascii "=" }

/-- A text between double quotes. -/
def quoted (s : List UInt8) : List UInt8 := dquote :: (s ++ [dquote])

/-- The tokens of `select userId from tokens where token=`. -/
def selectHead : List Token :=
  [keyword "select", name "userId", keyword "from", name "tokens",
    keyword "where", name "token", equals]

/-- The tokens of ` and expiration>`. -/
def selectMiddle : List Token :=
  [keyword "and", name "expiration", { kind := .gt, text := ascii ">" }]

/-- The token sequence the first statement is meant to have. -/
def selectTokens (q1 q2 : List UInt8) : List Token :=
  selectHead ++ { kind := .id, text := q1 } ::
    (selectMiddle ++ [{ kind := .id, text := q2 }])

/-- The tokens of `update tokens set expiration=`. -/
def updateHead : List Token :=
  [keyword "update", name "tokens", keyword "set", name "expiration", equals]

/-- The tokens of ` where userId=`. -/
def updateMiddle : List Token := [keyword "where", name "userId", equals]

/-- The tokens of an integer literal with an optional sign. -/
def intTokens (neg : Bool) (ds : List UInt8) : List Token :=
  (if neg then [{ kind := .minus, text := ascii "-" }] else []) ++
    [{ kind := .integer, text := ds }]

/-- The token sequence of the second statement. -/
def updateTokens (q : List UInt8) (neg : Bool) (ds : List UInt8) : List Token :=
  updateHead ++ { kind := .id, text := q } ::
    (updateMiddle ++ intTokens neg ds)

def textAt (ts : List Token) (i : Nat) : List UInt8 :=
  (ts[i]?.map Token.text).getD []

/-- A double-quoted word. -/
def isDoubleQuoted (q : List UInt8) : Bool := q.head? = some dquote

/-- The value of an optionally signed integer literal. -/
def intValue (neg : Bool) (ds : List UInt8) : Int :=
  if neg then -numeral ds else numeral ds

/-- The two statements, recognised by their tokens. -/
def parse (text : List UInt8) : Statement :=
  let ts := tokenize text
  let x := textAt ts 7
  let y := textAt ts 11
  let buffer := textAt ts 5
  let neg := decide (ts.length = 11)
  let ds := textAt ts (if neg then 10 else 9)
  if ts = selectTokens x y ∧ isDoubleQuoted x ∧ isDoubleQuoted y then
    .select (lookupName (dequote x)) (lookupName (dequote y))
  else if ts = updateTokens buffer neg ds ∧ isDoubleQuoted buffer ∧
      lookupColumn (dequote buffer) = none ∧ ds.all isDigit ∧
      numeral ds < 2 ^ 63 then
    .update (dequote buffer) (intValue neg ds)
  else .other text

/-! ## Execution -/

/-- The first bytes a numeric text can have. -/
def isNumberStart (c : UInt8) : Bool :=
  isSpace c || isDigit c || c = 0x2b || c = 0x2d || c = 0x2e

/-- The rows of statements other than the two. -/
abbrev OtherRows := List UInt8 → Table → List Int64

/-- The parts of SQLite that are not spelled out: the comparison of a text with
an integer column, and everything about statements other than the two.  A text
that does not start like a number stays a text (`sqlite3AtoF`), and every
integer is below every text. -/
structure Engine where
  compareNumeric : List UInt8 → Int64 → Ordering
  compareNumeric_text : ∀ c s i, isNumberStart c = false →
    compareNumeric (c :: s) i = .gt
  compiles : List UInt8 → Bool
  rows : OtherRows

/-- The engine during one execution: another statement may call `random()`, say,
and return other rows the next time. -/
def Engine.returning (e : Engine) (rows : OtherRows) : Engine :=
  { e with rows := rows }

/-- An engine that knows integer texts and compiles nothing else. -/
def Engine.plain : Engine where
  compareNumeric s i :=
    if s ≠ [] ∧ s.all isDigit then compare (numeral s : Int) i.toInt else .gt
  compareNumeric_text := by
    intro c s i hc
    have hdigit : isDigit c = false := by
      simp only [isNumberStart, Bool.or_eq_false_iff] at hc
      exact hc.1.1.1.2
    simp [hdigit]
  compiles _ := false
  rows _ _ := []

/-- `token = x` on a row. -/
def tokenEquals (e : Engine) (r : Row) : Operand → Bool
  | .literal text => r.token = text
  | .column .token => true
  | .column .expiration => r.token = r.expiration
  | .column .userId => e.compareNumeric r.token r.userId = .eq
  | .column .rowid => e.compareNumeric r.token r.rowid = .eq

/-- `expiration > y` on a row. -/
def expirationAbove (e : Engine) (r : Row) : Operand → Bool
  | .literal text => text < r.expiration
  | .column .token => r.token < r.expiration
  | .column .expiration => false
  | .column .userId => e.compareNumeric r.expiration r.userId = .gt
  | .column .rowid => e.compareNumeric r.expiration r.rowid = .gt

/-- The first column of the rows a statement returns. -/
def Statement.rows (e : Engine) (t : Table) : Statement → List Int64
  | .select x y =>
      (t.filter fun r => tokenEquals e r x && expirationAbove e r y).map
        Row.userId
  | .update _ _ => []
  | .other text => e.rows text t

/-- `set expiration=` on the rows of one user. -/
def setExpiration (buffer : List UInt8) (uid : Int) (t : Table) : Table :=
  t.map fun r =>
    if r.userId.toInt = uid then { r with expiration := buffer } else r

/-- The update writes nothing new exactly when the rows of the user carry the
text already. -/
theorem setExpiration_eq_self_iff (buffer : List UInt8) (uid : Int)
    (t : Table) :
    setExpiration buffer uid t = t ↔
      ∀ r ∈ t, r.userId.toInt = uid → r.expiration = buffer := by
  induction t with
  | nil => simp [setExpiration]
  | cons r t ih =>
      show (if r.userId.toInt = uid then { r with expiration := buffer } else r) ::
        setExpiration buffer uid t = r :: t ↔ _
      rw [List.cons.injEq, ih, List.forall_mem_cons]
      apply and_congr_left'
      by_cases h : r.userId.toInt = uid
      · rw [if_pos h]
        constructor
        · intro heq _
          rw [← heq]
        · intro hexp
          rw [← hexp h]
      · rw [if_neg h]
        exact iff_of_true rfl fun heq => absurd heq h

/-- The table after a statement; only the update writes. -/
def Statement.apply (t : Table) : Statement → Table
  | .update buffer uid => setExpiration buffer uid t
  | .select _ _ => t
  | .other _ => t

/-- The row is one of those the statement writes. -/
def Statement.Writes (r : Row) (s : Statement) : Prop :=
  ∃ buffer, s = .update buffer r.userId.toInt

def Statement.compiles (e : Engine) : Statement → Bool
  | .other text => e.compiles text
  | .select _ _ => true
  | .update _ _ => true

/-- Whether a statement compiles is the same in all executions. -/
@[simp] theorem Statement.compiles_returning (e : Engine) (rows : OtherRows)
    (s : Statement) : s.compiles (e.returning rows) = s.compiles e := by
  cases s <;> rfl

/-- The intended query returns the same rows in all executions. -/
theorem Statement.rows_returning (e : Engine) (rows : OtherRows) (t : Table)
    (x y : Operand) :
    (Statement.select x y).rows (e.returning rows) t =
      (Statement.select x y).rows e t := by
  have htoken : tokenEquals (e.returning rows) = tokenEquals e := by
    funext r x
    cases x with
    | literal text => rfl
    | column c => cases c <;> rfl
  have hexpiration : expirationAbove (e.returning rows) = expirationAbove e := by
    funext r y
    cases y with
    | literal text => rfl
    | column c => cases c <;> rfl
  unfold Statement.rows
  rw [htoken, hexpiration]

theorem parse_of_selectTokens {text q1 q2 : List UInt8}
    (h : tokenize text = selectTokens (quoted q1) (quoted q2))
    (hq1 : dquote ∉ q1) (hq2 : dquote ∉ q2) :
    parse text = .select (lookupName q1) (lookupName q2) := by
  unfold parse
  rw [h]
  have hx : textAt (selectTokens (quoted q1) (quoted q2)) 7 = quoted q1 := rfl
  have hy : textAt (selectTokens (quoted q1) (quoted q2)) 11 = quoted q2 := rfl
  simp only [hx, hy]
  rw [if_pos ⟨trivial, rfl, rfl⟩, quoted, quoted, dequote_quoted hq1,
    dequote_quoted hq2]

/-- The two token sequences differ in their first word. -/
theorem updateTokens_ne_selectTokens (q1 q2 q ds : List UInt8) (neg : Bool) :
    updateTokens q neg ds ≠ selectTokens q1 q2 := by
  intro h
  have hhead : some (keyword "update") = some (keyword "select") :=
    congrArg List.head? h
  exact absurd hhead (by decide)

theorem parse_of_updateTokens {text q ds : List UInt8} {neg : Bool}
    (h : tokenize text = updateTokens (quoted q) neg ds) (hq : dquote ∉ q)
    (hcol : lookupColumn q = none) (hds : ds.all isDigit = true)
    (hrange : numeral ds < 2 ^ 63) :
    parse text = .update q (intValue neg ds) := by
  unfold parse
  rw [h]
  have hbuffer : textAt (updateTokens (quoted q) neg ds) 5 = quoted q := by
    cases neg <;> rfl
  have hlen : decide ((updateTokens (quoted q) neg ds).length = 11) = neg := by
    cases neg <;> rfl
  have hdigits : textAt (updateTokens (quoted q) neg ds)
      (if neg then 10 else 9) = ds := by
    cases neg <;> rfl
  simp only [hbuffer, hlen, hdigits]
  rw [if_neg fun hsel => updateTokens_ne_selectTokens _ _ _ _ _ hsel.1]
  have hdequote : dequote (quoted q) = q := dequote_quoted hq
  rw [hdequote, if_pos ⟨trivial, rfl, hcol, hds, hrange⟩]

/-- A word that starts with a digit names no column. -/
theorem lookupColumn_of_isDigit {c : UInt8} {s : List UInt8}
    (hc : isDigit c = true) : lookupColumn (c :: s) = none := by
  have hrange := (isDigit_iff c).mp hc
  have hlow : toLower c = c := by
    unfold toLower
    rw [if_neg]
    simp only [Bool.and_eq_true, decide_eq_true_eq, UInt8.le_iff_toNat_le]
    intro h
    rcases h with ⟨h, -⟩
    have h65 : (0x41 : UInt8).toNat = 65 := rfl
    omega
  have hne : ∀ d : UInt8, 58 ≤ d.toNat → c ≠ d := by
    rintro d hd rfl
    omega
  unfold lookupColumn strIEq
  simp only [List.map_cons, hlow]
  simp [ascii, hne, toLower]

end LidarPublisher.Sqlite.Execute
