import LidarPublisher.Token.VerifyToken

/-!
# Which tokens are accepted

`verifyToken` on the engine of `Sqlite.Execute`, any of whose calls may fail.
With no failure it accepts exactly the tokens of unexpired rows, provided that
the presented token is not taken for a column of the table.
-/

namespace LidarPublisher.Token.Acceptance

open LidarPublisher.Lib.Bytes
open LidarPublisher.Lib.Decimal
open LidarPublisher.Sqlite.Lexer
open LidarPublisher.Sqlite.Ledger
open LidarPublisher.Sqlite.Execute
open LidarPublisher.Token.Clock
open LidarPublisher.Token.Query
open LidarPublisher.Token.VerifyToken

/-! ## The engine's calls -/

/-- Which SQLite calls of one invocation fail.  The select may end with an error
after some rows; a failing update writes nothing. -/
structure Faults where
  openError : Bool
  prepareError : Bool
  stepError : Option Nat
  renewError : Bool
  updateError : Bool
  deriving DecidableEq, Repr

def Faults.none : Faults :=
  { openError := false, prepareError := false, stepError := .none
    renewError := false, updateError := false }

/-- The rows a select with fault `n` still delivers. -/
def delivered (n : Option Nat) (rows : List Int64) : List Int64 :=
  match n with
  | .none => rows
  | .some n => rows.take n

/-- The calls of an engine under faults. -/
def Calls.faulty (e : Engine) (f : Faults) : Calls where
  openOk := !f.openError
  prepareSelect text := !f.prepareError && (parse text).compiles e
  stepSelect text table :=
    (delivered f.stepError ((parse text).rows e table)).map .row ++
      [if f.stepError = .none then .done else .error]
  prepareUpdate text := !f.renewError && (parse text).compiles e
  stepUpdate text table :=
    if f.updateError then (.error, table)
    else (.done, (parse text).apply table)

/-- All calls succeed. -/
def Calls.real (e : Engine) : Calls := Calls.faulty e .none

private theorem leadingRows_map_append (rows : List Int64) {r : StepResult}
    (hr : leadingRows [r] = []) :
    leadingRows (rows.map .row ++ [r]) = rows := by
  induction rows with
  | nil => exact hr
  | cons v rows ih => simp [leadingRows, ih]

/-- The rows found are those of the parsed statement, up to the fault. -/
theorem found_faulty (e : Engine) (f : Faults) (now : LocalTime)
    (token : List UInt8) (table : Table) :
    (Calls.faulty e f).found now token table =
      delivered f.stepError
        ((parse (selectQuery token (strftime now.toTm))).rows e table) := by
  unfold Calls.found Calls.faulty
  apply leadingRows_map_append
  split <;> rfl

theorem prepareUpdate_faulty (e : Engine) (f : Faults) (later : LocalTime)
    (column0 : Int64) :
    (Calls.faulty e f).prepareUpdate (renewQuery later column0) =
      !f.renewError := by
  simp [Calls.faulty, renewQuery, parse_updateQuery, Statement.compiles]

/-- The update sets the expiration of the rows whose user is the low 32 bits of
the row found. -/
theorem stepUpdate_faulty (e : Engine) (f : Faults) (later : LocalTime)
    (column0 : Int64) (table : Table) :
    ((Calls.faulty e f).stepUpdate (renewQuery later column0) table).2 =
      if f.updateError then table
      else setExpiration (strftime (renew later.toTm)) column0.toInt32.toInt
        table := by
  unfold Calls.faulty renewQuery
  dsimp only
  split
  · rfl
  · rw [parse_updateQuery]
    rfl

/-- The row a call would renew, whether or not the write succeeds. -/
theorem target_faulty (e : Engine) (f : Faults) (now later : LocalTime)
    (token : List UInt8) (table : Table) :
    (Calls.faulty e f).target now later token table =
      if f.openError = false ∧ f.prepareError = false ∧
          (parse (selectQuery token (strftime now.toTm))).compiles e = true ∧
          f.renewError = false then
        ((Calls.faulty e f).found now token table).getLast?
      else none := by
  have hcalls : ((Calls.faulty e f).openOk = true ∧
      (Calls.faulty e f).prepareSelect
        (selectQuery token (strftime now.toTm)) = true) ↔
      f.openError = false ∧ f.prepareError = false ∧
        (parse (selectQuery token (strftime now.toTm))).compiles e = true := by
    simp [Calls.faulty]
  unfold Calls.target
  simp only [hcalls, prepareUpdate_faulty]
  cases hrenew : f.renewError with
  | true => simp
  | false =>
      cases ((Calls.faulty e f).found now token table).getLast? with
      | none => simp
      | some column0 => simp [Option.filter_some]

theorem tableAfter_faulty (e : Engine) (f : Faults) (later : LocalTime)
    (table : Table) (column0 : Int64) :
    (Calls.faulty e f).tableAfter later table (some column0) =
      if f.updateError then table
      else setExpiration (strftime (renew later.toTm)) column0.toInt32.toInt
        table :=
  stepUpdate_faulty e f later column0 table

/-! ## The table after a call -/

/-- The call gets as far as writing an expiration, for the user in `column0`:
the last row that the token query returns. -/
structure Renews (e : Engine) (f : Faults) (now : LocalTime)
    (token : List UInt8) (table : Table) (column0 : Int64) : Prop where
  opened : f.openError = false
  prepared : f.prepareError = false
  compiles : (parse (selectQuery token (strftime now.toTm))).compiles e = true
  last : ((Calls.faulty e f).found now token table).getLast? = some column0
  prepared' : f.renewError = false
  written : f.updateError = false

/-- The table after a call: unchanged, or renewed for one user. -/
inductive TableAfter (e : Engine) (f : Faults) (now later : LocalTime)
    (token : List UInt8) (table : Table) : Table → Prop
  | unchanged (hnone : ∀ column0, ¬Renews e f now token table column0) :
      TableAfter e f now later token table table
  | renewed (column0 : Int64) (hrenews : Renews e f now token table column0) :
      TableAfter e f now later token table
        (setExpiration (strftime (renew later.toTm)) column0.toInt32.toInt table)

/-- Renewing is having a row to renew and a step that succeeds. -/
theorem renews_iff (e : Engine) (f : Faults) (now later : LocalTime)
    (token : List UInt8) (table : Table) (column0 : Int64) :
    Renews e f now token table column0 ↔
      (Calls.faulty e f).target now later token table = some column0 ∧
        f.updateError = false := by
  rw [target_faulty]
  constructor
  · intro h
    rw [if_pos ⟨h.opened, h.prepared, h.compiles, h.prepared'⟩]
    exact ⟨h.last, h.written⟩
  · intro h
    rcases h with ⟨htarget, hwritten⟩
    split at htarget
    · next hcalls =>
        exact
          { opened := hcalls.1
            prepared := hcalls.2.1
            compiles := hcalls.2.2.1
            last := htarget
            prepared' := hcalls.2.2.2
            written := hwritten }
    · exact absurd htarget (by simp)

theorem tableAfter_verifyToken (e : Engine) (f : Faults)
    (now later : LocalTime) (token : List UInt8) (db : Db) :
    TableAfter e f now later token db.table
      (verifyToken (Calls.faulty e f) now later token db).2.table := by
  have hrenews := renews_iff e f now later token db.table
  rw [(verifyToken_code_table (Calls.faulty e f) now later token db).2]
  cases htarget : (Calls.faulty e f).target now later token db.table with
  | none =>
      exact .unchanged fun column0 h => by
        simpa [htarget] using (hrenews column0).mp h
  | some column0 =>
      rw [tableAfter_faulty]
      cases hupdate : f.updateError with
      | true =>
          exact .unchanged fun column0' h => by
            simpa [hupdate] using (hrenews column0').mp h
      | false => exact .renewed column0 ((hrenews column0).mpr ⟨htarget, hupdate⟩)

/-- The table after a call that renews the user in `column0`. -/
theorem table_of_renews {e : Engine} {f : Faults} {now : LocalTime}
    (later : LocalTime) {token : List UInt8} {db : Db} {column0 : Int64}
    (h : Renews e f now token db.table column0) :
    (verifyToken (Calls.faulty e f) now later token db).2.table =
      setExpiration (strftime (renew later.toTm)) column0.toInt32.toInt
        db.table := by
  rcases (renews_iff e f now later token db.table column0).mp h with
    ⟨htarget, hwritten⟩
  rw [(verifyToken_code_table _ now later token db).2, htarget,
    tableAfter_faulty, if_neg (by simp [hwritten])]

theorem getElem?_setExpiration (buffer : List UInt8) (uid : Int) (t : Table)
    (i : Nat) :
    (setExpiration buffer uid t)[i]? = t[i]?.map fun r =>
      if r.userId.toInt = uid then { r with expiration := buffer } else r := by
  rw [setExpiration, List.getElem?_map]

/-! ## Acceptance -/

/-- The rows the token condition selects, by the value of the operand. -/
def matching (e : Engine) (now : LocalTime) (x : Operand) (table : Table) :
    Table :=
  table.filter fun r =>
    tokenEquals e r x && expirationAbove e r (.literal (strftime now.toTm))

/-- Without failures the row renewed is the last one that the operand of the
token matches. -/
theorem target_real {token : List UInt8} (hq : dquote ∉ token)
    (h0 : (0 : UInt8) ∉ token) (e : Engine) (now later : LocalTime)
    (table : Table) :
    (Calls.real e).target now later token table =
      ((matching e now (lookupName token) table).map Row.userId).getLast? := by
  rw [Calls.real, target_faulty, found_faulty, parse_selectQuery hq h0]
  rfl

/-- With no failing call the code is 1 exactly when the query finds a row. -/
theorem verifyToken_real_code {token : CToken} (hq : dquote ∉ token.bytes)
    (e : Engine) (now later : LocalTime) (db : Db) :
    (verifyToken (Calls.real e) now later token.bytes db).1 =
      if matching e now (lookupName token.bytes) db.table = [] then -1
      else 1 := by
  rw [(verifyToken_code_table _ now later token.bytes db).1,
    target_real hq token.noNul]
  by_cases hnil : matching e now (lookupName token.bytes) db.table = []
  · rw [if_pos hnil, hnil]
    rfl
  · rw [if_neg hnil, if_pos]
    rw [List.getLast?_isSome, ne_eq, List.map_eq_nil_iff]
    exact hnil

/-- Some row holds the presented token and is unexpired. -/
def Accepts (token : List UInt8) (now : LocalTime) (table : Table) : Prop :=
  ∃ r ∈ table, r.token = token ∧ strftime now.toTm < r.expiration

instance (token : List UInt8) (now : LocalTime) (table : Table) :
    Decidable (Accepts token now table) :=
  inferInstanceAs (Decidable (∃ r ∈ table, _))

/-- As a literal the token selects the rows that hold it. -/
theorem matching_literal_eq_nil_iff (e : Engine) (now : LocalTime)
    (token : List UInt8) (table : Table) :
    matching e now (.literal token) table = [] ↔ ¬Accepts token now table := by
  simp only [matching, List.filter_eq_nil_iff, tokenEquals, expirationAbove,
    Bool.and_eq_true, decide_eq_true_eq, Accepts, not_exists, not_and]

/-- A call that accepts a token read as a literal leaves an unexpired row of it
in the table, whatever calls fail on the way. -/
theorem accepts_of_accepted {token : CToken} (hq : dquote ∉ token.bytes)
    (hcol : lookupColumn token.bytes = none) (e : Engine) (f : Faults)
    {now later : LocalTime} (hle : now ≤ later) (db : Db)
    (hcode : (verifyToken (Calls.faulty e f) now later token.bytes db).1 ≠ -1) :
    Accepts token.bytes now
      (verifyToken (Calls.faulty e f) now later token.bytes db).2.table := by
  have hrow : Accepts token.bytes now db.table := by
    by_contra hnone
    have hnil := (matching_literal_eq_nil_iff e now token.bytes db.table).mpr hnone
    have hrows : Statement.rows e db.table
        (.select (.literal token.bytes) (.literal (strftime now.toTm))) = [] :=
      List.map_eq_nil_iff.mpr hnil
    have hfound : (Calls.faulty e f).found now token.bytes db.table = [] := by
      rw [found_faulty, parse_selectQuery hq token.noNul, lookupName, hcol, hrows]
      cases f.stepError <;> simp [delivered]
    rw [ne_eq, verifyToken_eq_neg_one_iff, target_faulty, hfound,
      List.getLast?_nil, ite_self] at hcode
    exact hcode rfl
  have hafter := tableAfter_verifyToken e f now later token.bytes db
  generalize (verifyToken (Calls.faulty e f) now later token.bytes db).2.table =
    table' at hafter ⊢
  rcases hrow with ⟨r, hr, htoken, hexp⟩
  cases hafter with
  | unchanged hnone => exact ⟨r, hr, htoken, hexp⟩
  | renewed column0 hrenews =>
      refine ⟨_, List.mem_map_of_mem hr, ?_, ?_⟩
      · split <;> exact htoken
      · split
        · exact strftime_lt_renew hle
        · exact hexp

/-- Letters and the underscore do not start a number. -/
theorem isNumberStart_of_toLower {c : UInt8} (h : 0x41 ≤ (toLower c).toNat) :
    isNumberStart c = false := by
  have hc : 0x41 ≤ c.toNat := by
    unfold toLower at h
    split at h
    · next hupper =>
        simp only [Bool.and_eq_true, decide_eq_true_eq,
          UInt8.le_iff_toNat_le] at hupper
        exact hupper.1
    · exact h
  have hne : ∀ d : UInt8, d.toNat < 0x41 → c ≠ d := by
    rintro d hd rfl
    omega
  have hspace : isSpace c = false := by
    have hnot : ¬c.toNat ≤ 0x0d := by omega
    simp [isSpace, UInt8.le_iff_toNat_le, hne 0x20 (by decide), hnot]
  have hdigit : isDigit c = false := by
    rw [← Bool.not_eq_true, isDigit_iff]
    omega
  simp [isNumberStart, hspace, hdigit, hne 0x2b (by decide),
    hne 0x2d (by decide), hne 0x2e (by decide)]

private theorem head_of_strIEq {word : List UInt8} {d : UInt8}
    {name ds : List UInt8} (h : strIEq word name = true)
    (hname : name.map toLower = d :: ds) :
    ∃ c s, word = c :: s ∧ toLower c = d := by
  rw [strIEq, decide_eq_true_eq, hname] at h
  cases word with
  | nil => simp at h
  | cons c s => exact ⟨c, s, rfl, (List.cons.inj h).1⟩

/-- A word that names a column starts with a letter or an underscore. -/
theorem head_of_lookupColumn {word : List UInt8} {col : Column}
    (h : lookupColumn word = some col) :
    ∃ c s, word = c :: s ∧ isNumberStart c = false := by
  have hstart : ∀ {name : List UInt8} {d : UInt8} {ds : List UInt8},
      strIEq word name = true → name.map toLower = d :: ds →
        0x41 ≤ d.toNat → ∃ c s, word = c :: s ∧ isNumberStart c = false := by
    intro name d ds heq hname hd
    obtain ⟨c, s, hword, hc⟩ := head_of_strIEq heq hname
    exact ⟨c, s, hword, isNumberStart_of_toLower (by rw [hc]; exact hd)⟩
  unfold lookupColumn at h
  split at h
  · next heq => exact hstart heq rfl (by decide)
  · split at h
    · next heq => exact hstart heq rfl (by decide)
    · split at h
      · next heq => exact hstart heq rfl (by decide)
      · split at h
        · next heq =>
            rw [Bool.or_eq_true, Bool.or_eq_true] at heq
            rcases heq with (heq | heq) | heq
            · exact hstart heq rfl (by decide)
            · exact hstart heq rfl (by decide)
            · exact hstart heq rfl (by decide)
        · exact absurd h (by simp)

/-- A table on which a column name is misread: for `token` a row with another
token, for the other columns a row with this very token. -/
def misread (word : List UInt8) (c : Column) : Table :=
  [{ rowid := 1
     token := if c = .token then word ++ [0x41] else word
     userId := 7
     expiration := ascii "9" }]

/-- On that table the query decides against the specification. -/
theorem matching_misread_iff (e : Engine) {word : List UInt8} {c : Column}
    (h : lookupColumn word = some c) :
    matching e noon (lookupName word) (misread word c) = [] ↔
      Accepts word noon (misread word c) := by
  obtain ⟨a, s, hword, ha⟩ := head_of_lookupColumn h
  have hlater : strftime noon.toTm < ascii "9" := by decide
  have hname : lookupName word = .column c := by rw [lookupName, h]
  have hnumeric : ∀ i, e.compareNumeric word i = .gt := by
    intro i
    rw [hword]
    exact e.compareNumeric_text a s i ha
  have hdigit : word ≠ ascii "9" := by
    rw [hword]
    intro heq
    rw [(List.cons.inj heq).1] at ha
    exact absurd ha (by decide)
  rw [hname]
  cases c with
  | token =>
      apply iff_of_false
      · simp [matching, misread, tokenEquals, expirationAbove, hlater]
      · simp [Accepts, misread]
  | userId =>
      apply iff_of_true
      · simp [matching, misread, tokenEquals, hnumeric]
      · simp [Accepts, misread, hlater]
  | expiration =>
      apply iff_of_true
      · simp [matching, misread, tokenEquals, hdigit]
      · simp [Accepts, misread, hlater]
  | rowid =>
      apply iff_of_true
      · simp [matching, misread, tokenEquals, hnumeric]
      · simp [Accepts, misread, hlater]

/-- **Exact token acceptance.**  For a presented token without a double quote
`verifyToken` returns 1 exactly on the tables with an unexpired row of that
token, and -1 on all others, if and only if the token names no column. -/
theorem acceptance_exact_iff (token : CToken) (hq : dquote ∉ token.bytes) :
    (∀ (e : Engine) (now later : LocalTime) (db : Db),
      (verifyToken (Calls.real e) now later token.bytes db).1 =
        if Accepts token.bytes now db.table then 1 else -1) ↔
      lookupColumn token.bytes = none := by
  constructor
  · intro h
    cases hcol : lookupColumn token.bytes with
    | none => rfl
    | some c =>
        have hcode := h Engine.plain noon noon
          { table := misread token.bytes c, handles := [] }
        rw [verifyToken_real_code hq] at hcode
        have hwrong := matching_misread_iff Engine.plain hcol
        by_cases hacc : Accepts token.bytes noon (misread token.bytes c)
        · rw [if_pos (hwrong.mpr hacc), if_pos hacc] at hcode
          exact absurd hcode (by decide)
        · rw [if_neg (mt hwrong.mp hacc), if_neg hacc] at hcode
          exact absurd hcode (by decide)
  · intro hcol e now later db
    rw [verifyToken_real_code hq, lookupName, hcol]
    by_cases hacc : Accepts token.bytes now db.table
    · rw [if_pos hacc, if_neg]
      exact fun hnil => (matching_literal_eq_nil_iff e now _ _).mp hnil hacc
    · rw [if_neg hacc, if_pos]
      exact (matching_literal_eq_nil_iff e now _ _).mpr hacc

/-- Sixteen letters. -/
def sixteenAs : CToken :=
  { bytes := List.replicate 16 0x41, noNul := by decide, short := by decide }

/-- A table that knows it. -/
def sixteenAsTable : Table :=
  [{ rowid := 1, token := sixteenAs.bytes, userId := 7
     expiration := ascii "2030-01-01 00:00:00" }]

theorem acceptance_sixteenAs :
    dquote ∉ sixteenAs.bytes ∧
      (verifyToken (Calls.real Engine.plain) noon noon sixteenAs.bytes
        { table := sixteenAsTable, handles := [] }).1 = 1 :=
  ⟨by decide,
    ((acceptance_exact_iff sixteenAs (by decide)).mpr (by decide) Engine.plain
      noon noon { table := sixteenAsTable, handles := [] }).trans
        (if_pos (by decide +kernel))⟩

/-- The five bytes `token`, presented to a database that knows one other
token. -/
theorem not_acceptance_exact :
    ¬∀ (token : CToken), dquote ∉ token.bytes →
      ∀ (e : Engine) (now later : LocalTime) (db : Db),
        (verifyToken (Calls.real e) now later token.bytes db).1 =
          if Accepts token.bytes now db.table then 1 else -1 := by
  intro h
  have hcode := h
    { bytes := ascii "token", noNul := by decide, short := by decide }
    (by decide) Engine.plain noon noon
    { table := [{ rowid := 1, token := ascii "secret", userId := 7
                  expiration := ascii "2030-01-01 00:00:00" }]
      handles := [] }
  revert hcode
  decide +kernel

end LidarPublisher.Token.Acceptance
