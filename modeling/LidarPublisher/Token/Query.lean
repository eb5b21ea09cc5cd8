import LidarPublisher.Sqlite.Execute
import LidarPublisher.Token.Clock

/-!
# The statement texts `verifyToken` prints

Both statements are assembled with `asprintf`, the token and the time between
double quotes that are not escaped.  The first one reads back as intended
exactly when the token has no double quote.
-/

namespace LidarPublisher.Token.Query

open LidarPublisher.Lib.Bytes
open LidarPublisher.Lib.Decimal
open LidarPublisher.Sqlite.Lexer
open LidarPublisher.Sqlite.Execute
open LidarPublisher.Token.Clock

/-- The C string `verifyToken` is called with: no NUL, at most the 16 bytes of
`tmp`. -/
structure CToken where
  bytes : List UInt8
  noNul : (0 : UInt8) ∉ bytes
  short : bytes.length ≤ 16
  deriving DecidableEq, Repr

/-- `select userId from tokens where token="%s" and expiration>"%s"`. -/
def selectQuery (token buffer : List UInt8) : List UInt8 :=
  ascii "select userId from tokens where token=\"" ++ token ++
    ascii "\" and expiration>\"" ++ buffer ++ ascii "\""

/-- `%d`. -/
def printInt (i : Int) : List UInt8 :=
  if i < 0 then ascii "-" ++ decimal i.natAbs else decimal i.natAbs

/-- `update tokens set expiration="%s" where userId=%d`. -/
def updateQuery (buffer : List UInt8) (uid : Int32) : List UInt8 :=
  ascii "update tokens set expiration=\"" ++ buffer ++
    ascii "\" where userId=" ++ printInt uid.toInt

/-- The text is the intended statement about this token and this time. -/
def ReadsAs (text token buffer : List UInt8) : Prop :=
  ∃ q1 q2, tokenize text = selectTokens q1 q2 ∧
    dequote q1 = token ∧ dequote q2 = buffer

/-! ## Time texts are plain -/

theorem dquote_notMem_strftime (t : Tm) : dquote ∉ strftime t := by
  intro h
  rcases mem_strftime h with h | h
  · exact absurd h (by decide)
  · exact absurd h (by decide)

theorem zero_notMem_strftime (t : Tm) : (0 : UInt8) ∉ strftime t := by
  intro h
  rcases mem_strftime h with h | h
  · exact absurd h (by decide)
  · exact absurd h (by decide)

/-- A time text starts with a digit, so it names no column. -/
theorem lookupColumn_strftime (t : Tm) : lookupColumn (strftime t) = none := by
  have hyear : strftime t =
      digit (t.year / 10 ^ 3 % 10) :: (strftime t).tail := rfl
  rw [hyear]
  exact lookupColumn_of_isDigit (isDigit_digit (Nat.mod_lt _ (by decide)))

theorem lookupName_strftime (t : Tm) :
    lookupName (strftime t) = .literal (strftime t) := by
  rw [lookupName, lookupColumn_strftime]

/-! ## Reading the fixed parts -/

/-- The part of the first statement behind the token. -/
def selectRest (buffer : List UInt8) : List UInt8 :=
  ascii " and expiration>" ++ quoted buffer

theorem selectQuery_eq (token buffer : List UInt8) :
    selectQuery token buffer =
      ascii "select userId from tokens where token=" ++
        dquote :: (token ++ dquote :: selectRest buffer) := by
  simp [selectQuery, selectRest, quoted, ascii, dquote]

theorem tokenize_selectHead (z : List UInt8) :
    tokenize (ascii "select userId from tokens where token=" ++ dquote :: z) =
      selectHead ++ tokenize (dquote :: z) := by
  rfl

theorem tokenize_selectMiddle (z : List UInt8) :
    tokenize (ascii " and expiration>" ++ dquote :: z) =
      selectMiddle ++ tokenize (dquote :: z) := by
  rfl

theorem tokenize_selectRest {buffer : List UInt8} (hq : dquote ∉ buffer)
    (h0 : (0 : UInt8) ∉ buffer) :
    tokenize (selectRest buffer) =
      selectMiddle ++ [{ kind := .id, text := quoted buffer }] := by
  rw [selectRest, quoted, tokenize_selectMiddle,
    tokenize_quoted hq h0 (by simp)]
  rfl

/-- Without a double quote in its two arguments the text has the intended
tokens. -/
theorem tokenize_selectQuery {token buffer : List UInt8}
    (hq : dquote ∉ token) (h0 : (0 : UInt8) ∉ token)
    (hbq : dquote ∉ buffer) (hb0 : (0 : UInt8) ∉ buffer) :
    tokenize (selectQuery token buffer) =
      selectTokens (quoted token) (quoted buffer) := by
  have hrest : (selectRest buffer).head? ≠ some dquote := by
    simp [selectRest, ascii, dquote]
  rw [selectQuery_eq, tokenize_selectHead, tokenize_quoted hq h0 hrest,
    tokenize_selectRest hbq hb0]
  rfl

/-- Without a double quote in its arguments the first text is the intended
statement, up to the names SQLite may find in it. -/
theorem parse_selectQuery {token : List UInt8} (hq : dquote ∉ token)
    (h0 : (0 : UInt8) ∉ token) (t : Tm) :
    parse (selectQuery token (strftime t)) =
      .select (lookupName token) (.literal (strftime t)) := by
  rw [parse_of_selectTokens (tokenize_selectQuery hq h0
    (dquote_notMem_strftime t) (zero_notMem_strftime t)) hq
    (dquote_notMem_strftime t), lookupName_strftime]

/-- Whatever the token, the first text is a select or no statement that is
known. -/
theorem parse_selectQuery_cases (token buffer : List UInt8) :
    (∃ x y, parse (selectQuery token buffer) = .select x y) ∨
      parse (selectQuery token buffer) = .other (selectQuery token buffer) := by
  have hupdate : ∀ q neg ds,
      tokenize (selectQuery token buffer) ≠ updateTokens q neg ds := by
    intro q neg ds h
    rw [selectQuery_eq, tokenize_selectHead] at h
    have hhead : some (keyword "select") = some (keyword "update") :=
      congrArg List.head? h
    exact absurd hhead (by decide)
  unfold parse
  dsimp only
  split
  · exact Or.inl ⟨_, _, rfl⟩
  · rw [if_neg fun h => hupdate _ _ _ h.1]
    exact Or.inr rfl

/-! ## The second statement -/

theorem updateQuery_eq (buffer : List UInt8) (uid : Int32) :
    updateQuery buffer uid =
      ascii "update tokens set expiration=" ++
        dquote :: (buffer ++ dquote ::
          (ascii " where userId" ++ 0x3d :: printInt uid.toInt)) := by
  simp [updateQuery, ascii, dquote]

theorem tokenize_updateHead (z : List UInt8) :
    tokenize (ascii "update tokens set expiration=" ++ dquote :: z) =
      updateHead ++ tokenize (dquote :: z) := by
  rfl

theorem tokenize_whereUserId (z : List UInt8) :
    tokenize (ascii " where userId" ++ 0x3d :: z) =
      [keyword "where", name "userId"] ++ tokenize (0x3d :: z) := by
  rfl

theorem tokenize_equals {c : UInt8} (hc : c ≠ 0x3d) (z : List UInt8) :
    tokenize (0x3d :: c :: z) = equals :: tokenize (c :: z) := by
  have hget : getToken (0x3d :: c :: z) = (.eq, 0 + 1) := by
    show (TokenKind.eq, if c = 0x3d then 2 else 1) = _
    rw [if_neg hc]
  rw [tokenize_of_getToken hget (by decide) (by decide)]
  rfl

/-- `%d` as a sign and digits. -/
theorem printInt_eq (i : Int) :
    printInt i =
      (if decide (i < 0) then ascii "-" else []) ++ decimal i.natAbs := by
  unfold printInt
  by_cases h : i < 0 <;> simp [h]

/-- A printed integer reads back as its sign and its digits. -/
theorem tokenize_printInt (i : Int) :
    tokenize (printInt i) = intTokens (decide (i < 0)) (decimal i.natAbs) := by
  have hdigits : ∀ b ∈ decimal i.natAbs, isDigit b = true :=
    fun b hb => isDigit_of_mem_decimal hb
  rw [printInt_eq]
  by_cases h : i < 0
  · rw [if_pos (decide_eq_true h)]
    obtain ⟨d, ds, hds⟩ := List.exists_cons_of_ne_nil (decimal_ne_nil i.natAbs)
    have hd : d ≠ 0x2d := by
      rintro rfl
      exact absurd (hdigits 0x2d (by rw [hds]; simp)) (by decide)
    have hget : getToken (0x2d :: d :: ds) = (.minus, 0 + 1) := by
      show (if d = 0x2d then _ else (TokenKind.minus, 1)) = _
      rw [if_neg hd]
    show tokenize (0x2d :: decimal i.natAbs) = _
    rw [hds, tokenize_of_getToken hget (by decide) (by decide), List.drop_zero,
      ← hds, tokenize_digits (decimal_ne_nil _) hdigits, intTokens,
      if_pos (decide_eq_true h)]
    rfl
  · rw [if_neg (by simpa using h), List.nil_append,
      tokenize_digits (decimal_ne_nil _) hdigits, intTokens,
      if_neg (by simpa using h), List.nil_append]

theorem tokenize_updateQuery {buffer : List UInt8} (hq : dquote ∉ buffer)
    (h0 : (0 : UInt8) ∉ buffer) (uid : Int32) :
    tokenize (updateQuery buffer uid) =
      updateTokens (quoted buffer) (decide (uid.toInt < 0))
        (decimal uid.toInt.natAbs) := by
  obtain ⟨c, z, hcz⟩ : ∃ c z, printInt uid.toInt = c :: z := by
    apply List.exists_cons_of_ne_nil
    rw [printInt_eq]
    simp [decimal_ne_nil]
  have hc : c ≠ 0x3d := by
    rintro rfl
    have hmem : (0x3d : UInt8) ∈ printInt uid.toInt := by rw [hcz]; simp
    rw [printInt_eq, List.mem_append] at hmem
    rcases hmem with hmem | hmem
    · revert hmem
      split <;> decide
    · exact absurd (isDigit_of_mem_decimal hmem) (by decide)
  rw [updateQuery_eq, tokenize_updateHead,
    tokenize_quoted hq h0 (by simp [ascii, dquote]), tokenize_whereUserId, hcz,
    tokenize_equals hc, ← hcz, tokenize_printInt]
  rfl

/-- The second text is always the intended statement. -/
theorem parse_updateQuery (t : Tm) (uid : Int32) :
    parse (updateQuery (strftime t) uid) =
      .update (strftime t) uid.toInt := by
  have hrange : numeral (decimal uid.toInt.natAbs) < 2 ^ 63 := by
    rw [numeral_decimal]
    have hlow := uid.le_toInt
    have hhigh := uid.toInt_lt
    omega
  rw [parse_of_updateTokens (tokenize_updateQuery (dquote_notMem_strftime t)
    (zero_notMem_strftime t) uid) (dquote_notMem_strftime t)
    (lookupColumn_strftime t)
    (List.all_eq_true.mpr fun b hb => isDigit_of_mem_decimal hb) hrange]
  congr 1
  unfold intValue
  rw [numeral_decimal]
  by_cases h : uid.toInt < 0
  · rw [if_pos (decide_eq_true h)]
    omega
  · rw [if_neg (by simpa using h)]
    omega

/-! ## A double quote in the token -/

/-- The literal behind `token=` cannot read back as a token with a quote in it:
reading back halves the quotes of the literal, and the text that follows the
token has one quote only before its first other byte. -/
theorem dquote_notMem_of_closed {token rest z : List UInt8} {n : Nat}
    {u : List UInt8} (hsplit : Closed dquote (token ++ dquote :: z) n u rest)
    (hz : z.head? = some 0x20)
    (hread : unquote dquote (u ++ [dquote]) = token) : dquote ∉ token := by
  have hdoubled := hsplit.doubled
  have hshorter := hsplit.shorter
  rw [hread] at hdoubled hshorter
  rcases List.append_eq_append_iff.mp hsplit.split with
    ⟨extra, hu, htail⟩ | ⟨extra, htok, -⟩
  · have hcount : extra.count dquote = token.count dquote := by
      rw [hu, List.count_append] at hdoubled
      omega
    have hlength : extra.length = token.count dquote := by
      rw [hu, List.length_append] at hshorter
      omega
    match extra with
    | [] =>
        rw [← List.count_pos_iff]
        simp at hlength
        omega
    | [a] =>
        rw [List.singleton_append, List.cons.injEq] at htail
        rw [htail.2, List.head?_cons] at hz
        exact absurd hz (by decide)
    | a :: b :: extra =>
        rw [List.cons_append, List.cons_append, List.cons.injEq] at htail
        rw [htail.2, List.head?_cons] at hz
        obtain rfl := Option.some.inj hz
        have hle := List.count_le_length (a := dquote) (l := extra)
        rw [List.count_cons, List.count_cons_of_ne (by decide)] at hcount
        simp only [List.length_cons] at hlength
        split at hcount <;> omega
  · have hlength := congrArg List.length htok
    rw [List.length_append] at hlength
    rw [← List.count_pos_iff]
    omega

/-- What the intended token sequence says about the literal behind `token=`. -/
theorem closed_of_readsAs {token buffer z : List UInt8}
    (h : tokenize (dquote :: z) =
      { kind := .id, text := token } ::
        (selectMiddle ++ [{ kind := .id, text := buffer }])) :
    ∃ n u rest, Closed dquote z n u rest ∧
      dequote token = unquote dquote (u ++ [dquote]) := by
  cases hscan : scanQuote dquote z with
  | none =>
      have hget := getToken_dquote z
      rw [hscan] at hget
      rw [tokenize_of_illegal hget] at h
      have hlen := congrArg List.length h
      simp [selectMiddle] at hlen
  | some n =>
      obtain ⟨u, rest, hclosed⟩ := closed_of_scanQuote hscan
      have hget := getToken_dquote z
      rw [hscan] at hget
      dsimp only at hget
      rw [Nat.add_comm] at hget
      rw [tokenize_of_getToken hget (by decide) (by decide),
        List.cons.injEq] at h
      have htext : (dquote :: z).take (n + 1) = token :=
        congrArg Token.text h.1
      refine ⟨n, u, rest, hclosed, ?_⟩
      have htake : (u ++ dquote :: rest).take (u.length + 1) =
          u ++ [dquote] := by
        rw [List.take_append]
        simp
      rw [← htext, List.take_succ_cons, hclosed.length, hclosed.split, htake]
      rfl

/-- **The token query.**  Its text has the intended tokens, with the presented
token and the time as the values of the two literals, exactly when the token
has no double quote. -/
theorem readsAs_selectQuery_iff (token : CToken) (now : LocalTime) :
    ReadsAs (selectQuery token.bytes (strftime now.toTm)) token.bytes
        (strftime now.toTm) ↔
      dquote ∉ token.bytes := by
  constructor
  · intro h
    rcases h with ⟨q1, q2, htokens, hread, -⟩
    rw [selectQuery_eq, tokenize_selectHead, selectTokens] at htokens
    obtain ⟨n, u, rest, hclosed, hbody⟩ :=
      closed_of_readsAs (List.append_cancel_left htokens)
    exact dquote_notMem_of_closed hclosed (by rfl) (hbody.symm.trans hread)
  · intro hq
    refine ⟨quoted token.bytes, quoted (strftime now.toTm),
      tokenize_selectQuery hq token.noNul (dquote_notMem_strftime _)
        (zero_notMem_strftime _), dequote_quoted hq,
      dequote_quoted (dquote_notMem_strftime _)⟩

/-- Noon of a spring day. -/
def noon : LocalTime :=
  { year := 2016, mon := 4, mday := 25, hour := 12, min := 0, sec := 0
    year_valid := by decide
    mon_valid := by decide
    mday_valid := by decide
    hour_valid := by decide
    min_valid := by decide
    sec_valid := by decide }

/-- Eight bytes that turn the condition into `token="" or 1` and the rest of the
statement into a comment. -/
def injection : CToken :=
  { bytes := ascii "\" or 1--", noNul := by decide, short := by decide }

theorem not_readsAs_selectQuery :
    ¬∀ (token : CToken) (now : LocalTime),
      ReadsAs (selectQuery token.bytes (strftime now.toTm)) token.bytes
        (strftime now.toTm) := by
  intro h
  obtain ⟨q1, q2, htokens, -⟩ := h injection noon
  have hlen : (tokenize (selectQuery injection.bytes
      (strftime noon.toTm))).length = 12 := by
    rw [htokens]
    rfl
  revert hlen
  decide +kernel

end LidarPublisher.Token.Query
