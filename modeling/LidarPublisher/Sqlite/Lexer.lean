import LidarPublisher.Lib.Decimal

/-!
# The SQL tokenizer

`sqlite3GetToken` of the bundled `sqlite3.c` classifies the first byte of the
rest of a statement and measures one token.  The functions here follow it case by
case, a byte behind the end of the text being the terminating NUL.  The tokens of
a text are what it measures again and again, without the spaces.
-/

namespace LidarPublisher.Sqlite.Lexer

open LidarPublisher.Lib.Bytes
open LidarPublisher.Lib.Decimal

/-! ## Bytes -/

/-- `z[i]` of a C string. -/
def byteAt (z : List UInt8) (i : Nat) : UInt8 := z.getD i 0

/-- `sqlite3Isxdigit`. -/
def isXDigit (c : UInt8) : Bool :=
  isDigit c || (0x41 ≤ c && c ≤ 0x46) || (0x61 ≤ c && c ≤ 0x66)

/-- ASCII letters. -/
def isAlpha (c : UInt8) : Bool :=
  (0x41 ≤ c && c ≤ 0x5a) || (0x61 ≤ c && c ≤ 0x7a)

/-- `IdChar`: alphanumerics, `_`, `$` and all bytes from `0x80` on. -/
def isIdChar (c : UInt8) : Bool :=
  isDigit c || isAlpha c || c = 0x5f || c = 0x24 || 0x80 ≤ c

/-- `sqlite3UpperToLower`. -/
def toLower (c : UInt8) : UInt8 := if 0x41 ≤ c && c ≤ 0x5a then c + 32 else c

/-- The double quote. -/
def dquote : UInt8 := 0x22

/-- The `CC_` character classes. -/
inductive CharClass
  | x | kywd | id | digit | dollar | varAlpha | varNum | space | quote | quote2
  | pipe | minus | lt | gt | eq | bang | slash | lp | rp | semi | plus | star
  | percent | comma | and | tilda | dot | illegal
  deriving DecidableEq, Repr

/-- `aiClass`. -/
def aiClass (c : UInt8) : CharClass :=
  if 0x80 ≤ c then .id
  else if isDigit c then .digit
  else if c = 0x58 ∨ c = 0x78 then .x
  else if isAlpha c ∨ c = 0x5f then .kywd
  else if c = 0x09 ∨ c = 0x0a ∨ c = 0x0c ∨ c = 0x0d ∨ c = 0x20 then .space
  else if c = 0x22 ∨ c = 0x27 ∨ c = 0x60 then .quote
  else if c = 0x23 ∨ c = 0x3a ∨ c = 0x40 then .varAlpha
  else if c = 0x21 then .bang
  else if c = 0x24 then .dollar
  else if c = 0x25 then .percent
  else if c = 0x26 then .and
  else if c = 0x28 then .lp
  else if c = 0x29 then .rp
  else if c = 0x2a then .star
  else if c = 0x2b then .plus
  else if c = 0x2c then .comma
  else if c = 0x2d then .minus
  else if c = 0x2e then .dot
  else if c = 0x2f then .slash
  else if c = 0x3b then .semi
  else if c = 0x3c then .lt
  else if c = 0x3d then .eq
  else if c = 0x3e then .gt
  else if c = 0x3f then .varNum
  else if c = 0x5b then .quote2
  else if c = 0x7c then .pipe
  else if c = 0x7e then .tilda
  else .illegal

/-! ## Tokens -/

/-- The `TK_` codes the tokenizer returns, with one kind for all keywords. -/
inductive TokenKind
  | space | illegal | minus | lp | rp | semi | plus | star | slash | rem
  | eq | le | ne | lshift | lt | ge | rshift | gt | bitor | concat | comma
  | bitand | bitnot | string | id | dot | integer | float | bindVar | blob
  | keyword
  deriving DecidableEq, Repr

/-- `sLastToken` with its type. -/
structure Token where
  kind : TokenKind
  text : List UInt8
  deriving DecidableEq, Repr

/-- The 124 keywords of `keywordCode`, by their `aLen`. -/
def keywords : (n : Nat) → List String
  | 2 => ["AS", "ON", "OF", "OR", "NO", "TO", "IN", "IS", "BY", "IF"]
  | 3 => ["KEY", "FOR", "ADD", "END", "SET", "NOT", "ASC", "AND", "ROW",
      "ALL"]
  | 4 => ["DESC", "EACH", "LEFT", "THEN", "ELSE", "INTO", "TEMP", "WITH",
      "NULL", "LIKE", "CASE", "JOIN", "PLAN", "WHEN", "CAST", "DROP", "FAIL",
      "FROM", "FULL", "GLOB", "VIEW"]
  | 5 => ["INDEX", "CHECK", "TABLE", "ALTER", "RAISE", "QUERY", "OUTER",
      "GROUP", "BEGIN", "INNER", "MATCH", "ABORT", "LIMIT", "WHERE", "AFTER",
      "CROSS", "ORDER", "RIGHT", "UNION", "USING"]
  | 6 => ["ESCAPE", "BEFORE", "IGNORE", "REGEXP", "SELECT", "EXCEPT",
      "ACTION", "EXISTS", "OFFSET", "UNIQUE", "ATTACH", "HAVING", "UPDATE",
      "DELETE", "CREATE", "DETACH", "INSERT", "PRAGMA", "VALUES", "RENAME",
      "COLUMN", "COMMIT", "ISNULL", "VACUUM"]
  | 7 => ["REINDEX", "INDEXED", "FOREIGN", "EXPLAIN", "INSTEAD", "NATURAL",
      "TRIGGER", "WITHOUT", "RELEASE", "BETWEEN", "NOTNULL", "CASCADE",
      "COLLATE", "ANALYZE", "VIRTUAL", "REPLACE", "DEFAULT", "PRIMARY"]
  | 8 => ["DATABASE", "CONFLICT", "DEFERRED", "DISTINCT", "RESTRICT",
      "ROLLBACK"]
  | 9 => ["EXCLUSIVE", "SAVEPOINT", "INTERSECT", "TEMPORARY", "RECURSIVE",
      "IMMEDIATE", "INITIALLY"]
  | 10 => ["DEFERRABLE", "REFERENCES", "CONSTRAINT"]
  | 11 => ["TRANSACTION"]
  | 12 => ["CURRENT_DATE", "CURRENT_TIME"]
  | 13 => ["AUTOINCREMENT"]
  | 17 => ["CURRENT_TIMESTAMP"]
  | _ => []

/-- `keywordCode`: the comparison clears bit `0x20` of every byte. -/
def keywordCode (z : List UInt8) : TokenKind :=
  if z.map (· &&& 0xdf) ∈ (keywords z.length).map ascii then .keyword else .id

/-- Length of the longest prefix of bytes with property `p`. -/
def span (p : UInt8 → Bool) (z : List UInt8) : Nat := (z.takeWhile p).length

/-- The loop over a quoted literal, behind the opening quote: the number of
bytes up to and with the closing one. -/
def scanQuote (delim : UInt8) : List UInt8 → Option Nat
  | [] => none
  | c :: z =>
      if c = 0 then none
      else if c = delim then
        match z with
        | d :: z =>
            if d = delim then (scanQuote delim z).map (· + 2) else some 1
        | [] => some 1
      else (scanQuote delim z).map (· + 1)

/-- The loop over a `/* ... */` comment, from `z[2]` on. -/
def scanComment : List UInt8 → Nat
  | [] => 0
  | c :: z =>
      match z with
      | d :: _ => if c = 0x2a ∧ d = 0x2f then 2 else 1 + scanComment z
      | [] => 1

/-- `CC_DIGIT`: integers, hexadecimal integers, floats. -/
def numberToken (z : List UInt8) : TokenKind × Nat :=
  if byteAt z 0 = 0x30 ∧ (byteAt z 1 = 0x78 ∨ byteAt z 1 = 0x58) ∧
      isXDigit (byteAt z 2) = true then
    (.integer, 3 + span isXDigit (z.drop 3))
  else
    let i := span isDigit z
    let (kind, i) :=
      if byteAt z i = 0x2e then
        (TokenKind.float, i + 1 + span isDigit (z.drop (i + 1)))
      else (.integer, i)
    let (kind, i) :=
      if (byteAt z i = 0x65 ∨ byteAt z i = 0x45) ∧
          (isDigit (byteAt z (i + 1)) = true ∨
            (byteAt z (i + 1) = 0x2b ∨ byteAt z (i + 1) = 0x2d) ∧
              isDigit (byteAt z (i + 2)) = true) then
        (TokenKind.float, i + 2 + span isDigit (z.drop (i + 2)))
      else (kind, i)
    let n := span isIdChar (z.drop i)
    (if n = 0 then kind else .illegal, i + n)

/-- The loop over a `$`, `@`, `#` or `:` variable behind its first byte, `n`
identifier bytes having been seen. -/
def scanVariable : (n : Nat) → List UInt8 → TokenKind × Nat
  | n, [] => (if n = 0 then .illegal else .bindVar, 0)
  | n, c :: z =>
      if isIdChar c then
        let (kind, i) := scanVariable (n + 1) z
        (kind, i + 1)
      else if c = 0x28 ∧ 0 < n then
        let i := span (fun d => d ≠ 0 && !isSpace d && d ≠ 0x29) z
        if byteAt z i = 0x29 then (.bindVar, i + 2) else (.illegal, i + 1)
      else
        match z with
        | d :: z =>
            if c = 0x3a ∧ d = 0x3a then
              let (kind, i) := scanVariable n z
              (kind, i + 2)
            else (if n = 0 then .illegal else .bindVar, 0)
        | [] => (if n = 0 then .illegal else .bindVar, 0)

/-- `CC_X` with a quote behind the `x`: a blob literal. -/
def blobToken (z : List UInt8) : TokenKind × Nat :=
  let i := 2 + span isXDigit (z.drop 2)
  if byteAt z i ≠ 0x27 ∨ i % 2 = 1 then
    let i := i + span (fun c => c ≠ 0 && c ≠ 0x27) (z.drop i)
    (.illegal, if byteAt z i = 0 then i else i + 1)
  else (.blob, i + 1)

/-- `sqlite3GetToken`: kind and length of the token at the front of `z`. -/
def getToken (z : List UInt8) : TokenKind × Nat :=
  match aiClass (byteAt z 0) with
  | .space => (.space, 1 + span isSpace (z.drop 1))
  | .minus =>
      if byteAt z 1 = 0x2d then
        (.space, 2 + span (fun c => c ≠ 0 && c ≠ 0x0a) (z.drop 2))
      else (.minus, 1)
  | .lp => (.lp, 1)
  | .rp => (.rp, 1)
  | .semi => (.semi, 1)
  | .plus => (.plus, 1)
  | .star => (.star, 1)
  | .slash =>
      if byteAt z 1 ≠ 0x2a ∨ byteAt z 2 = 0 then (.slash, 1)
      else (.space, 2 + scanComment (z.drop 2))
  | .percent => (.rem, 1)
  | .eq => (.eq, if byteAt z 1 = 0x3d then 2 else 1)
  | .lt =>
      if byteAt z 1 = 0x3d then (.le, 2)
      else if byteAt z 1 = 0x3e then (.ne, 2)
      else if byteAt z 1 = 0x3c then (.lshift, 2)
      else (.lt, 1)
  | .gt =>
      if byteAt z 1 = 0x3d then (.ge, 2)
      else if byteAt z 1 = 0x3e then (.rshift, 2)
      else (.gt, 1)
  | .bang => if byteAt z 1 = 0x3d then (.ne, 2) else (.illegal, 1)
  | .pipe => if byteAt z 1 = 0x7c then (.concat, 2) else (.bitor, 1)
  | .comma => (.comma, 1)
  | .and => (.bitand, 1)
  | .tilda => (.bitnot, 1)
  | .quote =>
      match scanQuote (byteAt z 0) (z.drop 1) with
      | some n => (if byteAt z 0 = 0x27 then .string else .id, 1 + n)
      | none => (.illegal, 1 + span (fun c => c ≠ 0) (z.drop 1))
  | .dot => if isDigit (byteAt z 1) then numberToken z else (.dot, 1)
  | .digit => numberToken z
  | .quote2 =>
      let n := span (fun c => c ≠ 0 && c ≠ 0x5d) (z.drop 1)
      if byteAt z (1 + n) = 0x5d then (.id, n + 2) else (.illegal, n + 1)
  | .varNum => (.bindVar, 1 + span isDigit (z.drop 1))
  | .dollar | .varAlpha =>
      let (kind, n) := scanVariable 0 (z.drop 1)
      (kind, 1 + n)
  | .kywd =>
      let i := 1 + span (fun c => aiClass c = .x || aiClass c = .kywd) (z.drop 1)
      if isIdChar (byteAt z i) then (.id, i + span isIdChar (z.drop i))
      else (keywordCode (z.take i), i)
  | .x =>
      if byteAt z 1 = 0x27 then blobToken z
      else (.id, 1 + span isIdChar (z.drop 1))
  | .id => (.id, 1 + span isIdChar (z.drop 1))
  | .illegal => (.illegal, 1)

/-- `sqlite3GetToken` again and again: `skip` bytes belong to the last token.
Behind a token that is illegal there are no more. -/
def tokenizeFrom : (skip : Nat) → List UInt8 → List Token
  | _, [] => []
  | skip + 1, _ :: z => tokenizeFrom skip z
  | 0, c :: z =>
      let (kind, n) := getToken (c :: z)
      match kind with
      | .space => tokenizeFrom (n - 1) z
      | .illegal => [{ kind := .illegal, text := (c :: z).take n }]
      | kind =>
          { kind := kind, text := (c :: z).take n } :: tokenizeFrom (n - 1) z

/-- The tokens of a statement. -/
def tokenize (z : List UInt8) : List Token := tokenizeFrom 0 z

/-- `sqlite3Dequote` on the text of a token. -/
def unquote (quote : UInt8) : List UInt8 → List UInt8
  | [] => []
  | c :: z =>
      if c = quote then
        match z with
        | d :: z => if d = quote then quote :: unquote quote z else []
        | [] => []
      else c :: unquote quote z

def dequote : List UInt8 → List UInt8
  | [] => []
  | q :: z =>
      if q = 0x27 ∨ q = 0x22 ∨ q = 0x60 then unquote q z
      else if q = 0x5b then unquote 0x5d z
      else q :: z

/-! ## Stepping through a text -/

theorem tokenizeFrom_eq_drop (skip : Nat) (z : List UInt8) :
    tokenizeFrom skip z = tokenize (z.drop skip) := by
  induction skip generalizing z with
  | zero => rfl
  | succ skip ih =>
      cases z with
      | nil => rfl
      | cons c z => exact ih z

/-- One token that is neither a space nor illegal. -/
theorem tokenize_of_getToken {c : UInt8} {z : List UInt8} {kind : TokenKind}
    {n : Nat} (h : getToken (c :: z) = (kind, n + 1)) (hspace : kind ≠ .space)
    (hlegal : kind ≠ .illegal) :
    tokenize (c :: z) =
      { kind := kind, text := (c :: z).take (n + 1) } :: tokenize (z.drop n) := by
  unfold tokenize
  rw [tokenizeFrom, h]
  dsimp only
  rw [Nat.add_sub_cancel, tokenizeFrom_eq_drop]
  cases kind <;> first | rfl | exact absurd rfl hspace | exact absurd rfl hlegal

/-- A text that starts with an illegal token has no other. -/
theorem tokenize_of_illegal {c : UInt8} {z : List UInt8} {n : Nat}
    (h : getToken (c :: z) = (.illegal, n)) :
    tokenize (c :: z) = [{ kind := .illegal, text := (c :: z).take n }] := by
  unfold tokenize
  rw [tokenizeFrom, h]

/-! ## Integer literals -/

theorem span_of_all {p : UInt8 → Bool} {z : List UInt8}
    (h : ∀ b ∈ z, p b = true) : span p z = z.length := by
  rw [span, List.takeWhile_eq_self_iff.mpr h]

/-- A text of digits is one integer. -/
theorem tokenize_digits {ds : List UInt8} (hne : ds ≠ [])
    (h : ∀ b ∈ ds, isDigit b = true) :
    tokenize ds = [{ kind := .integer, text := ds }] := by
  obtain ⟨c, z, rfl⟩ := List.exists_cons_of_ne_nil hne
  have hclass : aiClass c = .digit := by
    have hc := h c (by simp)
    have hrange := (isDigit_iff c).mp hc
    unfold aiClass
    rw [if_neg (by simp [UInt8.le_iff_toNat_le]; omega), if_pos hc]
  have hnext : ¬(byteAt (c :: z) 1 = 0x78 ∨ byteAt (c :: z) 1 = 0x58) := by
    cases z with
    | nil =>
        show ¬((0 : UInt8) = 0x78 ∨ (0 : UInt8) = 0x58)
        decide
    | cons d z =>
        have hd := h d (by simp)
        show ¬(d = 0x78 ∨ d = 0x58)
        rintro (rfl | rfl) <;> exact absurd hd (by decide)
  have hend : byteAt (c :: z) (c :: z).length = 0 := by
    simp [byteAt]
  have hget : getToken (c :: z) = (.integer, z.length + 1) := by
    unfold getToken
    rw [show aiClass (byteAt (c :: z) 0) = .digit from hclass]
    dsimp only
    unfold numberToken
    rw [if_neg fun hhex => hnext hhex.2.1, span_of_all h]
    dsimp only
    rw [hend, if_neg (show ¬(0 : UInt8) = 0x2e by decide)]
    dsimp only
    have hexp : ¬((0 : UInt8) = 0x65 ∨ (0 : UInt8) = 0x45) := by decide
    simp only [hend, hexp, false_and, if_false, List.drop_length]
    rfl
  rw [tokenize_of_getToken hget (by decide) (by decide)]
  simp [tokenize, tokenizeFrom]

/-! ## Quoted literals -/

theorem unquote_cons_of_ne {q c : UInt8} (h : c ≠ q) (z : List UInt8) :
    unquote q (c :: z) = c :: unquote q z := by
  rw [unquote.eq_def]
  exact if_neg h

theorem unquote_doubled (q : UInt8) (z : List UInt8) :
    unquote q (q :: q :: z) = q :: unquote q z := by
  rw [unquote.eq_def]
  simp only [if_true]

theorem unquote_close (q : UInt8) : unquote q [q] = [] := by
  rw [unquote.eq_def]
  exact if_pos rfl

theorem scanQuote_cons_of_ne {q c : UInt8} (h0 : c ≠ 0) (h : c ≠ q)
    (z : List UInt8) :
    scanQuote q (c :: z) = (scanQuote q z).map (· + 1) := by
  rw [scanQuote.eq_def]
  dsimp only
  rw [if_neg h0, if_neg h]

theorem scanQuote_doubled {q : UInt8} (hq : q ≠ 0) (z : List UInt8) :
    scanQuote q (q :: q :: z) = (scanQuote q z).map (· + 2) := by
  rw [scanQuote.eq_def]
  dsimp only
  rw [if_neg hq, if_pos rfl, if_pos rfl]

theorem scanQuote_close {q : UInt8} (hq : q ≠ 0) {z : List UInt8}
    (hz : z.head? ≠ some q) : scanQuote q (q :: z) = some 1 := by
  rw [scanQuote.eq_def]
  dsimp only
  rw [if_neg hq, if_pos rfl]
  cases z with
  | nil => rfl
  | cons d z => exact if_neg fun heq => hz (by rw [heq]; rfl)

/-- A text without the quote reads back as itself. -/
theorem unquote_append_quote {q : UInt8} {s : List UInt8} (h : q ∉ s) :
    unquote q (s ++ [q]) = s := by
  induction s with
  | nil => exact unquote_close q
  | cons c s ih =>
      obtain ⟨hc, hs⟩ := not_or.mp (mt List.mem_cons.mpr h)
      rw [List.cons_append, unquote_cons_of_ne (Ne.symm hc), ih hs]

/-- A text without the quote is closed by the first quote behind it, unless
that one is doubled. -/
theorem scanQuote_append {q : UInt8} {s rest : List UInt8} (hq : q ∉ s)
    (h0 : (0 : UInt8) ∉ s) (hq0 : q ≠ 0) (hrest : rest.head? ≠ some q) :
    scanQuote q (s ++ q :: rest) = some (s.length + 1) := by
  induction s with
  | nil => exact scanQuote_close hq0 hrest
  | cons c s ih =>
      obtain ⟨hc, hs⟩ := not_or.mp (mt List.mem_cons.mpr hq)
      obtain ⟨hc0, hs0⟩ := not_or.mp (mt List.mem_cons.mpr h0)
      rw [List.cons_append,
        scanQuote_cons_of_ne (Ne.symm hc0) (Ne.symm hc), ih hs hs0]
      rfl

/-- A closed literal `u`, quote, `rest`: no further quote follows, and every
quote in `u` is doubled, so that reading `u` back loses one byte for each. -/
structure Closed (q : UInt8) (z : List UInt8) (n : Nat)
    (u rest : List UInt8) : Prop where
  split : z = u ++ q :: rest
  length : n = u.length + 1
  single : rest.head? ≠ some q
  doubled : u.count q = 2 * (unquote q (u ++ [q])).count q
  shorter : u.length =
    (unquote q (u ++ [q])).length + (unquote q (u ++ [q])).count q

/-- What the loop over a quoted literal accepts. -/
theorem closed_of_scanQuote {q : UInt8} {z : List UInt8} {n : Nat}
    (h : scanQuote q z = some n) : ∃ u rest, Closed q z n u rest := by
  induction z using scanQuote.induct q generalizing n with
  | case1 => simp [scanQuote] at h
  | case2 z => simp [scanQuote.eq_def] at h
  | case3 z hq ih =>
      rw [scanQuote_doubled hq] at h
      obtain ⟨m, hm, rfl⟩ := Option.map_eq_some_iff.mp h
      obtain ⟨u, rest, hu⟩ := ih hm
      refine ⟨q :: q :: u, rest, ?_⟩
      have hunquote : unquote q (q :: q :: u ++ [q]) =
          q :: unquote q (u ++ [q]) := unquote_doubled q (u ++ [q])
      have hdoubled := hu.doubled
      have hshorter := hu.shorter
      exact
        { split := by rw [hu.split]; rfl
          length := by rw [hu.length]; rfl
          single := hu.single
          doubled := by
            rw [hunquote, List.count_cons_self, List.count_cons_self,
              List.count_cons_self]
            omega
          shorter := by
            rw [hunquote, List.count_cons_self]
            simp only [List.length_cons]
            omega }
  | case4 d z hd hq =>
      rw [scanQuote_close hq (by simpa using hd)] at h
      obtain rfl := Option.some.inj h
      exact ⟨[], d :: z,
        { split := rfl
          length := rfl
          single := by simpa using hd
          doubled := by simp [unquote_close]
          shorter := by simp [unquote_close] }⟩
  | case5 hq =>
      rw [scanQuote_close hq (by simp)] at h
      obtain rfl := Option.some.inj h
      exact ⟨[], [],
        { split := rfl
          length := rfl
          single := by simp
          doubled := by simp [unquote_close]
          shorter := by simp [unquote_close] }⟩
  | case6 c z h0 hc ih =>
      rw [scanQuote_cons_of_ne h0 hc] at h
      obtain ⟨m, hm, rfl⟩ := Option.map_eq_some_iff.mp h
      obtain ⟨u, rest, hu⟩ := ih hm
      refine ⟨c :: u, rest, ?_⟩
      have hunquote : unquote q (c :: u ++ [q]) = c :: unquote q (u ++ [q]) :=
        unquote_cons_of_ne hc (u ++ [q])
      have hshorter := hu.shorter
      exact
        { split := by rw [hu.split]; rfl
          length := by rw [hu.length]; rfl
          single := hu.single
          doubled := by
            rw [hunquote, List.count_cons_of_ne hc, List.count_cons_of_ne hc]
            exact hu.doubled
          shorter := by
            rw [hunquote, List.count_cons_of_ne hc]
            simp only [List.length_cons]
            omega }

/-- The token at a double quote is the literal, or illegal. -/
theorem getToken_dquote (z : List UInt8) :
    getToken (dquote :: z) =
      match scanQuote dquote z with
      | some n => (.id, 1 + n)
      | none => (.illegal, 1 + span (fun c => c ≠ 0) z) := by
  rfl

/-- A text between double quotes is one token, which reads back as the text. -/
theorem tokenize_quoted {s rest : List UInt8} (hq : dquote ∉ s)
    (h0 : (0 : UInt8) ∉ s) (hrest : rest.head? ≠ some dquote) :
    tokenize (dquote :: (s ++ dquote :: rest)) =
      { kind := .id, text := dquote :: (s ++ [dquote]) } :: tokenize rest := by
  have hget : getToken (dquote :: (s ++ dquote :: rest)) =
      (.id, (s.length + 1) + 1) := by
    rw [getToken_dquote, scanQuote_append hq h0 (by decide) hrest]
    dsimp only
    rw [Nat.add_comm]
  have htake : (s ++ dquote :: rest).take (s.length + 1) = s ++ [dquote] := by
    rw [List.take_append]
    simp
  have hdrop : (s ++ dquote :: rest).drop (s.length + 1) = rest := by
    rw [List.drop_append]
    simp
  rw [tokenize_of_getToken hget (by decide) (by decide), List.take_succ_cons,
    htake, hdrop]

theorem dequote_quoted {s : List UInt8} (hq : dquote ∉ s) :
    dequote (dquote :: (s ++ [dquote])) = s :=
  unquote_append_quote hq

end LidarPublisher.Sqlite.Lexer
