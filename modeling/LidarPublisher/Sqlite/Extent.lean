import LidarPublisher.Sqlite.Lexer

/-!
# The extent of tokens

A statement is stepped through by the lengths `sqlite3GetToken` returns.  A token
has a byte at least and no byte behind the text, so the steps come to an end, and
what is no token is a space or a comment.
-/

namespace LidarPublisher.Sqlite.Extent

open LidarPublisher.Lib.Bytes
open LidarPublisher.Lib.Decimal
open LidarPublisher.Sqlite.Lexer

/-! ## Loops inside a token -/

theorem span_le (p : UInt8 → Bool) (z : List UInt8) : span p z ≤ z.length :=
  (List.takeWhile_sublist _).length_le

theorem add_span_drop_le (p : UInt8 → Bool) {z : List UInt8} {i : Nat}
    (h : i ≤ z.length) : i + span p (z.drop i) ≤ z.length := by
  have hspan := span_le p (z.drop i)
  rw [List.length_drop] at hspan
  omega

/-- A byte other than NUL is one of the text. -/
theorem lt_of_byteAt_ne {z : List UInt8} {i : Nat} (h : byteAt z i ≠ 0) :
    i < z.length := by
  rw [← Nat.not_le]
  intro hle
  exact h (by simp [byteAt, List.getElem?_eq_none hle])

theorem lt_of_byteAt_eq {z : List UInt8} {i : Nat} {c : UInt8}
    (h : byteAt z i = c) (hc : c ≠ 0) : i < z.length :=
  lt_of_byteAt_ne (by rw [h]; exact hc)

theorem lt_of_isDigit {z : List UInt8} {i : Nat}
    (h : isDigit (byteAt z i) = true) : i < z.length := by
  apply lt_of_byteAt_ne
  intro h0
  rw [h0] at h
  exact absurd h (by decide)

theorem lt_of_isXDigit {z : List UInt8} {i : Nat}
    (h : isXDigit (byteAt z i) = true) : i < z.length := by
  apply lt_of_byteAt_ne
  intro h0
  rw [h0] at h
  exact absurd h (by decide)

theorem scanQuote_le {delim : UInt8} {z : List UInt8} {n : Nat}
    (h : scanQuote delim z = some n) : n ≤ z.length := by
  rcases closed_of_scanQuote h with ⟨u, rest, hclosed⟩
  rw [hclosed.length, hclosed.split, List.length_append, List.length_cons]
  omega

theorem scanComment_le (z : List UInt8) : scanComment z ≤ z.length := by
  induction z using scanComment.induct with
  | case1 => exact Nat.le_refl 0
  | case2 c d z hend =>
      rw [scanComment, if_pos hend]
      simp
  | case3 c d z hend ih =>
      rw [scanComment, if_neg hend, List.length_cons]
      omega
  | case4 c => exact Nat.le_refl 1

theorem scanVariable_le (n : Nat) (z : List UInt8) :
    (scanVariable n z).2 ≤ z.length := by
  induction n, z using scanVariable.induct with
  | case1 n => exact Nat.le_refl 0
  | case2 n c z hid kind i hscan ih =>
      rw [hscan] at ih
      rw [scanVariable.eq_def]
      dsimp only
      rw [if_pos hid, hscan]
      exact Nat.succ_le_succ ih
  | case3 n c z hid hparen i hclose =>
      have hlt := lt_of_byteAt_eq hclose (by decide)
      rw [scanVariable.eq_def]
      dsimp only
      rw [if_neg hid, if_pos hparen, if_pos hclose]
      exact Nat.succ_le_succ hlt
  | case4 n c z hid hparen i hopen =>
      have hspan := span_le (fun d => d ≠ 0 && !isSpace d && d ≠ 0x29) z
      rw [scanVariable.eq_def]
      dsimp only
      rw [if_neg hid, if_pos hparen, if_neg hopen]
      exact Nat.succ_le_succ hspan
  | case5 n c hid hparen d z hcolon kind i hscan ih =>
      rw [hscan] at ih
      rw [scanVariable.eq_def]
      dsimp only
      rw [if_neg hid, if_neg hparen, if_pos hcolon, hscan]
      exact Nat.add_le_add_right ih 2
  | case6 n c hid hparen d z hcolon =>
      rw [scanVariable.eq_def]
      dsimp only
      rw [if_neg hid, if_neg hparen, if_neg hcolon]
      exact Nat.zero_le _
  | case7 n c hid hparen =>
      rw [scanVariable.eq_def]
      dsimp only
      rw [if_neg hid, if_neg hparen]
      exact Nat.zero_le _

/-! ## One token -/

/-- A token has a byte at least, and none behind the text. -/
structure Within (z : List UInt8) (t : TokenKind × Nat) : Prop where
  pos : 0 < t.2
  le : t.2 ≤ z.length

theorem Within.ite {z : List UInt8} {p : Prop} [Decidable p]
    {t u : TokenKind × Nat} (ht : p → Within z t) (hu : ¬p → Within z u) :
    Within z (if p then t else u) := by
  by_cases hp : p
  · rw [if_pos hp]
    exact ht hp
  · rw [if_neg hp]
    exact hu hp

/-- A token may go on over bytes of one sort. -/
theorem Within.span {z : List UInt8} {t : TokenKind × Nat} (h : Within z t)
    (kind : TokenKind) (p : UInt8 → Bool) :
    Within z (kind, t.2 + span p (z.drop t.2)) :=
  ⟨Nat.add_pos_left h.pos _, add_span_drop_le p h.le⟩

/-- What ends in a byte other than NUL is within the text. -/
theorem Within.of_byteAt {z : List UInt8} {i : Nat} {c : UInt8}
    (h : byteAt z i = c) (hc : c ≠ 0) (kind : TokenKind) :
    Within z (kind, i + 1) :=
  ⟨Nat.succ_pos i, lt_of_byteAt_eq h hc⟩

theorem Within.of_isDigit {z : List UInt8} {i : Nat}
    (h : isDigit (byteAt z i) = true) (kind : TokenKind) :
    Within z (kind, i + 1) :=
  ⟨Nat.succ_pos i, lt_of_isDigit h⟩

/-- A number begins with a digit, or with a point. -/
theorem numberToken_within {z : List UInt8}
    (h : isDigit (byteAt z 0) = true ∨ byteAt z 0 = 0x2e) :
    Within z (numberToken z) := by
  unfold numberToken
  refine Within.ite (fun hhex => ?_) fun _ => ?_
  · have hlt := lt_of_isXDigit hhex.2.2
    exact ⟨by omega, add_span_drop_le isXDigit hlt⟩
  have hfraction : Within z
      (if byteAt z (Lexer.span isDigit z) = 0x2e then
        (.float, Lexer.span isDigit z + 1 +
          Lexer.span isDigit (z.drop (Lexer.span isDigit z + 1)))
      else (.integer, Lexer.span isDigit z)) := by
    refine Within.ite (fun hpoint => ?_) fun hpoint => ?_
    · exact (Within.of_byteAt hpoint (by decide) .float).span .float isDigit
    · refine ⟨?_, span_le isDigit z⟩
      rcases z with _ | ⟨c, z⟩
      · rcases h with h | h <;> exact absurd h (by decide)
      · by_cases hc : isDigit c = true
        · dsimp only
          rw [Lexer.span, List.takeWhile_cons_of_pos hc]
          exact Nat.succ_pos _
        · have hzero : Lexer.span isDigit (c :: z) = 0 := by
            rw [Lexer.span, List.takeWhile_cons_of_neg hc]
            rfl
          rw [hzero] at hpoint
          exact absurd (h.resolve_left hc) hpoint
  dsimp only
  generalize (if byteAt z (Lexer.span isDigit z) = 0x2e then
    (TokenKind.float, Lexer.span isDigit z + 1 +
      Lexer.span isDigit (z.drop (Lexer.span isDigit z + 1)))
    else (.integer, Lexer.span isDigit z)) = t at hfraction ⊢
  rcases t with ⟨kind, i⟩
  have hexponent : Within z
      (if (byteAt z i = 0x65 ∨ byteAt z i = 0x45) ∧
          (isDigit (byteAt z (i + 1)) = true ∨
            (byteAt z (i + 1) = 0x2b ∨ byteAt z (i + 1) = 0x2d) ∧
              isDigit (byteAt z (i + 2)) = true) then
        (.float, i + 2 + Lexer.span isDigit (z.drop (i + 2)))
      else (kind, i)) := by
    refine Within.ite (fun hexp => ?_) fun _ => hfraction
    have hsign : Within z (.float, i + 1 + 1) := by
      rcases hexp.2 with hdigit | ⟨hsign | hsign, _⟩
      · exact Within.of_isDigit hdigit .float
      · exact Within.of_byteAt hsign (by decide) .float
      · exact Within.of_byteAt hsign (by decide) .float
    exact hsign.span .float isDigit
  dsimp only
  exact hexponent.span _ isIdChar

theorem blobToken_within {z : List UInt8} (h : byteAt z 1 = 0x27) :
    Within z (blobToken z) := by
  have hdigits := (Within.of_byteAt h (by decide) .blob).span .blob isXDigit
  unfold blobToken
  dsimp only at hdigits ⊢
  generalize 2 + Lexer.span isXDigit (z.drop 2) = i at hdigits ⊢
  refine Within.ite (fun _ => ?_) fun hgood => ?_
  · have hskip := hdigits.span .illegal fun c => c ≠ 0 && c ≠ 0x27
    dsimp only at hskip ⊢
    generalize i + Lexer.span (fun c => c ≠ 0 && c ≠ 0x27) (z.drop i) = j
      at hskip ⊢
    by_cases hend : byteAt z j = 0
    · rw [if_pos hend]
      exact hskip
    · rw [if_neg hend]
      exact Within.of_byteAt rfl hend .illegal
  · have hclose : byteAt z i = 0x27 := by
      by_contra h27
      exact hgood (Or.inl h27)
    exact Within.of_byteAt hclose (by decide) .blob

/-- What the table of character classes says of the classes with one meaning. -/
theorem aiClass_table : ∀ n : Fin 256,
    (aiClass n.val.toUInt8 = .digit → isDigit n.val.toUInt8 = true) ∧
      (aiClass n.val.toUInt8 = .space → isSpace n.val.toUInt8 = true) ∧
      (aiClass n.val.toUInt8 = .dot → n.val.toUInt8 = 0x2e) ∧
      (aiClass n.val.toUInt8 = .minus → n.val.toUInt8 = 0x2d) ∧
      (aiClass n.val.toUInt8 = .slash → n.val.toUInt8 = 0x2f) := by
  decide +kernel

theorem of_aiClass (c : UInt8) :
    (aiClass c = .digit → isDigit c = true) ∧
      (aiClass c = .space → isSpace c = true) ∧ (aiClass c = .dot → c = 0x2e) ∧
      (aiClass c = .minus → c = 0x2d) ∧ (aiClass c = .slash → c = 0x2f) := by
  have htable := aiClass_table ⟨c.toNat, c.toNat_lt⟩
  simpa using htable

theorem getToken_within {z : List UInt8} (hne : z ≠ []) :
    Within z (getToken z) := by
  have hone : ∀ kind, Within z (kind, 1) := fun kind =>
    ⟨Nat.one_pos, List.length_pos_iff.mpr hne⟩
  have htwo : ∀ {c : UInt8} (kind : TokenKind), byteAt z 1 = c → c ≠ 0 →
      Within z (kind, 2) := fun kind h hc => Within.of_byteAt h hc kind
  unfold getToken
  cases hclass : aiClass (byteAt z 0)
  case lp | rp | semi | plus | star | percent | comma | and | tilda | illegal =>
    exact hone _
  case space | varNum | id => exact (hone .id).span _ _
  case digit =>
    exact numberToken_within (Or.inl ((of_aiClass _).1 hclass))
  case dot =>
    exact Within.ite
      (fun _ => numberToken_within (Or.inr ((of_aiClass _).2.2.1 hclass)))
      fun _ => hone _
  case minus =>
    exact Within.ite (fun h => (htwo .space h (by decide)).span _ _) fun _ => hone _
  case slash =>
    refine Within.ite (fun _ => hone _) fun hslash => ?_
    have hcomment := scanComment_le (z.drop 2)
    have hlt : 2 < z.length := lt_of_byteAt_ne fun h => hslash (Or.inr h)
    rw [List.length_drop] at hcomment
    constructor <;> dsimp only <;> omega
  case eq =>
    dsimp only
    by_cases heq : byteAt z 1 = 0x3d
    · rw [if_pos heq]
      exact htwo _ heq (by decide)
    · rw [if_neg heq]
      exact hone _
  case bang | pipe =>
    exact Within.ite (fun h => htwo _ h (by decide)) fun _ => hone _
  case gt =>
    exact Within.ite (fun h => htwo _ h (by decide)) fun _ =>
      Within.ite (fun h => htwo _ h (by decide)) fun _ => hone _
  case lt =>
    exact Within.ite (fun h => htwo _ h (by decide)) fun _ =>
      Within.ite (fun h => htwo _ h (by decide)) fun _ =>
        Within.ite (fun h => htwo _ h (by decide)) fun _ => hone _
  case quote =>
    dsimp only
    cases hscan : scanQuote (byteAt z 0) (z.drop 1) with
    | none => exact (hone .id).span _ _
    | some n =>
        have hn := scanQuote_le hscan
        have hlen := (hone .id).le
        rw [List.length_drop] at hn
        dsimp only at hlen ⊢
        constructor <;> dsimp only <;> omega
  case quote2 =>
    have hopen := (hone .id).span .illegal fun c => c ≠ 0 && c ≠ 0x5d
    refine Within.ite (fun hclose => ?_) fun _ => ?_
    · have hlt := lt_of_byteAt_eq hclose (by decide)
      constructor <;> dsimp only <;> omega
    · have hle := hopen.le
      constructor <;> dsimp only at hle ⊢ <;> omega
  case dollar | varAlpha =>
    have hscan := scanVariable_le 0 (z.drop 1)
    have hlen := (hone .id).le
    rw [List.length_drop] at hscan
    dsimp only at hlen ⊢
    constructor <;> dsimp only <;> omega
  case kywd =>
    have hword := (hone .id).span .id fun c => aiClass c = .x || aiClass c = .kywd
    exact Within.ite (fun _ => hword.span _ _) fun _ => ⟨hword.pos, hword.le⟩
  case x =>
    exact Within.ite (fun h => blobToken_within h) fun _ => (hone .id).span _ _

/-! ## The whole text -/

/-- `sLastToken` at the start of the rest `z` of a text. -/
def lastToken (z : List UInt8) : Token :=
  { kind := (getToken z).1, text := z.take (getToken z).2 }

/-- One token after the other. -/
theorem tokenize_of_ne_nil {z : List UInt8} (hne : z ≠ []) :
    tokenize z =
      if (lastToken z).kind = .space then tokenize (z.drop (getToken z).2)
      else if (lastToken z).kind = .illegal then [lastToken z]
      else lastToken z :: tokenize (z.drop (getToken z).2) := by
  have hpos := (getToken_within hne).pos
  unfold lastToken
  rcases z with _ | ⟨c, z⟩
  · exact absurd rfl hne
  rcases hget : getToken (c :: z) with ⟨kind, n⟩
  rw [hget] at hpos
  rcases n with _ | n
  · exact absurd hpos (Nat.lt_irrefl 0)
  dsimp only
  by_cases hspace : kind = .space
  · subst hspace
    rw [if_pos rfl]
    unfold tokenize
    rw [tokenizeFrom, hget]
    exact tokenizeFrom_eq_drop n z
  · rw [if_neg hspace]
    by_cases hillegal : kind = .illegal
    · subst hillegal
      rw [if_pos rfl, tokenize_of_illegal hget]
    · rw [if_neg hillegal, tokenize_of_getToken hget hspace hillegal]
      rfl

theorem length_drop_getToken_lt {z : List UInt8} (hne : z ≠ []) :
    (z.drop (getToken z).2).length < z.length := by
  have hwithin := getToken_within hne
  have hpos := hwithin.pos
  have hle := hwithin.le
  rw [List.length_drop]
  omega

/-- A token is not empty. -/
theorem text_ne_nil {z : List UInt8} {t : Token} (ht : t ∈ tokenize z) :
    t.text ≠ [] := by
  induction hlen : z.length using Nat.strongRecOn generalizing z with
  | ind n ih =>
      by_cases hne : z = []
      · rw [hne] at ht
        exact absurd ht List.not_mem_nil
      have hrest := fun hmem : t ∈ tokenize (z.drop (getToken z).2) =>
        ih _ (hlen ▸ length_drop_getToken_lt hne) hmem rfl
      have hlast : (lastToken z).text ≠ [] := by
        have hpos := (getToken_within hne).pos
        simp only [lastToken, ne_eq, List.take_eq_nil_iff, not_or]
        exact ⟨hpos.ne', hne⟩
      rw [tokenize_of_ne_nil hne] at ht
      split at ht
      · exact hrest ht
      · split at ht
        · rwa [List.mem_singleton.mp ht]
        · rcases List.mem_cons.mp ht with rfl | hmem
          · exact hlast
          · exact hrest hmem

/-! ## What is passed over -/

/-- White space, or a comment. -/
def Gap (text : List UInt8) : Prop :=
  (∀ b ∈ text, isSpace b = true) ∨ ascii "--" <+: text ∨ ascii "/*" <+: text

theorem numberToken_ne_space (z : List UInt8) : (numberToken z).1 ≠ .space := by
  unfold numberToken
  grind

theorem scanVariable_ne_space (n : Nat) (z : List UInt8) :
    (scanVariable n z).1 ≠ .space := by
  induction n, z using scanVariable.induct <;> rw [scanVariable.eq_def] <;> grind

theorem blobToken_ne_space (z : List UInt8) : (blobToken z).1 ≠ .space := by
  unfold blobToken
  grind

theorem keywordCode_ne_space (z : List UInt8) : keywordCode z ≠ .space := by
  unfold keywordCode
  grind

/-- Three of the classes can begin a space. -/
theorem aiClass_of_space {z : List UInt8} (h : (getToken z).1 = .space) :
    aiClass (byteAt z 0) = .space ∨
      (aiClass (byteAt z 0) = .minus ∧ byteAt z 1 = 0x2d) ∨
      (aiClass (byteAt z 0) = .slash ∧ byteAt z 1 = 0x2a) := by
  unfold getToken at h
  grind [numberToken_ne_space, scanVariable_ne_space, blobToken_ne_space,
    keywordCode_ne_space]

theorem getToken_of_space {z : List UInt8} (h : aiClass (byteAt z 0) = .space) :
    (getToken z).2 = 1 + span isSpace (z.drop 1) := by
  unfold getToken
  rw [h]

theorem eq_cons_cons {z : List UInt8} {a b : UInt8} (h0 : byteAt z 0 = a)
    (h1 : byteAt z 1 = b) (hb : b ≠ 0) : ∃ w, z = a :: b :: w := by
  have hlt := lt_of_byteAt_eq h1 hb
  rcases z with _ | ⟨c, _ | ⟨d, w⟩⟩
  · exact absurd hlt (by simp)
  · exact absurd hlt (by simp)
  · exact ⟨w, by rw [show c = a from h0, show d = b from h1]⟩

/-- Spaces and comments alone are dropped. -/
theorem gap_of_getToken {z : List UInt8} (hne : z ≠ [])
    (h : (getToken z).1 = .space) : Gap (z.take (getToken z).2) := by
  rcases aiClass_of_space h with hclass | ⟨hclass, hsecond⟩ | ⟨hclass, hsecond⟩
  · rcases z with _ | ⟨c, z⟩
    · exact absurd rfl hne
    · refine Or.inl fun b hb => ?_
      have htext : (c :: z).take (1 + span isSpace z) = c :: z.takeWhile isSpace := by
        rw [Nat.add_comm, List.take_succ_cons, span,
          ← List.prefix_iff_eq_take.mp (List.takeWhile_prefix _)]
      rw [getToken_of_space hclass, show (c :: z).drop 1 = z from rfl, htext] at hb
      rcases List.mem_cons.mp hb with rfl | hb
      · exact (of_aiClass _).2.1 hclass
      · exact List.mem_takeWhile_imp hb
  · rcases eq_cons_cons ((of_aiClass _).2.2.2.1 hclass) hsecond (by decide) with
      ⟨w, rfl⟩
    have hlength : (getToken (0x2d :: 0x2d :: w)).2 =
        span (fun c => c ≠ 0 && c ≠ 0x0a) w + 2 := Nat.add_comm 2 _
    rw [hlength]
    exact Or.inr (Or.inl ⟨_, rfl⟩)
  · rcases eq_cons_cons ((of_aiClass _).2.2.2.2 hclass) hsecond (by decide) with
      ⟨w, rfl⟩
    have hget : getToken (0x2f :: 0x2a :: w) =
        if byteAt (0x2f :: 0x2a :: w) 1 ≠ 0x2a ∨ byteAt (0x2f :: 0x2a :: w) 2 = 0 then
          (.slash, 1)
        else (.space, 2 + scanComment w) := rfl
    by_cases hslash : byteAt (0x2f :: 0x2a :: w) 1 ≠ 0x2a ∨
        byteAt (0x2f :: 0x2a :: w) 2 = 0
    · rw [hget, if_pos hslash] at h
      exact absurd h (by decide)
    · rw [hget, if_neg hslash, Nat.add_comm]
      exact Or.inr (Or.inr ⟨_, rfl⟩)

end LidarPublisher.Sqlite.Extent
