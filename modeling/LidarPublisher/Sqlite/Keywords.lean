import LidarPublisher.Lib.Chained
import LidarPublisher.Sqlite.Lexer

/-!
# The hash table behind `keywordCode`

`keywordCode` does not compare a word with the 124 keywords.  It hashes the first
letter, the last letter and the length, follows a chain of candidates, and
compares with pieces of one text in which the keywords overlap.  The tables are
generated; this module reads them and shows that the search finds exactly the
keywords.
-/

namespace LidarPublisher.Sqlite.Keywords

open LidarPublisher.Lib.Bytes
open LidarPublisher.Lib.Chained
open LidarPublisher.Sqlite.Lexer

/-! ## The tables -/

/-- `zText`, in which the keywords overlap. -/
def zText : List UInt8 :=
  ['R', 'E', 'I', 'N', 'D', 'E', 'X', 'E', 'D', 'E', 'S', 'C', 'A', 'P', 'E',
   'A', 'C', 'H', 'E', 'C', 'K', 'E', 'Y', 'B', 'E', 'F', 'O', 'R', 'E', 'I',
   'G', 'N', 'O', 'R', 'E', 'G', 'E', 'X', 'P', 'L', 'A', 'I', 'N', 'S', 'T',
   'E', 'A', 'D', 'D', 'A', 'T', 'A', 'B', 'A', 'S', 'E', 'L', 'E', 'C', 'T',
   'A', 'B', 'L', 'E', 'F', 'T', 'H', 'E', 'N', 'D', 'E', 'F', 'E', 'R', 'R',
   'A', 'B', 'L', 'E', 'L', 'S', 'E', 'X', 'C', 'E', 'P', 'T', 'R', 'A', 'N',
   'S', 'A', 'C', 'T', 'I', 'O', 'N', 'A', 'T', 'U', 'R', 'A', 'L', 'T', 'E',
   'R', 'A', 'I', 'S', 'E', 'X', 'C', 'L', 'U', 'S', 'I', 'V', 'E', 'X', 'I',
   'S', 'T', 'S', 'A', 'V', 'E', 'P', 'O', 'I', 'N', 'T', 'E', 'R', 'S', 'E',
   'C', 'T', 'R', 'I', 'G', 'G', 'E', 'R', 'E', 'F', 'E', 'R', 'E', 'N', 'C',
   'E', 'S', 'C', 'O', 'N', 'S', 'T', 'R', 'A', 'I', 'N', 'T', 'O', 'F', 'F',
   'S', 'E', 'T', 'E', 'M', 'P', 'O', 'R', 'A', 'R', 'Y', 'U', 'N', 'I', 'Q',
   'U', 'E', 'R', 'Y', 'W', 'I', 'T', 'H', 'O', 'U', 'T', 'E', 'R', 'E', 'L',
   'E', 'A', 'S', 'E', 'A', 'T', 'T', 'A', 'C', 'H', 'A', 'V', 'I', 'N', 'G',
   'R', 'O', 'U', 'P', 'D', 'A', 'T', 'E', 'B', 'E', 'G', 'I', 'N', 'N', 'E',
   'R', 'E', 'C', 'U', 'R', 'S', 'I', 'V', 'E', 'B', 'E', 'T', 'W', 'E', 'E',
   'N', 'O', 'T', 'N', 'U', 'L', 'L', 'I', 'K', 'E', 'C', 'A', 'S', 'C', 'A',
   'D', 'E', 'L', 'E', 'T', 'E', 'C', 'A', 'S', 'E', 'C', 'O', 'L', 'L', 'A',
   'T', 'E', 'C', 'R', 'E', 'A', 'T', 'E', 'C', 'U', 'R', 'R', 'E', 'N', 'T',
   '_', 'D', 'A', 'T', 'E', 'D', 'E', 'T', 'A', 'C', 'H', 'I', 'M', 'M', 'E',
   'D', 'I', 'A', 'T', 'E', 'J', 'O', 'I', 'N', 'S', 'E', 'R', 'T', 'M', 'A',
   'T', 'C', 'H', 'P', 'L', 'A', 'N', 'A', 'L', 'Y', 'Z', 'E', 'P', 'R', 'A',
   'G', 'M', 'A', 'B', 'O', 'R', 'T', 'V', 'A', 'L', 'U', 'E', 'S', 'V', 'I',
   'R', 'T', 'U', 'A', 'L', 'I', 'M', 'I', 'T', 'W', 'H', 'E', 'N', 'W', 'H',
   'E', 'R', 'E', 'N', 'A', 'M', 'E', 'A', 'F', 'T', 'E', 'R', 'E', 'P', 'L',
   'A', 'C', 'E', 'A', 'N', 'D', 'E', 'F', 'A', 'U', 'L', 'T', 'A', 'U', 'T',
   'O', 'I', 'N', 'C', 'R', 'E', 'M', 'E', 'N', 'T', 'C', 'A', 'S', 'T', 'C',
   'O', 'L', 'U', 'M', 'N', 'C', 'O', 'M', 'M', 'I', 'T', 'C', 'O', 'N', 'F',
   'L', 'I', 'C', 'T', 'C', 'R', 'O', 'S', 'S', 'C', 'U', 'R', 'R', 'E', 'N',
   'T', '_', 'T', 'I', 'M', 'E', 'S', 'T', 'A', 'M', 'P', 'R', 'I', 'M', 'A',
   'R', 'Y', 'D', 'E', 'F', 'E', 'R', 'R', 'E', 'D', 'I', 'S', 'T', 'I', 'N',
   'C', 'T', 'D', 'R', 'O', 'P', 'F', 'A', 'I', 'L', 'F', 'R', 'O', 'M', 'F',
   'U', 'L', 'L', 'G', 'L', 'O', 'B', 'Y', 'I', 'F', 'I', 'S', 'N', 'U', 'L',
   'L', 'O', 'R', 'D', 'E', 'R', 'E', 'S', 'T', 'R', 'I', 'C', 'T', 'R', 'I',
   'G', 'H', 'T', 'R', 'O', 'L', 'L', 'B', 'A', 'C', 'K', 'R', 'O', 'W', 'U',
   'N', 'I', 'O', 'N', 'U', 'S', 'I', 'N', 'G', 'V', 'A', 'C', 'U', 'U', 'M',
   'V', 'I', 'E', 'W', 'I', 'N', 'I', 'T', 'I', 'A', 'L', 'L', 'Y'].map
    fun c => c.toNat.toUInt8

/-- `aHash`: the first link of every hash value. -/
def aHash : List Nat :=
  [76, 105, 117, 74, 0, 45, 0, 0, 82, 0, 77, 0, 0,
   42, 12, 78, 15, 0, 116, 85, 54, 112, 0, 19, 0, 0,
   121, 0, 119, 115, 0, 22, 93, 0, 9, 0, 0, 70, 71,
   0, 69, 6, 0, 48, 90, 102, 0, 118, 101, 0, 0, 44,
   0, 103, 24, 0, 17, 0, 122, 53, 23, 0, 5, 110, 25,
   96, 0, 0, 124, 106, 60, 123, 57, 28, 55, 0, 91, 0,
   100, 26, 0, 99, 0, 0, 0, 95, 92, 97, 88, 109, 14,
   39, 108, 0, 81, 0, 18, 89, 111, 32, 0, 120, 80, 113,
   62, 46, 84, 0, 0, 94, 40, 59, 114, 0, 36, 0, 0,
   29, 0, 86, 63, 64, 0, 20, 61, 0, 56]

/-- `aNext`: the link behind every keyword. -/
def aNext : List Nat :=
  [0, 0, 0, 0, 4, 0, 0, 0, 0, 0, 0, 0, 0,
   0, 2, 0, 0, 0, 0, 0, 0, 13, 0, 0, 0, 0,
   0, 7, 0, 0, 0, 0, 0, 0, 0, 0, 0, 0, 0,
   0, 0, 0, 0, 33, 0, 21, 0, 0, 0, 0, 0, 50,
   0, 43, 3, 47, 0, 0, 0, 0, 30, 0, 58, 0, 38,
   0, 0, 0, 1, 66, 0, 0, 67, 0, 41, 0, 0, 0,
   0, 0, 0, 49, 65, 0, 0, 0, 0, 31, 52, 16, 34,
   10, 0, 0, 0, 0, 0, 0, 0, 11, 72, 79, 0, 8,
   0, 104, 98, 0, 107, 0, 87, 0, 75, 51, 0, 27, 37,
   73, 83, 0, 35, 68, 0, 0]

/-- `aLen`: the length of every keyword. -/
def aLen : List Nat :=
  [7, 7, 5, 4, 6, 4, 5, 3, 6, 7, 3, 6, 6,
   7, 7, 3, 8, 2, 6, 5, 4, 4, 3, 10, 4, 6,
   11, 6, 2, 7, 5, 5, 9, 6, 9, 9, 7, 10, 10,
   4, 6, 2, 3, 9, 4, 2, 6, 5, 7, 4, 5, 7,
   6, 6, 5, 6, 5, 5, 9, 7, 7, 3, 2, 4, 4,
   7, 3, 6, 4, 7, 6, 12, 6, 9, 4, 6, 5, 4,
   7, 6, 5, 6, 7, 5, 4, 5, 6, 5, 7, 3, 7,
   13, 2, 2, 4, 6, 6, 8, 5, 17, 12, 7, 8, 8,
   2, 4, 4, 4, 4, 4, 2, 2, 6, 5, 8, 5, 8,
   3, 5, 5, 6, 4, 9, 3]

/-- `aOffset`: the place of every keyword in `zText`. -/
def aOffset : List Nat :=
  [0, 2, 2, 8, 9, 14, 16, 20, 23, 25, 25, 29, 33,
   36, 41, 46, 48, 53, 54, 59, 62, 65, 67, 69, 78, 81,
   86, 91, 95, 96, 101, 105, 109, 117, 122, 128, 136, 142, 152,
   159, 162, 162, 165, 167, 167, 171, 176, 179, 184, 184, 188, 192,
   199, 204, 209, 212, 218, 221, 225, 234, 240, 240, 240, 243, 246,
   250, 251, 255, 261, 265, 272, 278, 290, 296, 305, 307, 313, 318,
   320, 327, 332, 337, 343, 349, 354, 358, 361, 367, 371, 378, 380,
   387, 389, 391, 400, 404, 410, 416, 424, 429, 429, 445, 452, 459,
   460, 467, 471, 475, 479, 483, 486, 488, 490, 496, 500, 508, 513,
   521, 524, 529, 534, 540, 544, 549]

/-- Links lead back in the table. -/
theorem aNext_le (i : Nat) : aNext.getD i 0 ≤ i := by
  have htable : ∀ p ∈ aNext.zipIdx, p.1 ≤ p.2 := by decide +kernel
  rw [List.getD_eq_getElem?_getD]
  cases h : aNext[i]? with
  | none => exact Nat.zero_le i
  | some k => exact htable (k, i) (List.mk_mem_zipIdx_iff_getElem?.mpr h)

/-- The chains of the table. -/
def links : Links where
  next i := aNext.getD i 0
  next_le := aNext_le

/-! ## The search -/

/-- The hash value of `z`, an index of `aHash`. -/
def hash (z : List UInt8) : Nat :=
  ((toLower (byteAt z 0)).toNat * 4 ^^^
    (toLower (byteAt z (z.length - 1))).toNat * 3 ^^^ z.length) % 127

/-- The counter `j` behind the comparison of `z` with the text at `zKW`. -/
def agreement : (z zKW : List UInt8) → Nat
  | c :: z, k :: zKW => if c &&& 0xdf = k then agreement z zKW + 1 else 0
  | _, _ => 0

/-- The two tests of the loop over candidate `i`. -/
def isKeyword (z : List UInt8) (i : Nat) : Bool :=
  aLen.getD i 0 = z.length &&
    z.length ≤ agreement z (zText.drop (aOffset.getD i 0))

/-- The loop of `keywordCode`: the index at which it breaks. -/
def lookup (z : List UInt8) : Option Nat :=
  if 2 ≤ z.length then links.search (isKeyword z) (aHash.getD (hash z) 0) else none

/-- `keywordCode` as it stands in the source. -/
def hashKeywordCode (z : List UInt8) : TokenKind :=
  match lookup z with
  | some _ => .keyword
  | none => .id

/-! ## What the tables hold -/

/-- Keyword `i` of the tables. -/
def word (i : Nat) : List UInt8 :=
  (zText.drop (aOffset.getD i 0)).take (aLen.getD i 0)

/-- The pieces of `z` of given offsets and lengths, cut off from `pos` on in one
pass. -/
def cut (z : List UInt8) (pos : Nat) : List (Nat × Nat) → List (List UInt8)
  | [] => []
  | (offset, len) :: ps =>
      (z.drop (offset - pos)).take len :: cut (z.drop (offset - pos)) offset ps

/-- The keywords of the tables in their order. -/
def words : List (List UInt8) := cut zText 0 (aOffset.zip aLen)

/-- The comparison of the source clears bit `0x20`. -/
def folded (z : List UInt8) : List UInt8 := z.map (· &&& 0xdf)

/-- Capital letters. -/
def isUpper (c : UInt8) : Bool := 0x41 ≤ c && c ≤ 0x5a

theorem cut_drop {z : List UInt8} {pos : Nat} {ps : List (Nat × Nat)}
    (h : (pos :: ps.map Prod.fst).IsChain (· ≤ ·)) :
    cut (z.drop pos) pos ps = ps.map fun p => (z.drop p.1).take p.2 := by
  induction ps generalizing pos with
  | nil => rfl
  | cons p ps ih =>
      rw [List.map_cons, List.isChain_cons_cons] at h
      have hdrop : (z.drop pos).drop (p.1 - pos) = z.drop p.1 := by
        rw [List.drop_drop, Nat.add_sub_cancel' h.1]
      rw [cut, hdrop, ih h.2, List.map_cons]

/-- What is checked of the tables, in one evaluation.  Offsets only grow, no piece
reaches past `zText`, and chains start in the table.  The words have two bytes or
more, and are capital at both ends, which is all the hash reads.  Every word is the
first of its text on the chain of its hash value.  The list of keywords has the
words in the order of the tables. -/
theorem tables_check :
    ((0 :: (aOffset.zip aLen).map Prod.fst).IsChain (· ≤ ·) ∧
      (∀ p ∈ aOffset.zip aLen, p.1 + p.2 ≤ zText.length) ∧ ∀ k ∈ aHash, k ≤ 124) ∧
    (∀ w ∈ words, (2 ≤ w.length ∧ w.length < 18) ∧ folded w = w ∧
      isUpper (byteAt w 0) = true ∧ isUpper (byteAt w (w.length - 1)) = true) ∧
    (∀ p ∈ words.zipIdx,
      links.search (fun j => words[j]? = some p.1) (aHash.getD (hash p.1) 0) =
        some p.2) ∧
    ∀ n < 18, (keywords n).map ascii = words.filter (·.length = n) := by
  decide +kernel

theorem words_eq : words =
    (aOffset.zip aLen).map fun p => (zText.drop p.1).take p.2 :=
  cut_drop (z := zText) tables_check.1.1

theorem getElem?_zip_tables {i : Nat} (hi : i < 124) :
    (aOffset.zip aLen)[i]? = some (aOffset.getD i 0, aLen.getD i 0) := by
  have hoffset : i < aOffset.length := hi
  have hlen : i < aLen.length := hi
  rw [List.getElem?_zip_eq_some, List.getD_eq_getElem?_getD,
    List.getD_eq_getElem?_getD, List.getElem?_eq_getElem hoffset,
    List.getElem?_eq_getElem hlen]
  exact ⟨rfl, rfl⟩

theorem getElem?_words (i : Nat) (w : List UInt8) :
    words[i]? = some w ↔ i < 124 ∧ word i = w := by
  rw [words_eq, List.getElem?_map, Option.map_eq_some_iff]
  constructor
  · rintro ⟨⟨offset, len⟩, h, rfl⟩
    rcases List.getElem?_zip_eq_some.mp h with ⟨hoffset, hlen⟩
    refine ⟨(List.getElem?_eq_some_iff.mp hoffset).1, ?_⟩
    rw [word, List.getD_eq_getElem?_getD, List.getD_eq_getElem?_getD, hoffset, hlen]
    rfl
  · rintro ⟨hi, rfl⟩
    exact ⟨_, getElem?_zip_tables hi, rfl⟩

theorem mem_words_iff {w : List UInt8} : w ∈ words ↔ ∃ i < 124, word i = w := by
  rw [List.mem_iff_getElem?]
  exact exists_congr fun i => getElem?_words i w

theorem length_of_mem_words {w : List UInt8} (hw : w ∈ words) :
    2 ≤ w.length ∧ w.length < 18 :=
  (tables_check.2.1 w hw).1

/-- The pieces lie inside `zText`. -/
theorem offset_add_len_le {i : Nat} (hi : i < 124) :
    aOffset.getD i 0 + aLen.getD i 0 ≤ zText.length := by
  have hpiece := List.mem_of_getElem? (getElem?_zip_tables hi)
  exact tables_check.1.2.1 _ hpiece

theorem length_word {i : Nat} (hi : i < 124) :
    (word i).length = aLen.getD i 0 := by
  rw [word, List.length_take, List.length_drop]
  have hwithin := offset_add_len_le hi
  omega

/-- The chains start in the table. -/
theorem aHash_le (h : Nat) : aHash.getD h 0 ≤ 124 := by
  rw [List.getD_eq_getElem?_getD]
  cases hk : aHash[h]? with
  | none => exact Nat.zero_le 124
  | some k => exact tables_check.1.2.2 k (List.mem_of_getElem? hk)

theorem keywords_of_le {n : Nat} (h : 18 ≤ n) : keywords n = [] := by
  obtain ⟨m, rfl⟩ := Nat.exists_eq_add_of_le' h
  rfl

theorem mem_keywords_iff (w : List UInt8) :
    w ∈ (keywords w.length).map ascii ↔ w ∈ words := by
  rcases Nat.lt_or_ge w.length 18 with hlt | hge
  · rw [tables_check.2.2.2 _ hlt, List.mem_filter, decide_eq_true_eq]
    exact and_iff_left rfl
  · rw [keywords_of_le hge]
    constructor
    · intro h
      exact absurd h List.not_mem_nil
    · intro h
      exact absurd (length_of_mem_words h).2 (Nat.not_lt_of_le hge)

/-! ## One candidate -/

theorem le_agreement_iff (z zKW : List UInt8) :
    z.length ≤ agreement z zKW ↔ folded z = zKW.take z.length := by
  induction z generalizing zKW with
  | nil => simp [folded]
  | cons c z ih =>
      cases zKW with
      | nil => simp [agreement, folded]
      | cons k zKW =>
          rw [agreement, List.length_cons, List.take_succ_cons, folded,
            List.map_cons, List.cons.injEq]
          split
          · next hc => rw [Nat.add_le_add_iff_right, ih, folded]; simp [hc]
          · next hc => simp [hc]

/-- The two tests of the loop compare with a whole keyword. -/
theorem isKeyword_iff (z : List UInt8) {i : Nat} (hi : i < 124) :
    isKeyword z i = true ↔ word i = folded z := by
  have hlen := length_word hi
  rw [isKeyword, Bool.and_eq_true, decide_eq_true_eq, decide_eq_true_eq,
    le_agreement_iff]
  constructor
  · rintro ⟨hz, htext⟩
    rw [word, hz, htext]
  · intro h
    have hz : aLen.getD i 0 = z.length := by
      rw [← hlen, h, folded, List.length_map]
    exact ⟨hz, by rw [← h, word, hz]⟩

/-! ## The hash -/

theorem byteAt_folded (z : List UInt8) (i : Nat) :
    byteAt (folded z) i = byteAt z i &&& 0xdf := by
  rw [byteAt, byteAt, folded, List.getD_eq_getElem?_getD, List.getD_eq_getElem?_getD,
    List.getElem?_map]
  cases z[i]? <;> rfl

theorem toLower_table : ∀ n : Fin 256, isUpper (n.val.toUInt8 &&& 0xdf) = true →
    toLower n.val.toUInt8 = toLower (n.val.toUInt8 &&& 0xdf) := by
  decide +kernel

theorem toLower_of_isUpper {c : UInt8} (h : isUpper (c &&& 0xdf) = true) :
    toLower c = toLower (c &&& 0xdf) := by
  have htable := toLower_table ⟨c.toNat, c.toNat_lt⟩
  simp only [Nat.toUInt8_eq, UInt8.ofNat_toNat] at htable
  exact htable h

/-- A word has the hash value of the keyword it compares equal to. -/
theorem hash_folded {z : List UInt8} (hz : folded z ∈ words) :
    hash (folded z) = hash z := by
  rcases tables_check.2.1 _ hz with ⟨-, -, hfirst, hlast⟩
  have hlen : (folded z).length = z.length := by rw [folded, List.length_map]
  rw [hlen, byteAt_folded] at hlast
  rw [byteAt_folded] at hfirst
  rw [hash, hash, hlen, byteAt_folded, byteAt_folded,
    toLower_of_isUpper hfirst, toLower_of_isUpper hlast]

/-! ## The search finds the keywords -/

theorem folded_of_lookup {z : List UInt8} {i : Nat} (h : lookup z = some i) :
    i < 124 ∧ word i = folded z := by
  rw [lookup] at h
  split at h
  · rcases Links.onChain_of_search h with ⟨hon, htests⟩
    have hi : i < 124 := Nat.lt_of_lt_of_le hon.lt (aHash_le _)
    exact ⟨hi, (isKeyword_iff z hi).mp htests⟩
  · exact absurd h (by simp)

theorem lookup_of_folded {z : List UInt8} {i : Nat} (hi : i < 124)
    (hz : word i = folded z) : lookup z = some i := by
  have hword : words[i]? = some (folded z) := (getElem?_words i _).mpr ⟨hi, hz⟩
  have hmem : folded z ∈ words := List.mem_of_getElem? hword
  have hlen : 2 ≤ z.length := by
    have hfolded := (length_of_mem_words hmem).1
    rwa [folded, List.length_map] at hfolded
  have htests : ∀ j < aHash.getD (hash z) 0,
      isKeyword z j = decide (words[j]? = some (folded z)) := by
    intro j hj
    have hj124 : j < 124 := Nat.lt_of_lt_of_le hj (aHash_le _)
    rw [Bool.eq_iff_iff, isKeyword_iff z hj124, decide_eq_true_eq, getElem?_words,
      and_iff_right hj124]
  rw [lookup, if_pos hlen, Links.search_congr htests, ← hash_folded hmem]
  exact tables_check.2.2.1 (folded z, i) (List.mk_mem_zipIdx_iff_getElem?.mpr hword)

/-- The hashed search agrees with the plain list of keywords on every word, ends at
the keyword's own index, and compares with pieces inside `zText` only. -/
theorem hashKeywordCode_eq (z : List UInt8) :
    hashKeywordCode z = keywordCode z ∧
      (∀ i, lookup z = some i ↔ i < 124 ∧ word i = folded z) ∧
      ∀ i, links.OnChain (aHash.getD (hash z) 0) i →
        i < 124 ∧ aOffset.getD i 0 + aLen.getD i 0 ≤ zText.length := by
  have hiff : ∀ i, lookup z = some i ↔ i < 124 ∧ word i = folded z := fun i =>
    ⟨folded_of_lookup, fun h => lookup_of_folded h.1 h.2⟩
  have hlist : (∃ i, lookup z = some i) ↔
      folded z ∈ (keywords z.length).map ascii := by
    have hmem := mem_keywords_iff (folded z)
    rw [folded, List.length_map, ← folded] at hmem
    rw [hmem, mem_words_iff]
    exact exists_congr hiff
  refine ⟨?_, hiff, ?_⟩
  · rw [hashKeywordCode, keywordCode]
    cases hfound : lookup z with
    | some i => exact (if_pos (hlist.mp ⟨i, hfound⟩)).symm
    | none =>
        refine (if_neg fun hmem => ?_).symm
        rcases hlist.mpr hmem with ⟨i, hi⟩
        exact absurd (hfound.symm.trans hi) (by simp)
  · intro i hon
    have hi : i < 124 := Nat.lt_of_lt_of_le hon.lt (aHash_le _)
    exact ⟨hi, offset_add_len_le hi⟩

end LidarPublisher.Sqlite.Keywords
