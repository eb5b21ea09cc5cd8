import Mathlib.Data.List.Basic
import Mathlib.Data.List.Infix

/-!
# Reading a chunked stream up to a delimiter

A source hands out its stream in chunks.  `readUntil` appends whole chunks to
a buffer until the buffer contains the delimiter, so what the buffer ends with
depends on where the chunks end.  A line is read alone exactly when its end is
the end of a chunk.
-/

namespace LidarPublisher.Lib.ReadUntil

variable {α : Type*}

/-- Append whole chunks to `buf` until it contains `delim`: the buffer and the
chunks not touched, or `none` when the stream ends first. -/
def readUntil [DecidableEq α] (delim buf : List α) :
    List (List α) → Option (List α × List (List α))
  | [] => if delim <:+: buf then some (buf, []) else none
  | c :: cs =>
      if delim <:+: buf then some (buf, c :: cs)
      else readUntil delim (buf ++ c) cs

/-! ## Chunk boundaries -/

/-- Some of the chunks end after exactly `n` elements. -/
def Boundary (chunks : List (List α)) (n : Nat) : Prop :=
  ∃ k, (chunks.take k).flatten.length = n

@[simp] theorem boundary_zero (chunks : List (List α)) : Boundary chunks 0 :=
  ⟨0, rfl⟩

theorem length_flatten_take_mono (chunks : List (List α)) {j k : Nat}
    (hjk : j ≤ k) :
    (chunks.take j).flatten.length ≤ (chunks.take k).flatten.length := by
  obtain ⟨m, rfl⟩ := Nat.exists_eq_add_of_le hjk
  rw [List.take_add, List.flatten_append, List.length_append]
  omega

/-- The boundaries behind some chunks are those of the remaining chunks. -/
theorem boundary_append_iff (pre rest : List (List α)) (m : Nat) :
    Boundary (pre ++ rest) (pre.flatten.length + m) ↔ Boundary rest m := by
  constructor
  · intro h
    rcases h with ⟨j, hj⟩
    rcases Nat.le_total pre.length j with hle | hle
    · obtain ⟨i, rfl⟩ := Nat.exists_eq_add_of_le hle
      rw [List.take_length_add_append, List.flatten_append,
        List.length_append] at hj
      exact ⟨i, by omega⟩
    · have hmono := length_flatten_take_mono (pre ++ rest) hle
      rw [List.take_left] at hmono
      obtain rfl : m = 0 := by omega
      exact boundary_zero rest
  · intro h
    rcases h with ⟨j, hj⟩
    refine ⟨pre.length + j, ?_⟩
    rw [List.take_length_add_append, List.flatten_append, List.length_append,
      hj]

/-! ## Lines -/

/-- A list that contains the delimiter, which none of its proper beginnings
does. -/
def IsLine (delim line : List α) : Prop :=
  delim <:+: line ∧ ∀ p, p <+: line → delim <:+: p → p = line

/-- In a stream that starts with a line, the beginnings that contain the
delimiter are those that contain the line. -/
theorem IsLine.infix_iff {delim line : List α} (hline : IsLine delim line)
    {buf rest tail : List α} (heq : buf ++ rest = line ++ tail) :
    delim <:+: buf ↔ line <+: buf := by
  have hbuf : buf <+: line ++ tail := ⟨rest, heq⟩
  have hstart : line <+: line ++ tail := List.prefix_append _ _
  constructor
  · intro hdelim
    rcases List.prefix_or_prefix_of_prefix hbuf hstart with hle | hle
    · rw [hline.2 buf hle hdelim]
    · exact hle
  · intro hle
    exact hline.1.trans hle.isInfix

/-- What reading a line returns: the line with whatever else its last chunk
carries.  If that is not empty, no chunk ends where the line does. -/
theorem readUntil_line [DecidableEq α] {delim line : List α}
    (hline : IsLine delim line) {chunks : List (List α)} (buf : List α)
    {tail : List α} (heq : buf ++ chunks.flatten = line ++ tail) :
    ∃ more k, readUntil delim buf chunks =
        some (line ++ more, chunks.drop k) ∧
      more ++ (chunks.drop k).flatten = tail ∧
      buf.length + (chunks.take k).flatten.length =
        line.length + more.length ∧
      (more ≠ [] → ∀ j,
        buf.length + (chunks.take j).flatten.length ≠ line.length) := by
  -- The buffer grows by one chunk; the boundary moves on with it.
  induction chunks generalizing buf with
  | nil =>
      rw [List.flatten_nil, List.append_nil] at heq
      have hdelim : delim <:+: buf := by
        rw [heq]
        exact hline.1.trans (List.prefix_append _ _).isInfix
      refine ⟨tail, 0, ?_, by simp, by simp [heq], ?_⟩
      · rw [readUntil, if_pos hdelim, heq]
        rfl
      · intro htail j
        have hpos := List.length_pos_iff.mpr htail
        rw [heq, List.length_append]
        omega
  | cons c cs ih =>
      by_cases hdelim : delim <:+: buf
      · obtain ⟨more, rfl⟩ := (hline.infix_iff heq).mp hdelim
        refine ⟨more, 0, ?_, ?_, by simp, ?_⟩
        · rw [readUntil, if_pos hdelim]
          rfl
        · rw [List.append_assoc] at heq
          exact List.append_cancel_left heq
        · intro hmore j
          have hpos := List.length_pos_iff.mpr hmore
          rw [List.length_append]
          omega
      · have hgrown : (buf ++ c) ++ cs.flatten = line ++ tail := by
          rw [List.append_assoc, ← List.flatten_cons]
          exact heq
        obtain ⟨more, k, hread, htail, hlen, hnone⟩ := ih (buf ++ c) hgrown
        refine ⟨more, k + 1, ?_, htail, ?_, ?_⟩
        · rw [readUntil, if_neg hdelim]
          exact hread
        · rw [List.length_append] at hlen
          rw [List.take_succ_cons, List.flatten_cons, List.length_append]
          omega
        · intro hmore j
          cases j with
          | zero =>
              intro hlength
              rw [List.take_zero, List.flatten_nil, List.length_nil,
                Nat.add_zero] at hlength
              have hbuf : buf = line :=
                (List.append_inj heq hlength).1
              exact hdelim (hbuf ▸ hline.1)
          | succ j =>
              have hj := hnone hmore j
              rw [List.length_append] at hj
              rw [List.take_succ_cons, List.flatten_cons, List.length_append]
              omega

/-- A read that starts at a line, from an empty buffer. -/
theorem readUntil_nil_line [DecidableEq α] {delim line : List α}
    (hline : IsLine delim line) {chunks : List (List α)} {tail : List α}
    (heq : chunks.flatten = line ++ tail) :
    ∃ more rest, readUntil delim [] chunks = some (line ++ more, rest) ∧
      more ++ rest.flatten = tail ∧
      (Boundary chunks line.length ↔ more = []) := by
  obtain ⟨more, k, hread, htail, hlen, hnone⟩ :=
    readUntil_line hline [] heq
  rw [List.length_nil, Nat.zero_add] at hlen
  refine ⟨more, chunks.drop k, hread, htail, ?_, ?_⟩
  · intro h
    rcases h with ⟨j, hj⟩
    by_contra hmore
    exact hnone hmore j (by rw [List.length_nil, Nat.zero_add, hj])
  · rintro rfl
    exact ⟨k, by simpa using hlen⟩

/-- Reading takes chunks off the front. -/
theorem suffix_of_readUntil [DecidableEq α] {delim buf got : List α}
    {chunks rest : List (List α)}
    (h : readUntil delim buf chunks = some (got, rest)) : rest <:+ chunks := by
  induction chunks generalizing buf with
  | nil =>
      rw [readUntil] at h
      split at h
      · obtain ⟨-, rfl⟩ := Prod.mk.inj (Option.some.inj h)
        exact List.suffix_rfl
      · exact absurd h (by simp)
  | cons c cs ih =>
      rw [readUntil] at h
      split at h
      · obtain ⟨-, rfl⟩ := Prod.mk.inj (Option.some.inj h)
        exact List.suffix_rfl
      · exact (ih h).trans (List.suffix_cons c cs)

end LidarPublisher.Lib.ReadUntil
