import Mathlib.Data.List.Basic

/-!
# Cutting a stream into lines

A reader that appends to an unfinished line until it meets the end-of-line
mark.  `segments` are the lines it finishes and `residue` is what is left of the
last one, both as functions of the unfinished line it starts with.
-/

namespace LidarPublisher.Lib.Lines

variable {α : Type*} [DecidableEq α]

/-- The lines finished by `bs`, the first of which begins with `acc`. -/
def segments (eol : α) : (acc : List α) → List α → List (List α)
  | _, [] => []
  | acc, b :: bs =>
      if b = eol then acc :: segments eol [] bs
      else segments eol (acc ++ [b]) bs

/-- The line left unfinished by `bs`. -/
def residue (eol : α) : (acc : List α) → List α → List α
  | acc, [] => acc
  | acc, b :: bs =>
      if b = eol then residue eol [] bs else residue eol (acc ++ [b]) bs

variable {eol : α}

@[simp] theorem segments_nil (acc : List α) : segments eol acc [] = [] := rfl

@[simp] theorem residue_nil (acc : List α) : residue eol acc [] = acc := rfl

theorem segments_cons_eol (acc bs : List α) :
    segments eol acc (eol :: bs) = acc :: segments eol [] bs := by
  rw [segments, if_pos rfl]

theorem segments_cons_of_ne {b : α} (h : b ≠ eol) (acc bs : List α) :
    segments eol acc (b :: bs) = segments eol (acc ++ [b]) bs := by
  rw [segments, if_neg h]

theorem residue_cons_eol (acc bs : List α) :
    residue eol acc (eol :: bs) = residue eol [] bs := by
  rw [residue, if_pos rfl]

theorem residue_cons_of_ne {b : α} (h : b ≠ eol) (acc bs : List α) :
    residue eol acc (b :: bs) = residue eol (acc ++ [b]) bs := by
  rw [residue, if_neg h]

/-! ## Cutting in pieces -/

/-- A stream may be cut anywhere: the second part starts with the residue of
the first. -/
theorem residue_append (acc xs ys : List α) :
    residue eol acc (xs ++ ys) = residue eol (residue eol acc xs) ys := by
  induction xs generalizing acc with
  | nil => rfl
  | cons x xs ih =>
      by_cases hx : x = eol
      · subst hx
        rw [List.cons_append, residue_cons_eol, residue_cons_eol, ih]
      · rw [List.cons_append, residue_cons_of_ne hx, residue_cons_of_ne hx, ih]

theorem segments_append (acc xs ys : List α) :
    segments eol acc (xs ++ ys) =
      segments eol acc xs ++ segments eol (residue eol acc xs) ys := by
  induction xs generalizing acc with
  | nil => rfl
  | cons x xs ih =>
      by_cases hx : x = eol
      · subst hx
        rw [List.cons_append, segments_cons_eol, segments_cons_eol,
          residue_cons_eol, ih, List.cons_append]
      · rw [List.cons_append, segments_cons_of_ne hx, segments_cons_of_ne hx,
          residue_cons_of_ne hx, ih]

/-! ## The unfinished line at the start -/

/-- Without an end-of-line mark no line is finished. -/
theorem segments_eq_nil_iff (acc bs : List α) :
    segments eol acc bs = [] ↔ eol ∉ bs := by
  induction bs generalizing acc with
  | nil => simp
  | cons b bs ih =>
      by_cases hb : b = eol
      · subst hb
        simp [segments_cons_eol]
      · rw [segments_cons_of_ne hb, ih]
        simp [Ne.symm hb]

/-- With one, the first line finished begins with the unfinished line. -/
theorem exists_segments_eq {bs : List α} (h : eol ∈ bs) :
    ∃ pre lines, ∀ acc, segments eol acc bs = (acc ++ pre) :: lines := by
  induction bs with
  | nil => simp at h
  | cons b bs ih =>
      by_cases hb : b = eol
      · subst hb
        refine ⟨[], segments b [] bs, fun acc => ?_⟩
        rw [segments_cons_eol, List.append_nil]
      · have htail : eol ∈ bs := (List.mem_cons.mp h).resolve_left (Ne.symm hb)
        obtain ⟨pre, lines, hpre⟩ := ih htail
        refine ⟨b :: pre, lines, fun acc => ?_⟩
        rw [segments_cons_of_ne hb, hpre, List.append_assoc]
        rfl

/-- Two unfinished lines are told apart by the first end-of-line mark, and by
nothing else. -/
theorem segments_eq_iff (acc acc' bs : List α) :
    segments eol acc bs = segments eol acc' bs ↔ acc = acc' ∨ eol ∉ bs := by
  by_cases h : eol ∈ bs
  · obtain ⟨pre, lines, hpre⟩ := exists_segments_eq h
    rw [hpre, hpre]
    constructor
    · intro heq
      exact Or.inl (List.append_cancel_right (List.cons.inj heq).1)
    · rintro (rfl | hnone)
      · rfl
      · exact absurd h hnone
  · rw [(segments_eq_nil_iff acc bs).mpr h, (segments_eq_nil_iff acc' bs).mpr h]
    exact iff_of_true rfl (Or.inr h)

/-! ## Lines and the split of the stream -/

/-- The lines and the unfinished rest are the stream split at the end-of-line
mark. -/
theorem segments_append_residue {acc : List α} (h : eol ∉ acc) (bs : List α) :
    segments eol acc bs ++ [residue eol acc bs] = (acc ++ bs).splitOn eol := by
  induction bs generalizing acc with
  | nil => simpa using (List.splitOn_eq_singleton h).symm
  | cons b bs ih =>
      by_cases hb : b = eol
      · subst hb
        rw [segments_cons_eol, residue_cons_eol, List.cons_append,
          ih List.not_mem_nil, List.nil_append,
          List.splitOn_append_cons_self_of_not_mem h]
      · have hacc : eol ∉ acc ++ [b] := by simp [h, Ne.symm hb]
        rw [segments_cons_of_ne hb, residue_cons_of_ne hb, ih hacc,
          List.append_assoc, List.singleton_append]

/-- No line holds the mark that ends it. -/
theorem eol_not_mem {acc : List α} (h : eol ∉ acc) (bs : List α) :
    ∀ line ∈ segments eol acc bs ++ [residue eol acc bs], eol ∉ line := by
  induction bs generalizing acc with
  | nil => simpa using h
  | cons b bs ih =>
      by_cases hb : b = eol
      · subst hb
        rw [segments_cons_eol, residue_cons_eol, List.cons_append]
        intro line hline
        rcases List.mem_cons.mp hline with heq | htail
        · exact heq ▸ h
        · exact ih List.not_mem_nil line htail
      · rw [segments_cons_of_ne hb, residue_cons_of_ne hb]
        exact ih (by simp [h, Ne.symm hb])

/-- Cutting loses nothing and makes up nothing: every element is in a line, in
the rest, or the end of a line. -/
theorem length_segments_add (eol : α) (acc bs : List α) :
    (segments eol acc bs).flatten.length + (segments eol acc bs).length +
        (residue eol acc bs).length = acc.length + bs.length := by
  induction bs generalizing acc with
  | nil => simp
  | cons b bs ih =>
      by_cases hb : b = eol
      · have hrest := ih []
        rw [hb, segments_cons_eol, residue_cons_eol, List.flatten_cons,
          List.length_append, List.length_cons, List.length_cons]
        rw [List.length_nil] at hrest
        omega
      · have hrest := ih (acc ++ [b])
        rw [segments_cons_of_ne hb, residue_cons_of_ne hb, List.length_cons]
        rw [List.length_append, List.length_singleton] at hrest
        omega

end LidarPublisher.Lib.Lines
