import Mathlib.Data.List.Induction

/-!
# A sequence of writes to a list

Each element of a sequence writes a value to one cell.  A cell ends up with the
value of the last element that writes it, and keeps its own when none does.
-/

namespace LidarPublisher.Lib.LastWrite

variable {α β : Type*} (index : β → Nat) (value : β → α)

/-- The writes of `xs`, in order. -/
def writeAll (xs : List β) (init : List α) : List α :=
  xs.foldl (fun cells x => cells.set (index x) (value x)) init

/-- The last element of `xs` that writes cell `i`. -/
def lastWriter (xs : List β) (i : Nat) : Option β :=
  (xs.filter fun x => decide (index x = i)).getLast?

@[simp] theorem length_writeAll (xs : List β) (init : List α) :
    (writeAll index value xs init).length = init.length := by
  unfold writeAll
  induction xs generalizing init with
  | nil => rfl
  | cons x xs ih => rw [List.foldl_cons, ih, List.length_set]

theorem writeAll_concat (xs : List β) (x : β) (init : List α) :
    writeAll index value (xs ++ [x]) init =
      (writeAll index value xs init).set (index x) (value x) := by
  unfold writeAll
  rw [List.foldl_append, List.foldl_cons, List.foldl_nil]

theorem lastWriter_concat (xs : List β) (x : β) (i : Nat) :
    lastWriter index (xs ++ [x]) i =
      if index x = i then some x else lastWriter index xs i := by
  unfold lastWriter
  rw [List.filter_append]
  by_cases hx : index x = i
  · rw [if_pos hx, List.filter_cons_of_pos (by simpa using hx), List.filter_nil,
      List.getLast?_concat]
  · rw [if_neg hx, List.filter_cons_of_neg (by simpa using hx), List.filter_nil,
      List.append_nil]

/-- **The last write stays.** -/
theorem getElem?_writeAll (xs : List β) (init : List α) {i : Nat}
    (hi : i < init.length) :
    (writeAll index value xs init)[i]? =
      ((lastWriter index xs i).map value).or init[i]? := by
  -- the last write decides, so the induction takes it off first
  induction xs using List.reverseRecOn with
  | nil => rfl
  | append_singleton xs x ih =>
      rw [writeAll_concat, lastWriter_concat, List.getElem?_set]
      by_cases hx : index x = i
      · rw [if_pos hx, if_pos hx, if_pos (by rw [length_writeAll, hx]; exact hi)]
        rfl
      · rw [if_neg hx, if_neg hx, ih]

end LidarPublisher.Lib.LastWrite
