import Mathlib.Tactic.TypeStar

/-!
# Search along the chains of a hash table

A table of entries `0, 1, …` is threaded into chains by links: link `0` ends a
chain and link `k + 1` is entry `k`.  Where every link leads to an earlier entry,
a search along a chain comes to an end and does not leave the table.
-/

namespace LidarPublisher.Lib.Chained

/-- The links behind the entries of a table. -/
structure Links where
  next : Nat → Nat
  next_le : ∀ i, next i ≤ i

/-- The first entry of the chain from link `k` on that has property `p`. -/
def Links.search (links : Links) (p : Nat → Bool) : (k : Nat) → Option Nat
  | 0 => none
  | k + 1 => if p k then some k else links.search p (links.next k)
termination_by k => k
decreasing_by exact Nat.lt_succ_of_le (links.next_le k)

/-- Entry `i` is on the chain that starts with link `k`. -/
inductive Links.OnChain (links : Links) : (k i : Nat) → Prop
  | head (i : Nat) : links.OnChain (i + 1) i
  | tail {k i : Nat} : links.OnChain (links.next k) i → links.OnChain (k + 1) i

variable {links : Links} {p q : Nat → Bool} {k i : Nat}

/-- A chain stays below its first link. -/
theorem Links.OnChain.lt (h : links.OnChain k i) : i < k := by
  induction h with
  | head i => exact Nat.lt_succ_self i
  | @tail k i _ ih => exact Nat.lt_succ_of_lt (Nat.lt_of_lt_of_le ih (links.next_le k))

/-- What a search finds is on the chain and has the property. -/
theorem Links.onChain_of_search (h : links.search p k = some i) :
    links.OnChain k i ∧ p i = true := by
  induction k using Nat.strongRecOn with
  | ind k ih =>
      cases k with
      | zero => simp [Links.search] at h
      | succ k =>
          rw [Links.search] at h
          split at h
          · next hk =>
              obtain rfl : k = i := by simpa using h
              exact ⟨.head k, hk⟩
          · rcases ih _ (Nat.lt_succ_of_le (links.next_le k)) h with ⟨hon, hi⟩
            exact ⟨.tail hon, hi⟩

/-- A search asks for entries below its first link only. -/
theorem Links.search_congr (h : ∀ j < k, p j = q j) :
    links.search p k = links.search q k := by
  induction k using Nat.strongRecOn with
  | ind k ih =>
      cases k with
      | zero => rw [Links.search, Links.search]
      | succ k =>
          have hnext : links.next k < k + 1 := Nat.lt_succ_of_le (links.next_le k)
          rw [Links.search, Links.search, h k (Nat.lt_succ_self k),
            ih _ hnext fun j hj => h j (Nat.lt_trans hj hnext)]

end LidarPublisher.Lib.Chained
