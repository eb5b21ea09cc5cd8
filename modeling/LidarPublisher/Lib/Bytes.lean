import Mathlib.Data.List.Basic
import Mathlib.Data.List.TakeWhile
import Mathlib.Data.Vector.Basic

/-!
# Byte strings and fixed-size byte buffers

Two general notions the C sources rest on: a C string, which ends at its first
zero byte, and a fixed-size buffer whose prefix is overwritten while the rest
keeps what an earlier write left there.
-/

namespace LidarPublisher.Lib.Bytes

/-- The bytes of an ASCII text. -/
def ascii (s : String) : List UInt8 := s.toList.map fun c => c.toNat.toUInt8

/-- `isspace` in the C locale, and `sqlite3Isspace`. -/
def isSpace (c : UInt8) : Bool := c = 0x20 || (0x09 ≤ c && c ≤ 0x0d)

/-- The C string stored in a byte region: everything before the first NUL. -/
def cString (region : List UInt8) : List UInt8 :=
  region.takeWhile fun b => b ≠ 0

theorem cString_ne_zero (region : List UInt8) :
    ∀ b ∈ cString region, b ≠ 0 := by
  intro b hb
  simpa using List.mem_takeWhile_imp hb

theorem cString_length_le (region : List UInt8) :
    (cString region).length ≤ region.length :=
  (List.takeWhile_prefix _).length_le

/-- A NUL inside the first part hides the rest of the region. -/
theorem cString_append_of_mem {xs : List UInt8} (ys : List UInt8)
    (h : (0 : UInt8) ∈ xs) : cString (xs ++ ys) = cString xs := by
  induction xs with
  | nil => simp at h
  | cons x xs ih =>
      by_cases hx : x = 0
      · simp [cString, hx]
      · have htail : (0 : UInt8) ∈ xs := by
          rcases List.mem_cons.mp h with h0 | h0
          · exact absurd h0.symm hx
          · exact h0
        simpa [cString, List.takeWhile_cons, hx] using ih htail

/-- Without a NUL in the first part the C string goes on behind it. -/
theorem cString_append_of_notMem {xs : List UInt8} (ys : List UInt8)
    (h : (0 : UInt8) ∉ xs) : cString (xs ++ ys) = xs ++ cString ys := by
  induction xs with
  | nil => rfl
  | cons x xs ih =>
      have hx : x ≠ 0 := fun h0 => h (by simp [h0])
      have htail : (0 : UInt8) ∉ xs := fun h0 => h (by simp [h0])
      simpa [cString, List.takeWhile_cons, hx] using ih htail

/-! ## Overwriting a prefix -/

variable {α : Type*} {n : Nat}

/-- Write `xs` over the first cells of a buffer; the other cells stay. -/
def overlay (xs : List α) (hxs : xs.length ≤ n) (buf : Vector α n) :
    Vector α n :=
  ⟨(xs ++ buf.toList.drop xs.length).toArray, by simp; omega⟩

@[simp] theorem toList_overlay (xs : List α) (hxs : xs.length ≤ n)
    (buf : Vector α n) :
    (overlay xs hxs buf).toList = xs ++ buf.toList.drop xs.length := rfl

/-- Writing the same bytes again changes nothing. -/
theorem overlay_overlay (xs : List α) (hxs : xs.length ≤ n)
    (buf : Vector α n) : overlay xs hxs (overlay xs hxs buf) = overlay xs hxs buf := by
  apply Vector.toList_inj.mp
  rw [toList_overlay, toList_overlay, List.drop_left]

/-- A full-length write leaves nothing of the old contents. -/
theorem toList_overlay_of_length_eq (xs : List α) (hxs : xs.length = n)
    (buf : Vector α n) : (overlay xs hxs.le buf).toList = xs := by
  rw [toList_overlay, List.drop_eq_nil_of_le (by simp [hxs]), List.append_nil]

end LidarPublisher.Lib.Bytes
