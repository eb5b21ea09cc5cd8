import LidarPublisher.Scan.Responses

/-!
# Printed lines

A line of four printed numbers with one character between two of them, and what
the extractions make of it.  A number out of range is stored as its limit and
ends the extractions of the line.
-/

namespace LidarPublisher.Scan.Fields

open LidarPublisher.Lib.Bytes
open LidarPublisher.Lib.Decimal
open LidarPublisher.Lib.ReadUntil
open LidarPublisher.Lib.Stream
open LidarPublisher.Scan.LidarScanner
open LidarPublisher.Scan.Responses

/-- A character that is read as a character behind an integer. -/
def Separates (c : UInt8) : Prop := isSpace c = false ∧ isDigit c = false

instance (c : UInt8) : Decidable (Separates c) :=
  inferInstanceAs (Decidable (_ ∧ _))

theorem separates_comma : Separates 0x2c := by decide

theorem endsDecimal_comma : EndsDecimal 0x2c := by
  refine ⟨?_, ?_, ?_, ?_⟩ <;> decide

theorem visible_comma : isSpace 0x2c = false := separates_comma.1

theorem endedBy_comma (x : DecimalText) : x.EndedBy 0x2c :=
  endsDecimal_comma.endedBy x

/-- Four numbers and the characters between them. -/
structure Printed where
  position : Integer
  distance : Integer
  degreesPerSecond : DecimalText
  scanTimeMs : Integer
  sep₁ : UInt8
  sep₂ : UInt8
  sep₃ : UInt8
  sep₁_separates : Separates sep₁
  sep₂_separates : Separates sep₂
  sep₃_visible : isSpace sep₃ = false
  sep₃_ends : degreesPerSecond.EndedBy sep₃

/-- The line before its `"\r\n"`. -/
def Printed.body (l : Printed) : List UInt8 :=
  l.position.text ++ l.sep₁ :: (l.distance.text ++ l.sep₂ ::
    (l.degreesPerSecond.text ++ l.sep₃ :: l.scanTimeMs.text))

def Printed.text (l : Printed) : List UInt8 := l.body ++ crlf

/-! ## A line's end is the only carriage return -/

private theorem cr_notMem_digits {ds : List UInt8}
    (hds : ∀ b ∈ ds, isDigit b = true) : (0x0d : UInt8) ∉ ds := by
  intro h
  exact absurd (hds _ h) (by decide)

private theorem cr_notMem_sign (sign : Sign) : (0x0d : UInt8) ∉ sign.text := by
  cases sign <;> decide

private theorem cr_notMem_integer (n : Integer) : (0x0d : UInt8) ∉ n.text := by
  rw [Integer.text, List.mem_append, not_or]
  exact ⟨cr_notMem_sign n.sign, cr_notMem_digits n.isDigit_digits⟩

private theorem cr_notMem_decimal (x : DecimalText) :
    (0x0d : UInt8) ∉ x.text := by
  rw [DecimalText.text, List.mem_append, List.mem_append, not_or, not_or]
  refine ⟨cr_notMem_sign x.sign, cr_notMem_digits x.isDigit_whole, ?_⟩
  have hfrac := cr_notMem_digits x.isDigit_frac
  cases h : x.frac with
  | none => simp [fracText]
  | some ds =>
      rw [h] at hfrac
      simpa [fracText] using hfrac

private theorem cr_ne_of_visible {c : UInt8} (h : isSpace c = false) :
    ¬0x0d = c := by
  rintro rfl
  exact absurd h (by decide)

theorem Printed.cr_notMem_body (l : Printed) : (0x0d : UInt8) ∉ l.body := by
  simp [Printed.body, cr_notMem_integer, cr_notMem_decimal,
    cr_ne_of_visible l.sep₁_separates.1, cr_ne_of_visible l.sep₂_separates.1,
    cr_ne_of_visible l.sep₃_visible]

theorem Printed.isLine_text (l : Printed) : IsLine crlf l.text :=
  isLine_append_crlf l.body l.cr_notMem_body

/-! ## What a line says -/

/-- The locals after a line: its four numbers, up to the first one that is out
of range. -/
def Printed.decode (l : Printed) (old : Locals) : Locals :=
  let old := { old with scanPosition := clampInt l.position.value }
  if clampInt l.position.value ≠ l.position.value then old
  else
    let old :=
      { old with distance := clampInt l.distance.value, dummy := l.sep₁ }
    if clampInt l.distance.value ≠ l.distance.value then old
    else
      let old :=
        { old with
          degreesPerSecond := storeDouble l.degreesPerSecond.value
          dummy := l.sep₂ }
      if Overflows l.degreesPerSecond.value then old
      else
        { old with
          scanTimeMs := clampInt l.scanTimeMs.value, dummy := l.sep₃ }

/-- Whatever the streambuf holds behind the line, the extractions read the line
only. -/
theorem Printed.extract_text (l : Printed) (tail : List UInt8) (old : Locals) :
    old.extract (l.text ++ tail) = l.decode old := by
  have hcr : isDigit 0x0d = false := by decide
  simp only [Printed.text, Printed.body, crlf, List.append_assoc,
    List.cons_append, List.nil_append, Locals.extract]
  by_cases hposition : clampInt l.position.value = l.position.value
  · rw [IStream.extractInt_text_of_range _ l.sep₁_separates.2 hposition]
    simp only [IStream.extractChar_cons l.sep₁_separates.1]
    by_cases hdistance : clampInt l.distance.value = l.distance.value
    · rw [IStream.extractInt_text_of_range _ l.sep₂_separates.2 hdistance]
      simp only [IStream.extractChar_cons l.sep₂_separates.1]
      by_cases hdegrees : Overflows l.degreesPerSecond.value
      · rw [IStream.extractDouble_text _ l.sep₃_ends]
        simp only [IStream.extractChar_of_fail, IStream.extractInt_of_fail,
          hdegrees, decide_true]
        simp only [Printed.decode, hposition, hdistance, hdegrees, ne_eq,
          not_true_eq_false, if_false, if_true]
      · rw [IStream.extractDouble_text_of_range _ l.sep₃_ends hdegrees]
        simp only [IStream.extractChar_cons l.sep₃_visible,
          IStream.extractInt_text _ hcr]
        simp only [Printed.decode, hposition, hdistance, hdegrees, ne_eq,
          not_true_eq_false, if_false]
    · rw [IStream.extractInt_text _ l.sep₂_separates.2]
      simp only [IStream.extractChar_of_fail, IStream.extractInt_of_fail,
        IStream.extractDouble_of_fail, hdistance, ne_eq, not_false_eq_true,
        decide_true]
      simp only [Printed.decode, hposition, hdistance, ne_eq, not_true_eq_false,
        not_false_eq_true, if_false, if_true]
  · rw [IStream.extractInt_text _ l.sep₁_separates.2]
    simp only [IStream.extractChar_of_fail, IStream.extractInt_of_fail,
      IStream.extractDouble_of_fail, hposition, ne_eq, not_false_eq_true,
      decide_true]
    simp only [Printed.decode, hposition, ne_eq, not_false_eq_true, if_true]

end LidarPublisher.Scan.Fields
