import LidarPublisher.Scan.LidarScanner

/-!
# The responses of a call

A call of `poll` sees the device as up to ten responses, one for each
`read_until`.  An iteration is a function of the locals before it and of its
response; it goes wrong exactly when the index it extracts is outside the
arrays.
-/

namespace LidarPublisher.Scan.Responses

open LidarPublisher.Lib.Binary
open LidarPublisher.Lib.ReadUntil
open LidarPublisher.Scan.Message
open LidarPublisher.Scan.LidarScanner

/-- A carriage return that stands only before the line feed at the end makes a
line. -/
theorem isLine_append_crlf (body : List UInt8) (h : (0x0d : UInt8) ∉ body) :
    IsLine crlf (body ++ crlf) := by
  refine ⟨(List.suffix_append _ _).isInfix, ?_⟩
  rintro p ⟨q, hq⟩ ⟨u, v, rfl⟩
  have hlong : body.length ≤ u.length := by
    by_contra hlt
    have hat : (body ++ crlf)[u.length]? = some 0x0d := by
      rw [← hq]
      simp [crlf]
    rw [List.getElem?_append_left (by omega)] at hat
    exact h (List.mem_of_getElem? hat)
  have hlength := congrArg List.length hq
  simp only [List.length_append] at hlength
  obtain rfl : q = [] := List.length_eq_zero_iff.mp (by omega)
  rw [← hq, List.append_nil]

/-- What up to `n` reads return, and what the port still holds then. -/
def responses : (n : Nat) → Port → List (List UInt8) × Port
  | 0, port => ([], port)
  | n + 1, port =>
      match readUntil crlf [] port with
      | none => ([], port)
      | some (response, rest) =>
          let (rs, rest) := responses n rest
          (response :: rs, rest)

theorem responses_succ_none {port : Port} (h : readUntil crlf [] port = none)
    (n : Nat) : responses (n + 1) port = ([], port) := by
  rw [responses, h]

theorem responses_succ_some {port rest : Port} {response : List UInt8}
    (h : readUntil crlf [] port = some (response, rest)) (n : Nat) :
    responses (n + 1) port =
      (response :: (responses n rest).1, (responses n rest).2) := by
  rw [responses, h]

/-- A line that comes in one piece is what the read returns. -/
theorem readUntil_cons_line {line : List UInt8} (h : IsLine crlf line)
    (rest : Port) : readUntil crlf [] (line :: rest) = some (line, rest) := by
  have hempty : ¬crlf <:+: ([] : List UInt8) := by decide
  rw [readUntil, if_neg hempty, List.nil_append]
  cases rest with
  | nil => rw [readUntil, if_pos h.1]
  | cons c cs => rw [readUntil, if_pos h.1]

theorem responses_lines (lines : List (List UInt8))
    (h : ∀ line ∈ lines, IsLine crlf line) (rest : Port) :
    responses lines.length (lines ++ rest) = (lines, rest) := by
  induction lines with
  | nil => rfl
  | cons line lines ih =>
      have hread := readUntil_cons_line (h line (by simp)) (lines ++ rest)
      rw [List.length_cons, List.cons_append, responses_succ_some hread,
        ih fun l hl => h l (List.mem_cons_of_mem _ hl)]

/-! ## One iteration -/

/-- The state after an iteration whose index is in bounds. -/
def measured (p : Poll) (unread response : List UInt8) : Poll :=
  let l := p.locals.extract response
  { locals := l
    rpms := l.degreesPerSecond * 60 / 360
    scan :=
      { write p.scan l.scanPosition.toNat (metres l.distance)
          (binary32.round l.distance) with
        timeIncrement := binary32.round l.degreesPerSecond }
    unread := p.unread ++ [unread] }

variable {p : Poll}

theorem full_measured (hp : Full p.scan) (unread response : List UInt8) :
    Full (measured p unread response).scan :=
  hp.write _ _ _

theorem measure_of_inBounds (hp : Full p.scan) (unread : List UInt8)
    {response : List UInt8}
    (h : 0 ≤ (p.locals.extract response).scanPosition ∧
      (p.locals.extract response).scanPosition < 360) :
    p.measure unread response = some (measured p unread response) := by
  rw [Poll.measure, hp.store h]
  rfl

theorem loop_succ_none {port : Port} (h : readUntil crlf [] port = none)
    (n : Nat) : p.loop (n + 1) port = none := by
  rw [Poll.loop, h]
  rfl

theorem loop_succ_some {port rest : Port} {response : List UInt8}
    (h : readUntil crlf [] port = some (response, rest)) (n : Nat) :
    p.loop (n + 1) port =
      (p.measure port.flatten response).bind fun q => q.loop n rest := by
  rw [Poll.loop, h]
  rfl

/-- An iteration in bounds, and the others behind it. -/
theorem loop_succ_of_inBounds (hp : Full p.scan) {port rest : Port}
    {response : List UInt8}
    (hread : readUntil crlf [] port = some (response, rest))
    (h : 0 ≤ (p.locals.extract response).scanPosition ∧
      (p.locals.extract response).scanPosition < 360) (n : Nat) :
    p.loop (n + 1) port =
      (measured p port.flatten response).loop n rest := by
  rw [loop_succ_some hread, measure_of_inBounds hp _ h, Option.bind_some]

end LidarPublisher.Scan.Responses
