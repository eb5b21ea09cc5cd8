import LidarPublisher.Lib.LastWrite
import LidarPublisher.Scan.Fields

/-!
# Decoding ten records

Ten records, printed as lines and read one by one, are written to the scan in
order.  The numbers are read as they were printed, the third one as a `double`,
and the fields of the scan that take them are `float`s.
-/

namespace LidarPublisher.Scan.Decoding

open LidarPublisher.Lib.Binary
open LidarPublisher.Lib.Bytes
open LidarPublisher.Lib.ReadUntil
open LidarPublisher.Lib.Stream
open LidarPublisher.Lib.LastWrite
open LidarPublisher.Scan.Message
open LidarPublisher.Scan.LidarScanner
open LidarPublisher.Scan.Responses
open LidarPublisher.Scan.Fields

/-- A printed line with a bearing and a distance that fits an `int`. -/
structure Record extends Printed where
  position_range : 0 ≤ position.value ∧ position.value < 360
  distance_range : -2147483648 ≤ distance.value ∧ distance.value ≤ 2147483647

def Record.text (r : Record) : List UInt8 := r.toPrinted.text

/-- The cell the record is for. -/
def Record.cell (r : Record) : Nat := r.position.value.toNat

/-- The distance in metres. -/
def Record.range (r : Record) : Value := metres r.distance.value

def Record.intensity (r : Record) : Value := binary32.round r.distance.value

/-- The third number, by way of a `double`. -/
def Record.timeIncrement (r : Record) : Value :=
  binary32.round (storeDouble r.degreesPerSecond.value)

/-- The arrays of `after` hold the records on top of what `before` held: each
cell what `range` and `intensity` make of the last record for it, or else its
old content, 0 where there was none. -/
structure Placed (range intensity : Record → Value) (records : List Record)
    (before after : LaserScan) : Prop where
  length_ranges : after.ranges.length = 360
  length_intensities : after.intensities.length = 360
  ranges : ∀ i, i < 360 → after.ranges[i]? =
    ((lastWriter Record.cell records i).map range).or
      (some (before.ranges[i]?.getD 0))
  intensities : ∀ i, i < 360 → after.intensities[i]? =
    ((lastWriter Record.cell records i).map intensity).or
      (some (before.intensities[i]?.getD 0))

/-! ## Numbers that are exact -/

/-- Integers of up to 24 bits are `float`s. -/
theorem binary32_round_intCast {n : Int} (hn : |(n : Rat)| ≤ 2 ^ 24) :
    binary32.round n = .finite n :=
  Format.round_intCast (by decide) (by decide) (by decide) hn

theorem storeDouble_intCast {n : Int} (hn : |(n : Rat)| ≤ 2 ^ 24) :
    storeDouble n = n := by
  have hround : binary64.round n = .finite n :=
    Format.round_intCast (by decide) (by decide) (by decide)
      (hn.trans (pow_le_pow_right₀ (by norm_num) (by decide)))
  rw [storeDouble, hround]

theorem timeIncrement_of_intCast {r : Record} {n : Int}
    (hn : |(n : Rat)| ≤ 2 ^ 24) (h : r.degreesPerSecond.value = n) :
    r.timeIncrement = .finite n := by
  rw [Record.timeIncrement, h, storeDouble_intCast hn, binary32_round_intCast hn]

/-! ## One record -/

/-- What the extractions make of a record. -/
theorem extract_record (r : Record) (old : Locals) :
    (old.extract r.text).scanPosition = r.position.value ∧
      (old.extract r.text).distance = r.distance.value ∧
      (old.extract r.text).degreesPerSecond =
        storeDouble r.degreesPerSecond.value := by
  have hextract := r.toPrinted.extract_text [] old
  rw [List.append_nil] at hextract
  have hposition : clampInt r.position.value = r.position.value := by
    have hrange := r.position_range
    exact clampInt_of_range (by omega) (by omega)
  have hdistance : clampInt r.distance.value = r.distance.value :=
    clampInt_of_range r.distance_range.1 r.distance_range.2
  rw [Record.text, hextract]
  simp only [Printed.decode, hposition, hdistance, ne_eq, not_true_eq_false,
    if_false]
  split
  · exact ⟨rfl, rfl, rfl⟩
  · exact ⟨rfl, rfl, rfl⟩

/-- The scan after one more record. -/
def put (s : LaserScan) (r : Record) : LaserScan :=
  { write s r.cell r.range r.intensity with
    timeIncrement := r.timeIncrement }

theorem scan_measured_record (p : Poll) (unread : List UInt8) (r : Record) :
    (measured p unread r.text).scan = put p.scan r := by
  rcases extract_record r p.locals with ⟨hposition, hdistance, hdegrees⟩
  unfold measured
  dsimp only
  rw [hposition, hdistance, hdegrees]
  rfl

/-! ## All records -/

/-- The loop writes the records its reads return, in order. -/
theorem loop_records {records : List Record} {p : Poll} (hp : Full p.scan)
    {port rest : Port}
    (h : responses records.length port = (records.map Record.text, rest)) :
    ∃ q, p.loop records.length port = some (q, rest) ∧
      q.scan = records.foldl put p.scan := by
  induction records generalizing p port with
  | nil =>
      obtain rfl : port = rest := (Prod.mk.inj h).2
      exact ⟨p, rfl, rfl⟩
  | cons r records ih =>
      rw [List.length_cons] at h ⊢
      cases hread : readUntil crlf [] port with
      | none =>
          rw [responses_succ_none hread] at h
          exact absurd (Prod.mk.inj h).1 (by simp)
      | some out =>
          rcases out with ⟨response, mid⟩
          rw [responses_succ_some hread] at h
          rcases Prod.mk.inj h with ⟨hlines, hrest⟩
          rcases List.cons.inj hlines with ⟨rfl, htail⟩
          have hrange : 0 ≤ (p.locals.extract r.text).scanPosition ∧
              (p.locals.extract r.text).scanPosition < 360 := by
            rw [(extract_record r p.locals).1]
            exact r.position_range
          obtain ⟨q, hloop, hscan⟩ := ih (full_measured hp port.flatten r.text)
            (Prod.ext htail hrest)
          refine ⟨q, ?_, ?_⟩
          · rw [loop_succ_of_inBounds hp hread hrange, hloop]
          · rw [hscan, scan_measured_record, List.foldl_cons]

theorem ranges_foldl_put (records : List Record) (s : LaserScan) :
    (records.foldl put s).ranges =
      writeAll Record.cell Record.range records s.ranges := by
  exact (List.foldl_hom LaserScan.ranges fun _ _ => rfl).symm

theorem intensities_foldl_put (records : List Record) (s : LaserScan) :
    (records.foldl put s).intensities =
      writeAll Record.cell Record.intensity records s.intensities := by
  exact (List.foldl_hom LaserScan.intensities fun _ _ => rfl).symm

theorem timeIncrement_foldl_put {records : List Record} {last : Record}
    (h : records.getLast? = some last) (s : LaserScan) :
    (records.foldl put s).timeIncrement = last.timeIncrement := by
  rcases List.getLast?_eq_some_iff.mp h with ⟨front, rfl⟩
  rw [List.foldl_append]
  rfl

theorem placed_foldl_put (records : List Record) (s : LaserScan) :
    Placed Record.range Record.intensity records s
      (records.foldl put s.prepare) where
  length_ranges := by
    rw [ranges_foldl_put, length_writeAll]
    exact length_resize 360 s.ranges
  length_intensities := by
    rw [intensities_foldl_put, length_writeAll]
    exact length_resize 360 s.intensities
  ranges := by
    intro i hi
    rw [ranges_foldl_put, getElem?_writeAll _ _ _ _
      ((length_resize 360 s.ranges).symm ▸ hi)]
    exact congrArg _ (getElem?_resize hi s.ranges)
  intensities := by
    intro i hi
    rw [intensities_foldl_put, getElem?_writeAll _ _ _ _
      ((length_resize 360 s.intensities).symm ▸ hi)]
    exact congrArg _ (getElem?_resize hi s.intensities)

/-- A call that reads ten records. -/
theorem exists_poll_of_records {records : List Record}
    (hten : records.length = 10) (garbage : Locals) (scan : LaserScan)
    {port rest : Port}
    (hport : responses 10 port = (records.map Record.text, rest)) :
    ∃ p, poll false garbage scan port = some (p, rest) ∧
      p.scan = records.foldl put scan.prepare := by
  rw [← hten] at hport
  obtain ⟨p, hloop, hscan⟩ :=
    loop_records (p := Poll.start garbage scan) (full_prepare scan) hport
  rw [hten] at hloop
  exact ⟨p, hloop, hscan⟩

/-- **Decoding.**  A call whose ten reads return the lines of ten records puts
them in the scan, as `float`s, and has read nothing else; the time increment is
the third number of the last record.  Integers of up to 24 bits are exact. -/
theorem decoding (records : List Record) (hten : records.length = 10)
    (garbage : Locals) (scan : LaserScan) (port rest : Port)
    (hport : responses 10 port = (records.map Record.text, rest)) :
    (∃ p, poll false garbage scan port = some (p, rest) ∧
      Placed Record.range Record.intensity records scan p.scan ∧
      ∀ last, records.getLast? = some last →
        p.scan.timeIncrement = last.timeIncrement) ∧
      ∀ r ∈ records, ∀ n : Int, |(n : Rat)| ≤ 2 ^ 24 →
        (r.distance.value = n → r.intensity = .finite n) ∧
          (r.degreesPerSecond.value = n → r.timeIncrement = .finite n) := by
  rcases exists_poll_of_records hten garbage scan hport with ⟨p, hpoll, hscan⟩
  refine ⟨⟨p, hpoll, ?_, fun last hlast => ?_⟩, fun r _ n hn => ⟨?_, ?_⟩⟩
  · rw [hscan]
    exact placed_foldl_put records scan
  · rw [hscan]
    exact timeIncrement_foldl_put hlast scan.prepare
  · intro hdistance
    rw [Record.intensity, hdistance, binary32_round_intCast hn]
  · exact timeIncrement_of_intCast hn

/-! ## Numbers that are rounded -/

theorem position_range_seven :
    0 ≤ (Integer.unsigned 7).value ∧ (Integer.unsigned 7).value < 360 := by
  rw [Integer.value_unsigned]
  decide

/-- `7,d,v,20` -/
def Record.seventh (d : Nat) (hd : d ≤ 2147483647) (v : DecimalText) : Record :=
  { position := Integer.unsigned 7
    distance := Integer.unsigned d
    degreesPerSecond := v
    scanTimeMs := Integer.unsigned 20
    sep₁ := 0x2c
    sep₂ := 0x2c
    sep₃ := 0x2c
    sep₁_separates := separates_comma
    sep₂_separates := separates_comma
    sep₃_visible := visible_comma
    sep₃_ends := endedBy_comma v
    position_range := position_range_seven
    distance_range := by rw [Integer.value_unsigned]; omega }

/-- `36` -/
def thirtySix : DecimalText :=
  { sign := .none, whole := ascii "36", frac := none
    digits_ne_nil := by decide, isDigit_whole := by decide +kernel
    isDigit_frac := by decide +kernel }

/-- Uninitialised locals that happen to be zero. -/
def zeroLocals : Locals :=
  { scanPosition := 0, distance := 0, degreesPerSecond := 0, scanTimeMs := 0
    dummy := 0 }

theorem responses_replicate (r : Record) (n : Nat) :
    responses n (List.replicate n r.text) =
      ((List.replicate n r).map Record.text, []) := by
  have hlines := responses_lines (List.replicate n r.text)
    (fun line hline => by
      rw [List.eq_of_mem_replicate hline]
      exact r.toPrinted.isLine_text) []
  rw [List.length_replicate, List.append_nil] at hlines
  rw [hlines, List.map_replicate]

/-- The record `7,120,36,20` ten times: 1.2 metres, as a `float`. -/
theorem decoding_seventh :
    ∃ p, poll false zeroLocals LaserScan.new
        (List.replicate 10 (Record.seventh 120 (by decide) thirtySix).text) =
          some (p, []) ∧
      p.scan.ranges[7]? = some (.finite (10066330 / 2 ^ 23)) ∧
      p.scan.intensities[7]? = some 120 ∧ p.scan.timeIncrement = 36 := by
  obtain ⟨⟨p, hpoll, hplaced, htime⟩, -⟩ := decoding
    (List.replicate 10 (Record.seventh 120 (by decide) thirtySix)) rfl zeroLocals
    LaserScan.new _ [] (responses_replicate _ 10)
  refine ⟨p, hpoll, (hplaced.ranges 7 (by decide)).trans ?_,
    (hplaced.intensities 7 (by decide)).trans ?_, (htime _ rfl).trans ?_⟩
  all_goals decide +kernel

/-- Ten times `7,16777217,36,20`: the intensity is 16777216. -/
theorem not_decoding :
    ¬∀ records : List Record, records.length = 10 →
      ∀ (garbage : Locals) (scan : LaserScan) (port rest : Port),
        responses 10 port = (records.map Record.text, rest) →
          ∃ p, poll false garbage scan port = some (p, rest) ∧
            Placed (fun r => .finite (r.distance.value / 100))
              (fun r => .finite r.distance.value) records scan p.scan ∧
            ∀ last, records.getLast? = some last →
              p.scan.timeIncrement = .finite last.degreesPerSecond.value := by
  intro h
  have hport := responses_replicate (Record.seventh 16777217 (by decide) thirtySix) 10
  obtain ⟨p, hpoll, hclaimed, -⟩ := h _ rfl zeroLocals LaserScan.new _ [] hport
  obtain ⟨p', hpoll', hscan⟩ :=
    exists_poll_of_records rfl zeroLocals LaserScan.new hport
  rw [hpoll] at hpoll'
  rcases Prod.mk.inj (Option.some.inj hpoll') with ⟨rfl, -⟩
  have hcell := hclaimed.intensities 7 (by decide)
  rw [hscan, (placed_foldl_put _ LaserScan.new).intensities 7 (by decide)] at hcell
  revert hcell
  decide +kernel

end LidarPublisher.Scan.Decoding
