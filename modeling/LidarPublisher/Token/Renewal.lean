import LidarPublisher.Token.Clock

/-!
# How long a renewal lasts

The calendar moves on minute by minute with every carry up to the year; the
renewal loop carries minutes into hours only.  Both are followed on one scale,
the minutes of the day, on which the loop runs past midnight as the hour 24 of
the same date.
-/

namespace LidarPublisher.Token.Renewal

open LidarPublisher.Lib.Bytes
open LidarPublisher.Token.Clock

/-! ## The calendar -/

/-- The same time of the next day. -/
def nextDay (t : Tm) : Tm :=
  if t.mday < daysInMonth t.year t.mon then { t with mday := t.mday + 1 }
  else if t.mon < 12 then { t with mon := t.mon + 1, mday := 1 }
  else { t with year := t.year + 1, mon := 1, mday := 1 }

/-- The calendar time one minute later. -/
def nextMinute (t : Tm) : Tm :=
  if t.min < 59 then { t with min := t.min + 1 }
  else if t.hour < 23 then { t with hour := t.hour + 1, min := 0 }
  else nextDay { t with hour := 0, min := 0 }

/-- The calendar time `m` minutes later. -/
def addMinutes (m : Nat) (t : Tm) : Tm := nextMinute^[m] t

/-- The minute of the day. -/
def minuteOfDay (t : Tm) : Nat := t.hour * 60 + t.min

/-- The date and second of `t` at another minute of the day. -/
def atMinute (t : Tm) (m : Nat) : Tm := { t with hour := m / 60, min := m % 60 }

/-- The last date with a four-digit year. -/
def LastDate (t : Tm) : Prop := t.year = 9999 ∧ t.mon = 12 ∧ t.mday = 31

instance (t : Tm) : Decidable (LastDate t) := inferInstanceAs (Decidable (_ ∧ _))

theorem atMinute_minuteOfDay (t : LocalTime) :
    atMinute t.toTm (minuteOfDay t.toTm) = t.toTm := by
  have hmin := t.min_valid
  unfold atMinute minuteOfDay
  rw [show (t.hour * 60 + t.min) / 60 = t.hour by omega,
    show (t.hour * 60 + t.min) % 60 = t.min by omega]

theorem nextDay_atMinute (t : Tm) (m : Nat) :
    nextDay (atMinute t m) = atMinute (nextDay t) m := by
  unfold nextDay atMinute
  dsimp only
  split
  · rfl
  · split <;> rfl

/-- One minute of the calendar, on the scale of the day. -/
theorem nextMinute_atMinute (t : Tm) {m : Nat} (hm : m < 1440) :
    nextMinute (atMinute t m) =
      if m + 1 < 1440 then atMinute t (m + 1) else atMinute (nextDay t) 0 := by
  show (if m % 60 < 59 then { t with hour := m / 60, min := m % 60 + 1 }
    else if m / 60 < 23 then { t with hour := m / 60 + 1, min := 0 }
    else nextDay (atMinute t 0)) = _
  by_cases hmin : m % 60 < 59
  · rw [if_pos hmin, if_pos (by omega)]
    unfold atMinute
    rw [show (m + 1) / 60 = m / 60 by omega, show (m + 1) % 60 = m % 60 + 1 by omega]
  · rw [if_neg hmin]
    by_cases hhour : m / 60 < 23
    · rw [if_pos hhour, if_pos (by omega)]
      unfold atMinute
      rw [show (m + 1) / 60 = m / 60 + 1 by omega, show (m + 1) % 60 = 0 by omega]
    · rw [if_neg hhour, if_neg (by omega)]
      exact nextDay_atMinute t 0

/-- Up to a day of calendar minutes. -/
theorem addMinutes_atMinute (t : Tm) {m : Nat} (hm : m < 1440) (k : Nat)
    (hk : k ≤ 1440) :
    addMinutes k (atMinute t m) =
      if m + k < 1440 then atMinute t (m + k)
      else atMinute (nextDay t) (m + k - 1440) := by
  unfold addMinutes
  induction k with
  | zero => rw [if_pos (by omega)]; rfl
  | succ k ih =>
      rw [Function.iterate_succ_apply', ih (by omega)]
      by_cases hday : m + k < 1440
      · rw [if_pos hday, nextMinute_atMinute t hday]
        by_cases hnext : m + k + 1 < 1440
        · rw [if_pos hnext, if_pos (by omega), Nat.add_assoc]
        · rw [if_neg hnext, if_neg (by omega), show m + (k + 1) - 1440 = 0 by omega]
      · rw [if_neg hday, nextMinute_atMinute _ (by omega), if_pos (by omega),
          if_neg (by omega)]
        rw [show m + k - 1440 + 1 = m + (k + 1) - 1440 by omega]

/-- The loop of the renewal never leaves the date. -/
theorem renew_eq_atMinute (t : LocalTime) :
    renew t.toTm = atMinute t.toTm (minuteOfDay t.toTm + 25) := by
  have hmin := t.min_valid
  rw [renew_eq]
  unfold atMinute minuteOfDay
  split
  · rw [show (t.hour * 60 + t.min + 25) / 60 = t.hour by omega,
      show (t.hour * 60 + t.min + 25) % 60 = t.min + 25 by omega]
  · rw [show (t.hour * 60 + t.min + 25) / 60 = t.hour + 1 by omega,
      show (t.hour * 60 + t.min + 25) % 60 = t.min + 25 - 60 by omega]

/-! ## Dates in order -/

/-- Calendar order, field by field. -/
theorem lt_iff_fields (a b : Tm) :
    a < b ↔ a.year < b.year ∨ a.year = b.year ∧ (a.mon < b.mon ∨ a.mon = b.mon ∧
      (a.mday < b.mday ∨ a.mday = b.mday ∧ (a.hour < b.hour ∨ a.hour = b.hour ∧
        (a.min < b.min ∨ a.min = b.min ∧ a.sec < b.sec)))) := by
  show a.key < b.key ↔ _
  unfold Tm.key
  simp only [List.cons_lt_cons_iff, List.not_lt_nil, and_false, or_false]

/-- Calendar order of dates. -/
def DateLt (a b : Tm) : Prop :=
  a.year < b.year ∨ a.year = b.year ∧ (a.mon < b.mon ∨ a.mon = b.mon ∧
    a.mday < b.mday)

/-- The same date. -/
def SameDate (a b : Tm) : Prop :=
  a.year = b.year ∧ a.mon = b.mon ∧ a.mday = b.mday

/-- A time of a day is not before another time that is. -/
theorem sameDate_or_dateLt {a b : LocalTime} (h : a ≤ b) :
    SameDate a.toTm b.toTm ∨ DateLt a.toTm b.toTm := by
  have hnot : ¬b.toTm < a.toTm := h
  rw [lt_iff_fields] at hnot
  unfold SameDate DateLt
  omega

/-- The date moves on. -/
theorem dateLt_nextDay (t : Tm) : DateLt t (nextDay t) := by
  unfold DateLt nextDay
  split
  · dsimp only
    omega
  · split
    · dsimp only
      omega
    · dsimp only
      omega

/-- No date lies between a day and the next. -/
theorem nextDay_le_of_dateLt {a b : LocalTime} (h : DateLt a.toTm b.toTm) :
    SameDate (nextDay a.toTm) b.toTm ∨ DateLt (nextDay a.toTm) b.toTm := by
  have hmon := a.mon_valid
  have hmon' := b.mon_valid
  obtain ⟨hmday, hlast⟩ := b.mday_valid
  unfold DateLt at h
  unfold SameDate DateLt nextDay
  split
  · next hday =>
      dsimp only
      omega
  · next hday =>
      -- in the same month `b` would lie behind the last day
      have hmonth : a.year = b.year → a.mon = b.mon → ¬a.mday < b.mday := by
        intro hyear hmonth
        rw [← hyear, ← hmonth] at hlast
        omega
      split
      · dsimp only
        omega
      · dsimp only
        omega

theorem one_le_daysInMonth (year mon : Nat) : 1 ≤ daysInMonth year mon := by
  unfold daysInMonth
  split
  · split <;> omega
  · split <;> omega

/-- The next day is a date. -/
theorem nextDay_valid (t : LocalTime) :
    (1 ≤ (nextDay t.toTm).mon ∧ (nextDay t.toTm).mon ≤ 12) ∧
      1 ≤ (nextDay t.toTm).mday ∧
        (nextDay t.toTm).mday ≤
          daysInMonth (nextDay t.toTm).year (nextDay t.toTm).mon := by
  have hmon := t.mon_valid
  have hmday := t.mday_valid
  unfold nextDay
  split
  · next hday => exact ⟨hmon, by dsimp only; omega, hday⟩
  · split
    · next hday hmon12 =>
        exact ⟨by dsimp only; omega, Nat.le_refl 1, one_le_daysInMonth _ _⟩
    · exact ⟨⟨Nat.le_refl 1, by dsimp only; omega⟩, Nat.le_refl 1,
        one_le_daysInMonth _ 1⟩

/-- Its year has four digits unless the date is the last one. -/
theorem nextDay_year (t : LocalTime) (h : ¬LastDate t.toTm) :
    1000 ≤ (nextDay t.toTm).year ∧ (nextDay t.toTm).year ≤ 9999 := by
  have hyear := t.year_valid
  have hmon := t.mon_valid
  obtain ⟨hmday, hlast⟩ := t.mday_valid
  unfold nextDay
  split
  · exact hyear
  · next hday =>
      split
      · exact hyear
      · next hmon12 =>
          have hdec : t.mon = 12 := by omega
          have hdays : daysInMonth t.year t.mon = 31 := by
            rw [hdec]
            rfl
          unfold LastDate at h
          dsimp only
          omega

/-- The day of `t` ends with a midnight in range. -/
theorem exists_midnight (t : LocalTime) (h : ¬LastDate t.toTm) :
    ∃ m : LocalTime, m.toTm = { atMinute (nextDay t.toTm) 0 with sec := 0 } :=
  ⟨{ toTm := { atMinute (nextDay t.toTm) 0 with sec := 0 }
     year_valid := nextDay_year t h
     mon_valid := (nextDay_valid t).1
     mday_valid := (nextDay_valid t).2
     hour_valid := Nat.zero_le 23
     min_valid := Nat.zero_le 59
     sec_valid := Nat.zero_le 60 }, rfl⟩

/-! ## The renewal against the calendar -/

/-- The text written at `n` is above the text of a later time exactly until 25
minutes have passed. -/
def Lasts25 (n : LocalTime) : Prop :=
  ∀ t : LocalTime, n ≤ t →
    (strftime t.toTm < strftime (renew n.toTm) ↔ t.toTm < addMinutes 25 n.toTm)

/-- The text order is the order of the fields, with the hour running past 23. -/
theorem strftime_lt_renew_iff (n t : LocalTime) :
    strftime t.toTm < strftime (renew n.toTm) ↔
      t.toTm < atMinute n.toTm (minuteOfDay n.toTm + 25) := by
  rw [strftime_lt_iff t.printable (renew_printable n), renew_eq_atMinute]

/-- The calendar 25 minutes later. -/
theorem addMinutes_eq (n : LocalTime) :
    addMinutes 25 n.toTm =
      if minuteOfDay n.toTm + 25 < 1440 then
        atMinute n.toTm (minuteOfDay n.toTm + 25)
      else atMinute (nextDay n.toTm) (minuteOfDay n.toTm + 25 - 1440) := by
  have hhour := n.hour_valid
  have hmin := n.min_valid
  have hm : minuteOfDay n.toTm < 1440 := by
    unfold minuteOfDay
    omega
  conv_lhs => rw [← atMinute_minuteOfDay n]
  exact addMinutes_atMinute n.toTm hm 25 (by omega)

/-- Up to midnight loop and calendar agree. -/
theorem lasts25_of_sameDay {n : LocalTime}
    (h : minuteOfDay n.toTm + 25 < 1440) : Lasts25 n := by
  intro t _
  rw [strftime_lt_renew_iff, addMinutes_eq, if_pos h]

/-- The rest of the day lies before both times. -/
theorem lasts25_rest_of_day {n t : LocalTime}
    (hcross : ¬minuteOfDay n.toTm + 25 < 1440)
    (hsame : SameDate n.toTm t.toTm) :
    strftime t.toTm < strftime (renew n.toTm) ↔
      t.toTm < addMinutes 25 n.toTm := by
  have hhour := t.hour_valid
  have hdate := dateLt_nextDay n.toTm
  rw [strftime_lt_renew_iff, addMinutes_eq, if_neg hcross]
  unfold SameDate at hsame
  unfold DateLt at hdate
  apply iff_of_true
  · rw [lt_iff_fields]
    unfold atMinute
    dsimp only
    omega
  · rw [lt_iff_fields]
    unfold atMinute
    dsimp only
    omega

/-- From midnight on the text written at `n` is below every text, although on
the scale of the day the hour may run past 23. -/
theorem not_strftime_lt_renew {n t : LocalTime}
    (hlater : DateLt n.toTm t.toTm) :
    ¬strftime t.toTm < strftime (renew n.toTm) := by
  rw [strftime_lt_renew_iff, lt_iff_fields]
  unfold DateLt at hlater
  unfold atMinute
  dsimp only
  omega

theorem nextDay_sec (t : Tm) : (nextDay t).sec = t.sec := by
  unfold nextDay
  split
  · rfl
  · split <;> rfl

/-- The renewal should cover midnight unless it ends there. -/
theorem midnight_lt_addMinutes_iff {n m : LocalTime}
    (hm : m.toTm = { atMinute (nextDay n.toTm) 0 with sec := 0 })
    (hcross : ¬minuteOfDay n.toTm + 25 < 1440) :
    m.toTm < addMinutes 25 n.toTm ↔
      ¬(minuteOfDay n.toTm + 25 = 1440 ∧ n.sec = 0) := by
  have hsec := nextDay_sec n.toTm
  rw [addMinutes_eq, if_neg hcross, lt_iff_fields, hm]
  unfold atMinute
  dsimp only
  omega

/-- **When a renewal lasts 25 minutes.**  The text written at `n` is above the
texts of the times up to 25 minutes later and of no others, exactly when the 25
minutes do not reach into the next day: they end by midnight, or the calendar
ends there. -/
theorem lasts25_iff (n : LocalTime) :
    Lasts25 n ↔
      minuteOfDay n.toTm + 25 < 1440 ∨
        (minuteOfDay n.toTm + 25 = 1440 ∧ n.sec = 0) ∨ LastDate n.toTm := by
  by_cases hcross : minuteOfDay n.toTm + 25 < 1440
  · exact iff_of_true (lasts25_of_sameDay hcross) (Or.inl hcross)
  · simp only [hcross, false_or]
    constructor
    · intro h
      by_contra hcond
      obtain ⟨hends, hlast⟩ := not_or.mp hcond
      obtain ⟨m, hm⟩ := exists_midnight n hlast
      have hdate : DateLt n.toTm m.toTm := by
        rw [hm]
        exact dateLt_nextDay n.toTm
      have hle : n ≤ m := by
        show ¬m.toTm < n.toTm
        rw [lt_iff_fields]
        unfold DateLt at hdate
        omega
      have hcovered := (midnight_lt_addMinutes_iff hm hcross).mpr hends
      exact not_strftime_lt_renew hdate ((h m hle).mpr hcovered)
    · intro h t hle
      rcases sameDate_or_dateLt hle with hsame | hlater
      · exact lasts25_rest_of_day hcross hsame
      · apply iff_of_false (not_strftime_lt_renew hlater)
        rcases h with ⟨hends, hsec⟩ | hlast
        · -- the renewal ends at midnight, and `t` is not before it
          have hnext := nextDay_le_of_dateLt hlater
          have hsec' := nextDay_sec n.toTm
          rw [addMinutes_eq, if_neg hcross, lt_iff_fields]
          unfold SameDate DateLt at hnext
          unfold atMinute
          dsimp only
          omega
        · -- no date of four digits lies behind the last one
          have hyear := t.year_valid
          have hmon := t.mon_valid
          have hmday := t.mday_valid
          have hdays := daysInMonth_le t.year t.mon
          unfold LastDate at hlast
          unfold DateLt at hlater
          omega

/-- Twenty minutes before the end of 2019. -/
def lateEvening : LocalTime :=
  { year := 2019, mon := 12, mday := 31, hour := 23, min := 40, sec := 10
    year_valid := by decide, mon_valid := by decide, mday_valid := by decide
    hour_valid := by decide, min_valid := by decide, sec_valid := by decide }

/-- 21 minutes later. -/
def newYear : LocalTime :=
  { year := 2020, mon := 1, mday := 1, hour := 0, min := 1, sec := 10
    year_valid := by decide, mon_valid := by decide, mday_valid := by decide
    hour_valid := by decide, min_valid := by decide, sec_valid := by decide }

theorem not_lasts25 : ¬∀ n : LocalTime, Lasts25 n := by
  intro h
  have hcovered := (h lateEvening newYear (by decide)).mpr (by
    rw [lt_iff_fields]
    decide)
  exact absurd hcovered (by decide)

end LidarPublisher.Token.Renewal
