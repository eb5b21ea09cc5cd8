import LidarPublisher.Token.Expiry
import LidarPublisher.Token.Renewal

/-!
# Renewals never go back

The renewal loop keeps the order of the clock readings, also where it leaves
the hour at 24: the date decides first, and within a date the minute of the day.
So an expiration that a call has written is only ever replaced by a later one.
-/

namespace LidarPublisher.Token.Monotone

open LidarPublisher.Lib.Run
open LidarPublisher.Lib.Bytes
open LidarPublisher.Sqlite.Execute
open LidarPublisher.Token.Clock
open LidarPublisher.Token.Query
open LidarPublisher.Token.VerifyToken
open LidarPublisher.Token.Acceptance
open LidarPublisher.Token.Renewal
open LidarPublisher.Token.Expiry

/-! ## Two readings -/

/-- The loop keeps the order of the times it starts from. -/
theorem renew_mono {a b : LocalTime} (h : a ≤ b) :
    renew a.toTm ≤ renew b.toTm := by
  have hhour := b.hour_valid
  have hmin := b.min_valid
  have hhour' := a.hour_valid
  have hmin' := a.min_valid
  have hnot : ¬b.toTm < a.toTm := h
  show ¬renew b.toTm < renew a.toTm
  rw [renew_eq_atMinute, renew_eq_atMinute]
  rw [lt_iff_fields] at hnot ⊢
  unfold atMinute minuteOfDay
  dsimp only
  omega

theorem strftime_renew_mono {a b : LocalTime} (h : a ≤ b) :
    strftime (renew a.toTm) ≤ strftime (renew b.toTm) :=
  (strftime_le_iff (renew_printable a) (renew_printable b)).mpr (renew_mono h)

/-! ## One call -/

variable (e : Engine)

/-- The call writes the expiration of row `i`. -/
def Writes (db : Db) (c : Check) (i : Nat) : Prop :=
  ∃ column0,
    Renews (e.returning c.rows) c.faults c.now c.token.bytes db.table column0 ∧
      ∃ r ∈ db.table[i]?, r.userId.toInt = column0.toInt32.toInt

/-- The call leaves row `i` with an expiration not below the one it had. -/
def KeepsUp (db : Db) (c : Check) (i : Nat) : Prop :=
  ∃ r ∈ db.table[i]?, ∃ r' ∈ (check e db c).table[i]?,
    r.expiration ≤ r'.expiration

/-- Row `i` carries the text of a renewal at a time up to `t`. -/
def RenewedBy (t : LocalTime) (table : Table) (i : Nat) : Prop :=
  ∃ r ∈ table[i]?, ∃ a : LocalTime, a ≤ t ∧
    r.expiration = strftime (renew a.toTm)

variable {e} {db : Db} {c : Check} {i : Nat}

theorem Writes.renewedBy (h : Writes e db c i) :
    RenewedBy c.later (check e db c).table i := by
  rcases h with ⟨column0, hrenews, r, hr, huser⟩
  refine ⟨{ r with expiration := strftime (renew c.later.toTm) }, ?_,
    c.later, c.later.le_refl, rfl⟩
  unfold check
  rw [table_of_renews c.later hrenews, Option.mem_def, getElem?_setExpiration,
    Option.mem_def.mp hr, Option.map_some, if_pos huser]

/-- A later call keeps the row renewed, and its expiration up. -/
theorem RenewedBy.check {t : LocalTime} (h : RenewedBy t db.table i)
    (ht : t ≤ c.later) :
    RenewedBy c.later (check e db c).table i ∧ KeepsUp e db c i := by
  rcases h with ⟨r, hr, a, ha, hexp⟩
  have hlater := LocalTime.le_trans ha ht
  have hafter := tableAfter_verifyToken (e.returning c.rows) c.faults c.now
    c.later c.token.bytes db
  change TableAfter (e.returning c.rows) c.faults c.now c.later c.token.bytes
    db.table
    (Expiry.check e db c).table at hafter
  unfold KeepsUp
  generalize (Expiry.check e db c).table = table' at hafter ⊢
  cases hafter with
  | unchanged hnone =>
      exact ⟨⟨r, hr, a, hlater, hexp⟩, r, hr, r, hr, List.le_refl _⟩
  | renewed column0 hrenews =>
      have hget : (setExpiration (strftime (renew c.later.toTm))
          column0.toInt32.toInt db.table)[i]? =
          some (if r.userId.toInt = column0.toInt32.toInt then
            { r with expiration := strftime (renew c.later.toTm) } else r) := by
        rw [getElem?_setExpiration, Option.mem_def.mp hr, Option.map_some]
      refine ⟨⟨_, hget, ?_⟩, r, hr, _, hget, ?_⟩
      · split
        · exact ⟨c.later, c.later.le_refl, rfl⟩
        · exact ⟨a, hlater, hexp⟩
      · split
        · rw [hexp]
          exact strftime_renew_mono hlater
        · exact List.le_refl _

/-! ## Runs -/

/-- The row stays renewed through the calls `mid`. -/
theorem RenewedBy.run {t : LocalTime} {mid rest : List Check}
    (h : RenewedBy t db.table i)
    (hsorted : (t :: readings (mid ++ rest)).Pairwise (· ≤ ·)) :
    ∃ t', RenewedBy t' (runFrom (Expiry.check e) db mid).table i ∧
      (t' :: readings rest).Pairwise (· ≤ ·) := by
  induction mid generalizing db t with
  | nil => exact ⟨t, h, hsorted⟩
  | cons c mid ih =>
      rcases List.pairwise_cons.mp hsorted with ⟨ht, hrest⟩
      rcases chronological_cons.mp hrest with ⟨-, -, hlater⟩
      exact ih (h.check (ht c.later (by simp [readings]))).1 hlater

/-- **Renewals are monotone.**  A later clock reading gives a text that is not
below the one of an earlier reading; so along a run whose clock does not go
back, no call lowers an expiration that an earlier call has written. -/
theorem renewals_monotone (e : Engine) :
    (∀ a b : LocalTime, a ≤ b →
      strftime (renew a.toTm) ≤ strftime (renew b.toTm)) ∧
    ∀ (db : Db) (cs : List Check), Chronological (readings cs) →
      ∀ pre c mid c' post, cs = pre ++ c :: (mid ++ c' :: post) →
        ∀ i, Writes e (runFrom (check e) db pre) c i →
          KeepsUp e (runFrom (check e) db (pre ++ c :: mid)) c' i := by
  refine ⟨fun a b => strftime_renew_mono, ?_⟩
  rintro db cs hsorted pre c mid c' post rfl i hwrites
  rw [readings_append] at hsorted
  have hsuffix : Chronological (readings (c :: (mid ++ c' :: post))) :=
    (List.pairwise_append.mp hsorted).2.1
  rcases chronological_cons.mp hsuffix with ⟨-, -, hlater⟩
  rcases hwrites.renewedBy.run (e := e) hlater with ⟨t, hrenewed, hrest⟩
  have ht : t ≤ c'.later :=
    (List.pairwise_cons.mp hrest).1 c'.later (by simp [readings])
  rw [runFrom_append]
  exact (hrenewed.check ht).2

/-- The same token checked twice at noon. -/
theorem renewals_monotone_noon :
    KeepsUp Engine.plain
      (runFrom (check Engine.plain)
        { table := [rowOf 1 "good" "2030-01-01 00:00:00"], handles := [] }
        [goodAtNoon])
      goodAtNoon 0 := by
  have htarget : (Calls.faulty Engine.plain .none).target noon noon
      goodAtNoon.token.bytes [rowOf 1 "good" "2030-01-01 00:00:00"] =
        some 7 := by decide +kernel
  have hrenews := (renews_iff Engine.plain .none noon noon _ _ 7).mpr
    ⟨htarget, rfl⟩
  exact (renewals_monotone Engine.plain).2 _ [goodAtNoon, goodAtNoon]
    (by decide) [] goodAtNoon [] goodAtNoon [] rfl 0
    ⟨7, hrenews, _, rfl, rfl⟩

end LidarPublisher.Token.Monotone
