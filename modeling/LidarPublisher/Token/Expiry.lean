import LidarPublisher.Lib.Run
import LidarPublisher.Token.Acceptance

/-!
# Which runs keep expired tokens expired

The select of `verifyToken` is keyed by token and expiration, its update by
user alone, so a renewal reaches every row of the user.  Over runs with
non-decreasing clock readings an expired row stays expired exactly when no
renewal is written for a user that owns an expired row at that moment.
-/

namespace LidarPublisher.Token.Expiry

open LidarPublisher.Lib.Run
open LidarPublisher.Lib.Bytes
open LidarPublisher.Sqlite.Ledger
open LidarPublisher.Sqlite.Execute
open LidarPublisher.Token.Clock
open LidarPublisher.Token.Query
open LidarPublisher.Token.VerifyToken
open LidarPublisher.Token.Acceptance

/-- One call of `verifyToken`: the faults of its SQLite calls, the rows of a
query that was meant to be another, its two clock readings and the presented
token. -/
structure Check where
  faults : Faults
  rows : OtherRows
  now : LocalTime
  later : LocalTime
  token : CToken

variable (e : Engine)

/-- The database after the call. -/
def check (db : Db) (c : Check) : Db :=
  (verifyToken (Calls.faulty (e.returning c.rows) c.faults) c.now c.later
    c.token.bytes db).2

/-- The clock readings of a run, in order. -/
def readings (cs : List Check) : List LocalTime :=
  cs.flatMap fun c => [c.now, c.later]

theorem readings_append (cs ds : List Check) :
    readings (cs ++ ds) = readings cs ++ readings ds := List.flatMap_append

/-- The readings of the first call come first. -/
theorem chronological_cons {c : Check} {cs : List Check} :
    Chronological (readings (c :: cs)) ↔
      c.now ≤ c.later ∧ (∀ t ∈ readings cs, c.now ≤ t) ∧
        (c.later :: readings cs).Pairwise (· ≤ ·) := by
  show List.Pairwise _ (c.now :: c.later :: readings cs) ↔ _
  rw [List.pairwise_cons, List.forall_mem_cons, and_assoc]

/-- The table at a time. -/
structure Moment where
  table : Table
  time : LocalTime

/-- The moments of a run at which the clock is read or the table written. -/
def moments : Db → List Check → List Moment
  | _, [] => []
  | db, c :: cs =>
      { table := db.table, time := c.now } ::
        { table := db.table, time := c.later } ::
          { table := (check e db c).table, time := c.later } ::
            moments (check e db c) cs

/-- The expiration text of row `i` is not above the text of the time. -/
def Expired (m : Moment) (i : Nat) : Prop :=
  ∃ r ∈ m.table[i]?, ¬strftime m.time.toTm < r.expiration

instance (m : Moment) (i : Nat) : Decidable (Expired m i) :=
  inferInstanceAs (Decidable (∃ r ∈ m.table[i]?, _))

/-- A row that is expired at some moment is expired at all later ones. -/
def StaysExpired (db : Db) (cs : List Check) : Prop :=
  (moments e db cs).Pairwise fun m m' => ∀ i, Expired m i → Expired m' i

/-- The call does not write for a user of whom some row has expired by its
second clock reading.  The user is the one in the last row the token query
returns, cut to 32 bits. -/
def NoRevival (db : Db) (c : Check) : Prop :=
  ∀ column0,
    Renews (e.returning c.rows) c.faults c.now c.token.bytes db.table column0 →
      ∀ r ∈ db.table, r.userId.toInt = column0.toInt32.toInt →
      strftime c.later.toTm < r.expiration

/-- Time does not undo expiration. -/
theorem Expired.mono {t : Table} {a b : LocalTime} (hab : a ≤ b) {i : Nat}
    (h : Expired { table := t, time := a } i) :
    Expired { table := t, time := b } i := by
  rcases h with ⟨r, hr, hexp⟩
  refine ⟨r, hr, fun hlt => hexp ?_⟩
  exact List.lt_of_le_of_lt (LocalTime.strftime_le hab) hlt

/-- One call keeps an expired row expired, unless it revives it. -/
theorem Expired.check {db : Db} {c : Check} {i : Nat}
    (h : Expired { table := db.table, time := c.later } i)
    (hc : NoRevival e db c) :
    Expired { table := (check e db c).table, time := c.later } i := by
  have hafter := tableAfter_verifyToken (e.returning c.rows) c.faults c.now
    c.later c.token.bytes db
  change TableAfter (e.returning c.rows) c.faults c.now c.later c.token.bytes
    db.table
    (Expiry.check e db c).table at hafter
  generalize (Expiry.check e db c).table = table' at hafter ⊢
  cases hafter with
  | unchanged hnone => exact h
  | renewed column0 hrenews =>
      rcases h with ⟨r, hr, hexp⟩
      have hr' : db.table[i]? = some r := hr
      refine ⟨r, ?_, hexp⟩
      rw [Option.mem_def, getElem?_setExpiration, hr', Option.map_some, if_neg]
      intro huser
      exact hexp (hc column0 hrenews r (List.mem_of_getElem? hr') huser)

/-- An expired row stays expired at all the moments of a run. -/
theorem Expired.moments {db : Db} {cs : List Check} {t : LocalTime} {i : Nat}
    (h : Expired { table := db.table, time := t } i)
    (hsorted : (t :: readings cs).Pairwise (· ≤ ·))
    (hclean : EveryStep (Expiry.check e) (NoRevival e) db cs) :
    ∀ m ∈ Expiry.moments e db cs, Expired m i := by
  induction cs generalizing db t with
  | nil => intro m hm; exact absurd hm List.not_mem_nil
  | cons c cs ih =>
      rcases List.pairwise_cons.mp hsorted with ⟨ht, hrest⟩
      rcases chronological_cons.mp hrest with ⟨hnow, -, hlater⟩
      have hfirst : t ≤ c.now := ht c.now (by simp [readings])
      have hm1 := h.mono hfirst
      have hm2 := hm1.mono hnow
      have hm3 := hm2.check e hclean.1
      intro m hm
      simp only [Expiry.moments, List.mem_cons] at hm
      rcases hm with rfl | rfl | rfl | hm
      · exact hm1
      · exact hm2
      · exact hm3
      · exact ih hm3 hlater hclean.2 m hm

/-- A call that revives a row makes it unexpired between two moments. -/
theorem noRevival_of_stays {db : Db} {c : Check}
    (h : ∀ i, Expired { table := db.table, time := c.later } i →
      Expired { table := (check e db c).table, time := c.later } i) :
    NoRevival e db c := by
  intro column0 hrenews r hr huser
  rcases List.mem_iff_getElem.mp hr with ⟨i, hi, hget⟩
  have hsome : db.table[i]? = some r := by
    rw [List.getElem?_eq_getElem hi, hget]
  by_contra hexp
  rcases h i ⟨r, hsome, hexp⟩ with ⟨r', hr', hexp'⟩
  unfold check at hr'
  rw [Option.mem_def, table_of_renews c.later hrenews, getElem?_setExpiration,
    hsome, Option.map_some, if_pos huser] at hr'
  obtain rfl := Option.some.inj hr'
  exact hexp' (strftime_lt_renew (LocalTime.le_refl c.later))

/-- **Expired tokens.**  With a clock that does not go back, every row that is
expired at some moment of the run stays expired exactly when no call renews a
user who owns an expired row at that moment. -/
theorem staysExpired_iff (db : Db) (cs : List Check) (h : Chronological (readings cs)) :
    StaysExpired e db cs ↔ EveryStep (check e) (NoRevival e) db cs := by
  induction cs generalizing db with
  | nil => simp [StaysExpired, moments]
  | cons c cs ih =>
      rcases chronological_cons.mp h with ⟨hnow, -, hlater⟩
      have hrest : Chronological (readings cs) := (List.pairwise_cons.mp hlater).2
      rw [everyStep_cons, ← ih (check e db c) hrest]
      unfold StaysExpired
      rw [moments, List.pairwise_cons, List.pairwise_cons, List.pairwise_cons]
      constructor
      · intro h
        rcases h with ⟨-, hsecond, -, htail⟩
        exact ⟨noRevival_of_stays e (hsecond _ (by simp)), htail⟩
      · intro h
        rcases h with ⟨hclean, htail⟩
        have hclean' : EveryStep (check e) (NoRevival e) (check e db c) cs :=
          (ih (check e db c) hrest).mp htail
        have hthird : ∀ i,
            Expired { table := (check e db c).table, time := c.later } i →
              ∀ m ∈ moments e (check e db c) cs, Expired m i :=
          fun i hi => hi.moments e hlater hclean'
        refine ⟨?_, ?_, fun m hm i hi => hthird i hi m hm, htail⟩
        · intro m hm i hi
          simp only [List.mem_cons] at hm
          rcases hm with rfl | rfl | hm
          · exact hi.mono hnow
          · exact (hi.mono hnow).check e hclean
          · exact hthird i ((hi.mono hnow).check e hclean) m hm
        · intro m hm i hi
          simp only [List.mem_cons] at hm
          rcases hm with rfl | hm
          · exact hi.check e hclean
          · exact hthird i (hi.check e hclean) m hm

/-- A row of user 7. -/
def rowOf (rowid : Int64) (token expiration : String) : Row :=
  { rowid := rowid, token := ascii token, userId := 7
    expiration := ascii expiration }

/-- A successful call at noon with the token `good`. -/
def goodAtNoon : Check :=
  { faults := .none, rows := fun _ _ => [], now := noon, later := noon
    token := { bytes := ascii "good", noNul := by decide, short := by decide } }

/-- User 7 owns a good token, user 8 one that has been expired for years. -/
def twoUsers : Db :=
  { table := [rowOf 1 "good" "2030-01-01 00:00:00",
      { rowOf 2 "old" "2010-01-01 00:00:00" with userId := 8 }]
    handles := [] }

/-- Checking the good token renews it and leaves the other expired. -/
theorem staysExpired_goodAtNoon :
    Chronological (readings [goodAtNoon]) ∧
      StaysExpired Engine.plain twoUsers [goodAtNoon] ∧
      (check Engine.plain twoUsers goodAtNoon).table ≠ twoUsers.table ∧
      Expired { table := (check Engine.plain twoUsers goodAtNoon).table
                time := noon } 1 := by
  have htarget : (Calls.faulty Engine.plain .none).target noon noon
      goodAtNoon.token.bytes twoUsers.table = some 7 := by decide +kernel
  refine ⟨by decide, (staysExpired_iff Engine.plain _ _ (by decide)).mpr
    ⟨?_, trivial⟩, by decide +kernel, by decide +kernel⟩
  intro column0 hrenews r hr huser
  have hsome := ((renews_iff Engine.plain .none noon noon goodAtNoon.token.bytes
    twoUsers.table column0).mp hrenews).1
  obtain rfl : 7 = column0 := Option.some.inj (htarget.symm.trans hsome)
  revert r
  decide

/-- User 7 owns a good token and one that has been expired for years. -/
def twoTokens : Db :=
  { table := [rowOf 1 "good" "2030-01-01 00:00:00",
      rowOf 2 "old" "2010-01-01 00:00:00"]
    handles := [] }

/-- Checking the good token revives the other. -/
theorem not_staysExpired :
    ¬∀ (e : Engine) (db : Db) (cs : List Check), Chronological (readings cs) →
      StaysExpired e db cs := by
  intro h
  have hrun := h Engine.plain twoTokens [goodAtNoon] (by decide)
  have hold := (List.pairwise_cons.mp hrun).1
    { table := (check Engine.plain twoTokens goodAtNoon).table, time := noon }
    (.tail _ (.head _)) 1 (by decide)
  revert hold
  decide +kernel

end LidarPublisher.Token.Expiry
