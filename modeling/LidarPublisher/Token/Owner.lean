import LidarPublisher.Token.Repetition

/-!
# Whom a renewal reaches

The user number goes from a 64-bit column through the `int` of the last row
into the text of the update.  The update reaches a row that the select found
exactly when the number it prints is the number of such a row.
-/

namespace LidarPublisher.Token.Owner

open LidarPublisher.Lib.Bytes
open LidarPublisher.Sqlite.Lexer
open LidarPublisher.Sqlite.Execute
open LidarPublisher.Token.Clock
open LidarPublisher.Token.Query
open LidarPublisher.Token.VerifyToken
open LidarPublisher.Token.Acceptance
open LidarPublisher.Token.Repetition

/-- The row matches the select: it holds the token and is unexpired. -/
def Matches (token : List UInt8) (now : LocalTime) (r : Row) : Prop :=
  r.token = token ∧ strftime now.toTm < r.expiration

instance (token : List UInt8) (now : LocalTime) (r : Row) :
    Decidable (Matches token now r) :=
  inferInstanceAs (Decidable (_ ∧ _))

/-- A call that returns 1 executes an update that writes a matching row, and
changes no row of a user who owns no matching row. -/
structure ReachesOwner (e : Engine) (now later : LocalTime)
    (token : List UInt8) (db : Db) : Prop where
  owner : (verifyToken (Calls.real e) now later token db).1 = 1 →
    ∃ column0, (Calls.real e).target now later token db.table = some column0 ∧
      ∃ (i : Nat) (r : Row), db.table[i]? = some r ∧ Matches token now r ∧
        (parse (renewQuery later column0)).Writes r ∧
        (verifyToken (Calls.real e) now later token db).2.table[i]? =
          some { r with expiration := strftime (renew later.toTm) }
  others : (verifyToken (Calls.real e) now later token db).1 = 1 →
    ∀ (i : Nat) (r : Row), db.table[i]? = some r →
      (∀ m ∈ db.table, Matches token now m → m.userId ≠ r.userId) →
        (verifyToken (Calls.real e) now later token db).2.table[i]? = some r

/-- The number of the last matching row, cut to an `int`, is the number of a
matching row. -/
def Prints (token : List UInt8) (now : LocalTime) (table : Table) : Prop :=
  ∀ last, (table.filter fun r => decide (Matches token now r)).getLast? = some last →
    ∃ r ∈ table, Matches token now r ∧ r.userId.toInt = last.userId.toInt32.toInt

/-- The row renewed is the last one that matches. -/
theorem target_real_literal {token : List UInt8} (hq : dquote ∉ token)
    (h0 : (0 : UInt8) ∉ token) (hcol : lookupColumn token = none) (e : Engine)
    (now later : LocalTime) (table : Table) :
    (Calls.real e).target now later token table =
      (table.filter fun r => decide (Matches token now r)).getLast?.map
        Row.userId := by
  have hfilter : matching e now (.literal token) table =
      table.filter fun r => decide (Matches token now r) := by
    refine List.filter_congr fun r _ => ?_
    rw [Bool.eq_iff_iff, decide_eq_true_iff]
    simp [tokenEquals, expirationAbove, Matches]
  rw [target_real hq h0, lookupName, hcol, hfilter, List.getLast?_map]

theorem writes_renewQuery (later : LocalTime) (column0 : Int64) (r : Row) :
    (parse (renewQuery later column0)).Writes r ↔
      r.userId.toInt = column0.toInt32.toInt := by
  unfold Statement.Writes
  rw [renewQuery, parse_updateQuery]
  simp [eq_comm]

/-- What a call returns and leaves behind, by the last row that matches. -/
theorem verifyToken_real_literal {token : List UInt8} (hq : dquote ∉ token)
    (h0 : (0 : UInt8) ∉ token) (hcol : lookupColumn token = none) (e : Engine)
    (now later : LocalTime) (db : Db) :
    match (db.table.filter fun r => decide (Matches token now r)).getLast? with
    | none => (verifyToken (Calls.real e) now later token db).1 = -1
    | some last => (verifyToken (Calls.real e) now later token db).1 = 1 ∧
        (verifyToken (Calls.real e) now later token db).2.table =
          setExpiration (strftime (renew later.toTm)) last.userId.toInt32.toInt
            db.table := by
  obtain ⟨hcode, htable⟩ :=
    verifyToken_code_table (Calls.real e) now later token db
  rw [target_real_literal hq h0 hcol] at hcode htable
  cases hlast : (db.table.filter fun r =>
      decide (Matches token now r)).getLast? with
  | none => simpa [hlast] using hcode
  | some last =>
      rw [hlast, Option.map_some] at hcode htable
      exact ⟨by simpa using hcode, htable.trans (tableAfter_real e later _ _)⟩

/-- The update of a call that reaches the owner prints the number of a matching
row. -/
theorem ReachesOwner.prints {token : List UInt8} (hq : dquote ∉ token)
    (h0 : (0 : UInt8) ∉ token) (hcol : lookupColumn token = none) {e : Engine}
    {now later : LocalTime} {db : Db} (h : ReachesOwner e now later token db) :
    Prints token now db.table := by
  intro last hlast
  have hcall := verifyToken_real_literal hq h0 hcol e now later db
  rw [hlast] at hcall
  rcases h.owner hcall.1 with ⟨column0, htarget, i, r, hr, hmatch, hwrites, -⟩
  rw [target_real_literal hq h0 hcol, hlast, Option.map_some] at htarget
  rw [← Option.some.inj htarget, writes_renewQuery] at hwrites
  exact ⟨r, List.mem_of_getElem? hr, hmatch, hwrites⟩

/-- An update for the number of a matching row reaches that row, and no row of
another user. -/
theorem Prints.reachesOwner {token : List UInt8} (hq : dquote ∉ token)
    (h0 : (0 : UInt8) ∉ token) (hcol : lookupColumn token = none) {e : Engine}
    {now later : LocalTime} {db : Db} (h : Prints token now db.table) :
    ReachesOwner e now later token db := by
  have hcall := verifyToken_real_literal hq h0 hcol e now later db
  cases hlast : (db.table.filter fun r =>
      decide (Matches token now r)).getLast? with
  | none =>
      rw [hlast] at hcall
      have hnot : (verifyToken (Calls.real e) now later token db).1 ≠ 1 := by
        rw [hcall]
        decide
      exact { owner := fun h => absurd h hnot, others := fun h => absurd h hnot }
  | some last =>
      rw [hlast] at hcall
      rcases h last hlast with ⟨m, hm, hmatch, huid⟩
      have hwrites := (writes_renewQuery later last.userId m).mpr huid
      rcases List.mem_iff_getElem?.mp hm with ⟨i, hi⟩
      refine { owner := fun _ => ⟨last.userId, ?_, i, m, hi, hmatch, hwrites, ?_⟩
               others := fun _ k r hr hother => ?_ }
      · rw [target_real_literal hq h0 hcol, hlast, Option.map_some]
      · rw [hcall.2, getElem?_setExpiration, hi, Option.map_some, if_pos huid]
      · have hne : r.userId.toInt ≠ last.userId.toInt32.toInt := by
          intro heq
          exact hother m hm hmatch (Int64.toInt_inj.mp (huid.trans heq.symm))
        rw [hcall.2, getElem?_setExpiration, hr, Option.map_some, if_neg hne]

/-- **Whom the renewal reaches.**  For a presented token that is read as a text
the renewal reaches a row found by the select, and nobody else's, if and only
if the number of the last row found, cut to 32 bits, belongs to a row found. -/
theorem reachesOwner_iff (token : List UInt8) (hq : dquote ∉ token)
    (h0 : (0 : UInt8) ∉ token) (hcol : lookupColumn token = none) (e : Engine)
    (now later : LocalTime) (db : Db) :
    ReachesOwner e now later token db ↔ Prints token now db.table :=
  ⟨fun h => h.prints hq h0 hcol, fun h => h.reachesOwner hq h0 hcol⟩

/-- User 7 fits an `int`. -/
theorem reachesOwner_sixteenAs :
    ReachesOwner Engine.plain noon noon sixteenAs.bytes
      { table := sixteenAsTable, handles := [] } := by
  refine (reachesOwner_iff sixteenAs.bytes (by decide) (by decide) (by decide)
    Engine.plain noon noon _).mpr ?_
  intro last hlast
  rcases List.mem_filter.mp (List.mem_of_getLast? hlast) with ⟨hmem, hmatch⟩
  refine ⟨last, hmem, by simpa using hmatch, ?_⟩
  rw [List.mem_singleton.mp hmem]
  rfl

/-- A token of user 2 ^ 32 + 7, which the update takes for one of user 7. -/
theorem not_reachesOwner :
    ¬∀ (token : List UInt8), dquote ∉ token → (0 : UInt8) ∉ token →
      lookupColumn token = none →
        ∀ (e : Engine) (now later : LocalTime) (db : Db),
          ReachesOwner e now later token db := by
  intro h
  have hreaches := h sixteenAs.bytes (by decide) (by decide) (by decide)
    Engine.plain noon noon
    { table := [{ rowid := 1, token := sixteenAs.bytes, userId := 4294967303
                  expiration := ascii "2030-01-01 00:00:00" }]
      handles := [] }
  have hprints := hreaches.prints (by decide) (by decide) (by decide)
  rcases hprints _ rfl with ⟨r, hr, -, huid⟩
  obtain rfl := List.mem_singleton.mp hr
  exact absurd huid (by decide)

end LidarPublisher.Token.Owner
