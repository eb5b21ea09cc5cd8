import LidarPublisher.Token.Acceptance

/-!
# Verifying the same token again at the same time

A second call at the same clock reading leaves the table as the first one did.
After a refusal nothing has changed.  After a renewal the query selects the
renewed rows again, and perhaps rows of the same user that had expired, so the
last row belongs to the same user as before.
-/

namespace LidarPublisher.Token.Repetition

open LidarPublisher.Sqlite.Lexer
open LidarPublisher.Sqlite.Execute
open LidarPublisher.Token.Clock
open LidarPublisher.Token.Query
open LidarPublisher.Token.VerifyToken
open LidarPublisher.Token.Acceptance

/-! ## Updates that keep what a search finds -/

/-- After an update that keeps what satisfies `p`, the first element found is
the update of the one found before, or of one that did not satisfy `p`. -/
theorem find?_map_of_kept {α : Type*} {p : α → Bool} {f : α → α}
    (hkeep : ∀ x, p x = true → p (f x) = true) {xs : List α} {x : α}
    (h : xs.find? p = some x) :
    ∃ y, (xs.map f).find? p = some (f y) ∧
      (y = x ∨ (p y = false ∧ p (f y) = true)) := by
  induction xs with
  | nil => simp at h
  | cons a xs ih =>
      by_cases ha : p a = true
      · rw [List.find?_cons_of_pos ha] at h
        refine ⟨a, ?_, Or.inl (Option.some.inj h)⟩
        rw [List.map_cons, List.find?_cons_of_pos (hkeep a ha)]
      · rw [List.find?_cons_of_neg ha] at h
        rw [List.map_cons]
        by_cases hfa : p (f a) = true
        · exact ⟨a, List.find?_cons_of_pos hfa,
            Or.inr ⟨by simpa using ha, hfa⟩⟩
        · rw [List.find?_cons_of_neg hfa]
          exact ih h

/-! ## The renewed table -/

theorem setExpiration_idempotent (buffer : List UInt8) (uid : Int) (t : Table) :
    setExpiration buffer uid (setExpiration buffer uid t) =
      setExpiration buffer uid t := by
  unfold setExpiration
  rw [List.map_map]
  apply List.map_congr_left
  intro r _
  by_cases h : r.userId.toInt = uid
  · simp [h]
  · simp [h]

/-- A user number that fits 32 bits is its own low half. -/
theorem toInt32_of_toInt_eq {a b : Int64} (h : a.toInt = b.toInt32.toInt) :
    a.toInt32 = b.toInt32 := by
  rw [← Int32.toInt_inj, Int64.toInt_toInt32, h]
  exact Int32.toInt_bmod b.toInt32

/-- The last row a literal token selects after the renewal has the user number
of the last row it selected before. -/
theorem last_matching_renewed (e : Engine) (now : LocalTime)
    (token buffer : List UInt8) (hlater : strftime now.toTm < buffer)
    (column0 : Int64) (table : Table)
    (h : ((matching e now (.literal token) table).map Row.userId).getLast? =
      some column0) :
    ∃ column0', ((matching e now (.literal token)
        (setExpiration buffer column0.toInt32.toInt table)).map
          Row.userId).getLast? = some column0' ∧
      column0'.toInt32 = column0.toInt32 := by
  unfold matching at h ⊢
  rw [List.getLast?_map, List.getLast?_filter, Option.map_eq_some_iff] at h
  rcases h with ⟨r, hr, rfl⟩
  rw [List.getLast?_map, List.getLast?_filter, setExpiration, ← List.map_reverse]
  -- a renewed row is unexpired, and its token is the same
  obtain ⟨r', hr', hcase⟩ := find?_map_of_kept (f := fun x : Row =>
      if x.userId.toInt = r.userId.toInt32.toInt then
        { x with expiration := buffer } else x) (by
    intro x hx
    by_cases huid : x.userId.toInt = r.userId.toInt32.toInt
    · simp only [Bool.and_eq_true, tokenEquals] at hx
      simp [huid, tokenEquals, expirationAbove, hx.1, hlater]
    · rw [if_neg huid]
      exact hx) hr
  refine ⟨_, by rw [hr']; rfl, ?_⟩
  rcases hcase with rfl | ⟨hnew, hfound⟩
  · split <;> rfl
  · -- a row that is found only now was renewed, so it is one of this user
    by_cases huid : r'.userId.toInt = r.userId.toInt32.toInt
    · rw [if_pos huid]
      exact toInt32_of_toInt_eq huid
    · rw [if_neg huid] at hfound
      exact absurd hfound (by simp [hnew])

/-! ## Two calls -/

theorem tableAfter_real (e : Engine) (later : LocalTime) (table : Table)
    (column0 : Int64) :
    (Calls.real e).tableAfter later table (some column0) =
      setExpiration (strftime (renew later.toTm)) column0.toInt32.toInt table :=
  tableAfter_faulty e .none later table column0

/-- **Renewing again changes nothing.**  For a token that is read as a text, a
second call at the same clock reading leaves the table of the first. -/
theorem table_verifyToken_twice (token : List UInt8) (hq : dquote ∉ token)
    (h0 : (0 : UInt8) ∉ token) (hcol : lookupColumn token = none)
    (e e' : Engine) (now : LocalTime) (db : Db) :
    (verifyToken (Calls.real e') now now token
        (verifyToken (Calls.real e) now now token db).2).2.table =
      (verifyToken (Calls.real e) now now token db).2.table := by
  have hname : lookupName token = .literal token := by
    rw [lookupName, hcol]
  rw [(verifyToken_code_table _ now now token _).2,
    (verifyToken_code_table _ now now token db).2, target_real hq h0,
    target_real hq h0, hname]
  cases hfirst : ((matching e now (.literal token) db.table).map
      Row.userId).getLast? with
  | none =>
      have hsecond : ((matching e' now (.literal token) db.table).map
          Row.userId).getLast? = none := hfirst
      rw [show (Calls.real e).tableAfter now db.table none = db.table from rfl,
        hsecond]
      rfl
  | some column0 =>
      obtain ⟨column0', hsecond, huid⟩ := last_matching_renewed e now token
        (strftime (renew now.toTm)) (strftime_lt_renew now.le_refl) column0
        db.table hfirst
      change ((matching e' now (.literal token) _).map Row.userId).getLast? = _
        at hsecond
      rw [tableAfter_real, hsecond, tableAfter_real, huid,
        setExpiration_idempotent]

end LidarPublisher.Token.Repetition
