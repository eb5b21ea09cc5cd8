import LidarPublisher.Token.Acceptance
import LidarPublisher.Udp.ParseRequest

/-!
# What a refused message leaves behind

The command bytes are looked at after the token has been verified, the
expiration renewed and the token cached.  A message with a good token and bad
command bytes is answered with -1 and has opened the session all the same.
-/

namespace LidarPublisher.Udp.Refusal

open LidarPublisher.Sqlite.Lexer
open LidarPublisher.Sqlite.Execute
open LidarPublisher.Token.Clock
open LidarPublisher.Token.Query
open LidarPublisher.Token.VerifyToken
open LidarPublisher.Token.Acceptance
open LidarPublisher.Udp.ParseRequest

variable (e : Engine) (f : Faults) (now later : LocalTime)

/-- The parse of a message of 21 bytes against the database. -/
def serve (buf : Buf) (s : Server) (db : Db) : Int × Server × Db :=
  parse21 (verifyToken (Calls.faulty e f) now later) buf s db

/-- The answer -1 leaves the cached token and the table as they were. -/
def Harmless (buf : Buf) (s : Server) (db : Db) : Prop :=
  (serve e f now later buf s db).1 = -1 →
    (serve e f now later buf s db).2.1.token = s.token ∧
      (serve e f now later buf s db).2.2.table = db.table

/-- The renewal for `column0` writes nothing: the step fails, or the rows of
that user carry the new expiration already. -/
def WritesNothing (column0 : Int64) (t : Table) : Prop :=
  f.updateError = true ∨
    ∀ r ∈ t, r.userId.toInt = column0.toInt32.toInt →
      r.expiration = strftime (renew later.toTm)

theorem tableAfter_eq_self_iff (column0 : Int64) (t : Table) :
    (Calls.faulty e f).tableAfter later t (some column0) = t ↔
      WritesNothing f later column0 t := by
  rw [tableAfter_faulty, WritesNothing]
  cases f.updateError with
  | true => simp
  | false =>
      simp only [Bool.false_eq_true, if_false, false_or]
      exact setExpiration_eq_self_iff _ _ t

/-- **When a refusal changes nothing.**  A message answered with -1 leaves the
cached token and the table alone exactly if one of these holds: it has no
terminator, a token is cached, its command bytes are good (so that it is refused
for its token only), its token is refused, or its token is empty and the renewal
writes nothing. -/
theorem harmless_iff (buf : Buf) (s : Server) (db : Db) :
    Harmless e f now later buf s db ↔
      firstTerminator buf.toList = none ∨ s.token ≠ [] ∨
        CommandBytes buf.toList ∨
          ∀ column0, (Calls.faulty e f).target now later (presented21 buf s)
              db.table = some column0 →
            presented21 buf s = [] ∧ WritesNothing f later column0 db.table := by
  have hr := scan_r_eq buf s.readBuf
  unfold Harmless serve
  have hexit := parse21_exit (verifyToken (Calls.faulty e f) now later) buf s db
  generalize parse21 (verifyToken (Calls.faulty e f) now later) buf s db = out
    at hexit ⊢
  cases hexit with
  | noTerminator hmissing =>
      refine iff_of_true (fun _ => ⟨rfl, rfl⟩) (Or.inl ?_)
      rw [← Option.isNone_iff_eq_none, ← Option.not_isSome, ← hr, hmissing]
      rfl
  | refused hfound htok hans =>
      refine iff_of_true (fun _ => ⟨rfl, table_of_refused hans⟩)
        (Or.inr (Or.inr (Or.inr fun column0 htarget => ?_)))
      rw [verifyToken_eq_neg_one_iff, htarget] at hans
      exact absurd hans (by simp)
  | verified hfound htok hans =>
      have hterm : firstTerminator buf.toList ≠ none :=
        Option.isSome_iff_ne_none.mp (hr.symm.trans hfound)
      -- the session is open now; only the command bytes are left to refuse
      obtain ⟨column0, htarget⟩ := Option.ne_none_iff_exists'.mp fun hnone =>
        hans ((verifyToken_eq_neg_one_iff _ now later _ db).mpr hnone)
      have htable := (verifyToken_code_table (Calls.faulty e f) now later
        (presented21 buf s) db).2
      rw [htarget] at htable
      rw [show (s.scanned buf readBufSize (Nat.le_refl _)).readBuf =
        (scan21 buf s.readBuf).readBuf from rfl, command_scan21 _ hfound,
        command_eq_neg_one_iff]
      show (_ → presented21 buf s = s.token ∧
        (verifyToken (Calls.faulty e f) now later (presented21 buf s) db).2.table =
          db.table) ↔ _
      rw [htable, tableAfter_eq_self_iff, htok, htarget]
      simp only [hterm, ne_eq, not_true_eq_false, false_or, Option.some.injEq,
        forall_eq']
      exact imp_iff_not_or.trans (by rw [not_not])
  | cached hfound htok =>
      exact iff_of_true (fun _ => ⟨rfl, rfl⟩) (Or.inr (Or.inl htok))

/-- A good token between bad command bytes and a good terminator. -/
def badCommand : Buf :=
  #v['X'.toNat.toUInt8, 'S'.toNat.toUInt8, 0x41, 0x41, 0x41, 0x41, 0x41, 0x41,
    0x41, 0x41, 0x41, 0x41, 0x41, 0x41, 0x41, 0x41, 0x41, 0x41, carriageReturn,
    lineFeed, endOfTransmission]

/-- The refused message opens the session. -/
theorem not_harmless :
    ¬∀ (e : Engine) (now later : LocalTime) (buf : Buf) (s : Server) (db : Db),
      Harmless e .none now later buf s db := by
  intro h
  have hanswer : (serve Engine.plain .none noon noon badCommand Server.init
      { table := sixteenAsTable, handles := [] }).1 = -1 := by
    unfold serve
    rw [parse21_answer, show command badCommand = -1 from rfl, ite_self]
  have htoken := (h Engine.plain noon noon badCommand Server.init
    { table := sixteenAsTable, handles := [] } hanswer).1
  exact absurd htoken (by decide +kernel)

end LidarPublisher.Udp.Refusal
