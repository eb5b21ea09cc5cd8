import LidarPublisher.Polling.StartPolling

/-!
# The bearings of a stay in the innermost loop

`scan_position` starts at 0 when the innermost loop is entered, is moved on
after every scan and reset by subtraction at 360.  Counted from the entry, the
`n`-th scan reports bearing `n % 360` and no other, so a turn of 360 scans
reports every bearing once, wherever it starts.
-/

namespace LidarPublisher.Polling.Sweep

open LidarPublisher.Lib.Binary
open LidarPublisher.Lib.Run
open LidarPublisher.Scan.Message
open LidarPublisher.Udp.ParseRequest
open LidarPublisher.Polling.StartPolling

/-- The array of a scan with one reading, of distance 2, at bearing `b`. -/
def reading (b : Nat) : List Value := (List.replicate 360 0).set b 2

/-- The message holds the reading at bearing `b`. -/
def Reports (m : LaserScan × Nat) (b : Nat) : Prop :=
  m.1.ranges[b]? = some 2 ∧ m.1.intensities[b]? = some 2

/-- The event takes the publisher thread into the innermost loop. -/
def Enters {ω : Type} (s : System) : Event ω → Prop
  | .publisher _ => s.publisher.pc = .outer ∧ s.node.server.polling = true
  | _ => False

instance {ω : Type} (s : System) : (e : Event ω) → Decidable (Enters s e)
  | .publisher _ => inferInstanceAs (Decidable (_ ∧ _))
  | .completion _ _ => inferInstanceAs (Decidable False)
  | .start => inferInstanceAs (Decidable False)
  | .rosShutdown => inferInstanceAs (Decidable False)

/-- The messages are those of a stay: the `n`-th reports bearing `n % 360`. -/
def Sweeps (scans : List (LaserScan × Nat)) : Prop :=
  ∀ n m, scans[n]? = some m →
    m.1.ranges = reading (n % 360) ∧ m.1.intensities = reading (n % 360)

/-- What the publisher has done since it entered the loop with `old` already
published. -/
structure Stay (old : List (LaserScan × Nat)) (p : Publisher) : Prop where
  published : ∃ scans, p.published = old ++ scans ∧ Sweeps scans ∧
    p.scanPosition = ((scans.length % 360 : Nat) : Int)
  distance : p.distance = 2

/-! ## Readings -/

theorem getElem?_reading {n b : Nat} (hn : n < 360) (hb : b < 360) :
    (reading n)[b]? = some 2 ↔ n = b := by
  unfold reading
  rw [List.getElem?_set]
  by_cases heq : n = b
  · rw [if_pos heq, if_pos (by rw [List.length_replicate]; exact hn)]
    exact iff_of_true rfl heq
  · rw [if_neg heq, List.getElem?_replicate, if_pos hb]
    exact iff_of_false (by decide) heq

/-- The distance is a `float`. -/
theorem round_two : binary32.round ((2 : Int) : Rat) = 2 :=
  Format.round_intCast (by decide) (by decide) (by decide) (by norm_num [binary32])

/-- A scan built at position `n` holds one reading. -/
theorem buildScan_eq {p : Publisher} {n : Nat} (hn : n < 360)
    (hpos : p.scanPosition = (n : Int)) (hdist : p.distance = 2)
    (ros : RosAnswer) :
    ∃ scan, p.buildScan ros = some scan ∧
      scan.ranges = reading n ∧ scan.intensities = reading n := by
  have hstore : storeAt (List.replicate 360 0) (n : Int) 2 = some (reading n) :=
    storeAt_eq_some 2 (by rw [List.length_replicate]; omega)
  have hresize : resize 360 [] = List.replicate 360 0 := rfl
  unfold Publisher.buildScan LaserScan.store
  simp only [LaserScan.prepare, LaserScan.new, hpos, hdist, hresize]
  rw [round_two, hstore]
  exact ⟨_, rfl, rfl, rfl⟩

/-! ## One step -/

/-- The wrap test moves a position on by one on the circle. -/
theorem wrap_eq_mod (k : Nat) :
    (if ((k % 360 : Nat) : Int) + 1 ≥ 360 then ((k % 360 : Nat) : Int) + 1 - 360
      else ((k % 360 : Nat) : Int) + 1) = (((k + 1) % 360 : Nat) : Int) := by
  split <;> omega

theorem Sweeps.append {scans : List (LaserScan × Nat)} (h : Sweeps scans)
    {m : LaserScan × Nat}
    (hm : m.1.ranges = reading (scans.length % 360) ∧
      m.1.intensities = reading (scans.length % 360)) :
    Sweeps (scans ++ [m]) := by
  intro n m' hn
  rcases Nat.lt_trichotomy n scans.length with hlt | heq | hgt
  · exact h n m' (by rwa [List.getElem?_append_left hlt] at hn)
  · rw [heq] at hn ⊢
    rw [List.getElem?_concat_length] at hn
    exact Option.some.inj hn ▸ hm
  · rw [List.getElem?_eq_none (by simp; omega)] at hn
    exact absurd hn (by simp)

/-- Entering the loop starts a stay. -/
theorem stay_of_enter {p : Publisher} {polling : Bool} (hpc : p.pc = .outer)
    (hpolling : polling = true) (ros : RosAnswer) :
    Stay p.published (p.step polling ros) := by
  rw [show p.step polling ros =
    { p with pc := .inner, scanPosition := 0, distance := 2 } by
      unfold Publisher.step; rw [hpc, hpolling]; rfl]
  exact { published := ⟨[], by simp, by simp [Sweeps], rfl⟩, distance := rfl }

theorem Stay.publisher_step {old : List (LaserScan × Nat)} {p : Publisher} (h : Stay old p)
    {polling : Bool} (hstay : ¬(p.pc = .outer ∧ polling = true))
    (ros : RosAnswer) : Stay old (p.step polling ros) := by
  unfold Publisher.step
  split
  · split
    · exact { published := h.published, distance := h.distance }
    · exact h
  · next hpc =>
      rw [if_neg (fun hon => hstay ⟨hpc, hon⟩)]
      exact h
  · split
    · exact { published := h.published, distance := h.distance }
    · exact { published := h.published, distance := h.distance }
  · rcases h.published with ⟨scans, hpub, hsweeps, hpos⟩
    obtain ⟨scan, hscan, hread⟩ :=
      buildScan_eq (Nat.mod_lt _ (by omega)) hpos h.distance ros
    rw [hscan]
    refine { published := ⟨scans ++ [(scan, 180)], ?_, ?_, ?_⟩
             distance := h.distance }
    · show p.published ++ _ = _
      rw [hpub, List.append_assoc]
    · exact hsweeps.append hread
    · dsimp only
      rw [hpos, wrap_eq_mod, List.length_append, List.length_singleton]
  · exact h

/-! ## Whole stays -/

variable {ω : Type} (verifyToken : List UInt8 → ω → Int × ω)

theorem stay_of_enters {s : System} {e : Event ω} (h : Enters s e) :
    Stay s.publisher.published (step verifyToken s e).publisher := by
  cases e with
  | publisher ros => exact stay_of_enter h.1 h.2 ros
  | completion c w => exact absurd h id
  | start => exact absurd h id
  | rosShutdown => exact absurd h id

theorem Stay.of_not_enters {old : List (LaserScan × Nat)} {s : System}
    {e : Event ω} (h : Stay old s.publisher) (he : ¬Enters s e) :
    Stay old (step verifyToken s e).publisher := by
  cases e with
  | publisher ros => exact h.publisher_step he ros
  | completion c w => exact h
  | start => exact { published := h.published, distance := h.distance }
  | rosShutdown => exact { published := h.published, distance := h.distance }

/-- In a full turn exactly one message reports a given bearing. -/
theorem Sweeps.existsUnique {scans : List (LaserScan × Nat)} (h : Sweeps scans)
    {first : Nat} (hfirst : first + 360 ≤ scans.length) {b : Nat} (hb : b < 360) :
    ∃! i, (first ≤ i ∧ i < first + 360) ∧ ∃ m, scans[i]? = some m ∧ Reports m b := by
  have hreports : ∀ i m, scans[i]? = some m → (Reports m b ↔ i % 360 = b) := by
    intro i m hm
    unfold Reports
    rw [(h i m hm).1, (h i m hm).2, and_self,
      getElem?_reading (Nat.mod_lt _ (by omega)) hb]
  -- the only index of the window in the residue class of `b`
  refine ⟨first + (b + 360 - first % 360) % 360, ⟨⟨by omega, by omega⟩, ?_⟩, ?_⟩
  · have hlt : first + (b + 360 - first % 360) % 360 < scans.length := by omega
    refine ⟨_, List.getElem?_eq_getElem hlt, ?_⟩
    rw [hreports _ _ (List.getElem?_eq_getElem hlt)]
    omega
  · intro i hi
    rcases hi with ⟨hwindow, m, hm, hrep⟩
    have hmod := (hreports i m hm).mp hrep
    omega

/-- **The published bearings sweep the circle.**  At any time of a stay in the
innermost loop every store was in bounds, the `n`-th scan since the entry holds
one reading, at bearing `n % 360`, and any 360 consecutive scans report every
bearing exactly once. -/
theorem sweep (garbage : Buf) (pre post : List (Event ω)) (e : Event ω)
    (henter : Enters (runFrom (step verifyToken) (System.init garbage) pre) e)
    (hstay : EveryStep (step verifyToken) (fun s f => ¬Enters s f)
      (runFrom (step verifyToken) (System.init garbage) (pre ++ [e])) post) :
    let old := (runFrom (step verifyToken) (System.init garbage) pre).publisher
    let now := (runFrom (step verifyToken) (System.init garbage)
      (pre ++ e :: post)).publisher
    now.pc ≠ .undefined ∧ (0 ≤ now.scanPosition ∧ now.scanPosition < 360) ∧
      ∃ scans, now.published = old.published ++ scans ∧
        (∀ n m, scans[n]? = some m →
          m.1.ranges = (List.replicate 360 0).set (n % 360) 2 ∧
            m.1.intensities = (List.replicate 360 0).set (n % 360) 2) ∧
        ∀ first, first + 360 ≤ scans.length → ∀ b, b < 360 →
          ∃! i, (first ≤ i ∧ i < first + 360) ∧
            ∃ m, scans[i]? = some m ∧ Reports m b := by
  intro old now
  have hinv : now.Inv :=
    inv_runFrom (fun s : System => s.publisher.Inv)
      (fun _ f => publisher_inv_step verifyToken f) _ _
      (System.inv_init garbage).publisher
  have hnow : Stay old.published now := by
    show Stay old.published (runFrom (step verifyToken) (System.init garbage)
      (pre ++ e :: post)).publisher
    rw [runFrom_append] at hstay ⊢
    exact inv_runFrom_of_everyStep
      (fun s : System => Stay old.published s.publisher)
      (fun s f hs hf => hs.of_not_enters verifyToken hf) _ post
      (stay_of_enters verifyToken henter) hstay
  rcases hnow.published with ⟨scans, hpub, hsweeps, -⟩
  exact ⟨hinv.defined, hinv.position, scans, hpub, hsweeps,
    fun first hfirst b hb => hsweeps.existsUnique hfirst hb⟩

/-- A start, a request and two iterations: two scans, the second with its reading
at bearing 1. -/
theorem sweep_two :
    let scans := (runFrom (step acceptAll)
      (System.init (Vector.replicate readBufSize 0))
      ([.start, .publisher { now := 0, frameId := none },
          request 'S'.toNat.toUInt8] ++
        .publisher { now := 1, frameId := none } ::
          (List.replicate 4
            (.publisher { now := 2, frameId := none })))).publisher.published
    scans.length = 2 ∧ ∀ n m, scans[n]? = some m →
      m.1.ranges = (List.replicate 360 0).set (n % 360) 2 ∧
        m.1.intensities = (List.replicate 360 0).set (n % 360) 2 := by
  refine ⟨by decide +kernel, ?_⟩
  intro n m hm
  rcases sweep acceptAll (Vector.replicate readBufSize 0)
      [.start, .publisher { now := 0, frameId := none },
        request 'S'.toNat.toUInt8]
      (List.replicate 4 (.publisher { now := 2, frameId := none }))
      (.publisher { now := 1, frameId := none })
      ⟨by decide, by decide⟩
      (by
        refine ⟨?_, ?_, ?_, ?_, trivial⟩
        all_goals
          show ¬Enters _ _
          decide +kernel) with ⟨-, -, scans, hpub, hscans, -⟩
  rw [hpub] at hm
  exact hscans n m hm

end LidarPublisher.Polling.Sweep
