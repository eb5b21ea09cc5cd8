import LidarPublisher.Lib.Binary
import Mathlib.Data.List.Basic

/-!
# The laser scan message

The fields of `sensor_msgs::LaserScan` the driver fills.  Those that hold a number
are `float`s.  A store through `operator[]` is partial: outside the array its
behaviour is undefined.
-/

namespace LidarPublisher.Scan.Message

open LidarPublisher.Lib.Binary

/-- `sensor_msgs::LaserScan`. -/
structure LaserScan where
  frameId : String
  stamp : Nat
  angleMin : Value
  angleMax : Value
  angleIncrement : Value
  rangeMin : Value
  rangeMax : Value
  timeIncrement : Value
  ranges : List Value
  intensities : List Value
  deriving DecidableEq, Repr

/-- `new sensor_msgs::LaserScan`. -/
def LaserScan.new : LaserScan :=
  { frameId := "", stamp := 0, angleMin := 0, angleMax := 0, angleIncrement := 0
    rangeMin := 0, rangeMax := 0, timeIncrement := 0
    ranges := [], intensities := [] }

/-- `std::vector<float>::resize`: cut, or fill up with zeros. -/
def resize (n : Nat) (xs : List Value) : List Value :=
  xs.take n ++ List.replicate (n - xs.length) 0

@[simp] theorem length_resize (n : Nat) (xs : List Value) :
    (resize n xs).length = n := by
  simp only [resize, List.length_append, List.length_take,
    List.length_replicate]
  omega

/-- A cell keeps its content, and is 0 when it is new. -/
theorem getElem?_resize {n i : Nat} (hi : i < n) (xs : List Value) :
    (resize n xs)[i]? = some (xs[i]?.getD 0) := by
  unfold resize
  by_cases hold : i < xs.length
  · rw [List.getElem?_append_left (by rw [List.length_take]; omega),
      List.getElem?_take_of_lt hi, List.getElem?_eq_getElem hold]
    rfl
  · rw [List.getElem?_append_right (by rw [List.length_take]; omega),
      List.getElem?_replicate, if_pos (by rw [List.length_take]; omega),
      List.getElem?_eq_none (by omega)]
    rfl

/-- A `double` in a `float` field: the quotient of two numbers, say, is rounded
to a `double` first. -/
def ofDouble (q : Rat) : Value := binary32.convert (binary64.round q)

/-- `M_PI`, a `double`. -/
def mPi : Rat := 884279719003555 / 2 ^ 48

/-- The geometry fields set before every measurement, by `startPolling` and by
`poll` alike. -/
def LaserScan.prepare (s : LaserScan) : LaserScan :=
  { s with
    angleMin := 0
    angleMax := ofDouble (2 * mPi)
    angleIncrement := ofDouble (2 * mPi / 360)
    rangeMin := ofDouble (1 / 100)
    rangeMax := 6
    ranges := resize 360 s.ranges
    intensities := resize 360 s.intensities }

/-- `xs[i] = v` for a C++ `int` index. -/
def storeAt (xs : List Value) (i : Int) (v : Value) : Option (List Value) :=
  if 0 ≤ i ∧ i < xs.length then some (xs.set i.toNat v) else none

theorem storeAt_eq_some {xs : List Value} {i : Int} (v : Value)
    (h : 0 ≤ i ∧ i < xs.length) : storeAt xs i v = some (xs.set i.toNat v) :=
  if_pos h

/-- `ranges[i] = range; intensities[i] = intensity`. -/
def LaserScan.store (s : LaserScan) (i : Int) (range intensity : Value) :
    Option LaserScan := do
  let ranges ← storeAt s.ranges i range
  let intensities ← storeAt s.intensities i intensity
  return { s with ranges := ranges, intensities := intensities }

end LidarPublisher.Scan.Message
