import Mathlib.Data.List.Sort
import Mathlib.Data.Rat.Defs
import Mathlib.Algebra.Order.Field.Rat
import Mathlib.Tactic.Linarith

/-! # The window of clock offsets

What `time_sync_node.cpp` computes from time stamps and from its window of offset
samples. `double` values are exact rationals here, and 64-bit counts of nanoseconds
are integers.
-/

namespace AcflyRos.TimeSync

/-- `builtin_interfaces::msg::Time`. -/
structure Stamp where
  sec : Int32
  nanosec : UInt32
  deriving DecidableEq, Repr

/-- `rclcpp_time_to_ns`. -/
def Stamp.toNs (stamp : Stamp) : Int := stamp.sec.toInt * 1000000000 + stamp.nanosec.toNat

/-- `rclcpp::Duration::seconds`. -/
def seconds (ns : Int) : ℚ := ns / 1000000000

theorem seconds_mono {early late : Int} (hle : early ≤ late) : seconds early ≤ seconds late := by
  unfold seconds
  have hcast : (early : ℚ) ≤ late := Int.cast_le.mpr hle
  linarith

/-- The conversion of a floating-point number to an integer cuts the fraction off. -/
def truncate (x : ℚ) : Int := x.num.tdiv x.den

/-- The first second of a year, by the calendar that `timegm` extends to all years. -/
def minGpsYearToEpoch (year : Int) : Int :=
  (365 * (year - 1970) + (year - 1969) / 4 - (year - 1901) / 100 + (year - 1601) / 400) * 86400

example : minGpsYearToEpoch 1970 = 0 ∧ minGpsYearToEpoch 2020 = 1577836800 := by decide

/-! ## The window -/

/-- `push_back`, and `pop_front` when there are too many. Oldest first. -/
def pushOffset (windowSize : Int) (window : List Int) (offset : Int) : List Int :=
  let window := window ++ [offset]
  if windowSize < window.length then window.tail else window

/-- `std::sort`. -/
def sorted (window : List Int) : List Int := window.insertionSort (· ≤ ·)

/-- The mean, from ten samples on without the extreme tenths. -/
def smoothedOffsetMs (window : List Int) : ℚ :=
  if window = [] then 0
  else if window.length < 10 then (window.sum : ℚ) / window.length / 1000000
  else
    let trim := window.length / 10
    let kept := window.length - 2 * trim
    ((((sorted window).drop trim).take kept).sum : ℚ) / kept / 1000000

/-- The upper one of two middle samples. -/
def medianOffsetNs (window : List Int) : Int := (sorted window)[window.length / 2]?.getD 0

end AcflyRos.TimeSync
