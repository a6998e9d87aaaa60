import Mathlib.Algebra.Order.Round
import Mathlib.Analysis.Convex.Segment
import Mathlib.Tactic.Linarith
import Mathlib.Tactic.Positivity
import Mathlib.Tactic.Ring

/-! # Lines in the plane

Distances between points of the plane are compared by their squares, so that any ordered field will
do. A line is drawn from point to point; evenly spaced marks on a stretch of it leave no gap wider
than their spacing.
-/

namespace AcflyRos.Plane

variable {K : Type*} [Field K] [LinearOrder K] [IsStrictOrderedRing K]

def normSq (v : K × K) : K := v.1 ^ 2 + v.2 ^ 2

theorem normSq_nonneg (v : K × K) : 0 ≤ normSq v := add_nonneg (sq_nonneg _) (sq_nonneg _)

omit [LinearOrder K] [IsStrictOrderedRing K] in
theorem normSq_smul (t : K) (v : K × K) : normSq (t • v) = t ^ 2 * normSq v := by
  simp only [normSq, Prod.smul_fst, Prod.smul_snd, smul_eq_mul]
  ring

/-- The triangle inequality. -/
theorem normSq_add_le {u v : K × K} {a b : K} (ha : 0 ≤ a) (hb : 0 ≤ b) (hu : normSq u ≤ a ^ 2)
    (hv : normSq v ≤ b ^ 2) : normSq (u + v) ≤ (a + b) ^ 2 := by
  have hcauchy : (u.1 * v.1 + u.2 * v.2) ^ 2 ≤ (a * b) ^ 2 := by
    calc (u.1 * v.1 + u.2 * v.2) ^ 2
        ≤ (u.1 * v.1 + u.2 * v.2) ^ 2 + (u.1 * v.2 - u.2 * v.1) ^ 2 :=
          le_add_of_nonneg_right (sq_nonneg _)
      _ = normSq u * normSq v := by
          simp only [normSq]
          ring
      _ ≤ a ^ 2 * b ^ 2 := mul_le_mul hu hv (normSq_nonneg v) (sq_nonneg a)
      _ = (a * b) ^ 2 := by ring
  have hproduct : u.1 * v.1 + u.2 * v.2 ≤ a * b :=
    le_of_sq_le_sq hcauchy (mul_nonneg ha hb)
  calc normSq (u + v) = normSq u + 2 * (u.1 * v.1 + u.2 * v.2) + normSq v := by
        simp only [normSq, Prod.fst_add, Prod.snd_add]
        ring
    _ ≤ a ^ 2 + 2 * (a * b) + b ^ 2 := by linarith
    _ = (a + b) ^ 2 := by ring

/-! ## Marks on a stretch -/

/-- The mark that is nearest to a point of the unit interval. -/
theorem exists_fraction_near [FloorRing K] {t : K} {count : Nat} (hcount : 0 < count)
    (hnonneg : 0 ≤ t) (hle : t ≤ 1) :
    ∃ i ≤ count, (2 * count * (t - i / count)) ^ 2 ≤ 1 := by
  have hpos : (0 : K) < count := Nat.cast_pos.mpr hcount
  have hround := abs_sub_round (t * count)
  have hmark : 0 ≤ round (t * count) := by
    rw [round_eq]
    exact Int.floor_nonneg.mpr (by positivity)
  have hlast : round (t * count) ≤ count := by
    rw [round_eq, Int.floor_le_iff]
    have hmul := mul_le_mul_of_nonneg_right hle hpos.le
    push_cast
    linarith
  obtain ⟨i, hi⟩ := Int.eq_ofNat_of_zero_le hmark
  refine ⟨i, by omega, ?_⟩
  have hscaled : 2 * count * (t - i / count) = 2 * (t * count - round (t * count)) := by
    rw [hi]
    field_simp
    push_cast
    ring
  rw [hscaled, sq_le_one_iff_abs_le_one, abs_mul, abs_two]
  linarith

/-- The point so far along the way. -/
def along (first last : K × K) (t : K) : K × K := first + t • (last - first)

/-- Marks that divide a stretch evenly are near to each of its points. -/
theorem exists_mark_near [FloorRing K] {first last point : K × K} {gap : K} {count : Nat}
    (hcount : 0 < count) (hgap : normSq (last - first) ≤ (2 * count * gap) ^ 2)
    (hpoint : point ∈ segment K first last) :
    ∃ i ≤ count, normSq (point - along first last (i / count)) ≤ gap ^ 2 := by
  rw [segment_eq_image'] at hpoint
  obtain ⟨t, ⟨hnonneg, hle⟩, rfl⟩ := hpoint
  obtain ⟨i, hi, hnear⟩ := exists_fraction_near hcount hnonneg hle
  refine ⟨i, hi, ?_⟩
  have hpos : (0 : K) < (2 * count) ^ 2 := by
    have hcast : (0 : K) < count := Nat.cast_pos.mpr hcount
    positivity
  have hdifference : first + t • (last - first) - along first last (i / count) =
      (t - i / count) • (last - first) := by
    rw [along, sub_smul]
    abel
  rw [hdifference, normSq_smul]
  refine le_of_mul_le_mul_left ?_ hpos
  calc (2 * count) ^ 2 * ((t - i / count) ^ 2 * normSq (last - first))
      = (2 * count * (t - i / count)) ^ 2 * normSq (last - first) := by ring
    _ ≤ 1 * normSq (last - first) := mul_le_mul_of_nonneg_right hnear (normSq_nonneg _)
    _ ≤ (2 * count) ^ 2 * gap ^ 2 := by linarith [mul_pow (2 * (count : K)) gap 2]

theorem along_mem_segment {first last : K × K} {t : K} (hnonneg : 0 ≤ t) (hle : t ≤ 1) :
    along first last t ∈ segment K first last := by
  rw [segment_eq_image']
  exact ⟨t, ⟨hnonneg, hle⟩, rfl⟩

omit [LinearOrder K] [IsStrictOrderedRing K] in
theorem along_zero (first last : K × K) : along first last 0 = first := by simp [along]

omit [LinearOrder K] [IsStrictOrderedRing K] in
theorem along_one (first last : K × K) : along first last 1 = last := by simp [along]

/-! ## Lines -/

/-- The points of a line that is drawn from point to point. -/
def line : K × K → List (K × K) → Set (K × K)
  | first, [] => {first}
  | first, next :: rest => segment K first next ∪ line next rest

/-- A point is within a distance of some of these. -/
def Within (radius : K) (points : Set (K × K)) (point : K × K) : Prop :=
  ∃ near ∈ points, normSq (point - near) ≤ radius ^ 2

theorem Within.trans {points marks : Set (K × K)} {point : K × K} {radius gap : K}
    (hradius : 0 ≤ radius) (hgap : 0 ≤ gap) (hwithin : Within radius points point)
    (hmarks : ∀ near ∈ points, Within gap marks near) : Within (radius + gap) marks point := by
  obtain ⟨near, hnear, hpoint⟩ := hwithin
  obtain ⟨mark, hmark, hdistance⟩ := hmarks near hnear
  refine ⟨mark, hmark, ?_⟩
  rw [← sub_add_sub_cancel point near mark]
  exact normSq_add_le hradius hgap hpoint hdistance

end AcflyRos.Plane
