import Mathlib.Algebra.Order.BigOperators.Group.List
import Mathlib.Algebra.Order.Field.Basic
import Mathlib.Data.Finset.Max
import Mathlib.Data.List.Sort

/-! # Ranks in sorted samples

Where an entry of a sorted list lies is decided by how many samples lie on either side of it.
So a few arbitrary samples among many cannot push an entry near the middle beyond the others.
-/

namespace AcflyRos.Ranks

universe u

variable {α : Type u} [LinearOrder α]

/-- An entry of a sorted list has a property that passes to smaller ones exactly if more than
its index many have it. -/
theorem getElem_iff_lt_countP {samples : List α} {p : α → Prop} [DecidablePred p]
    (hsorted : samples.Pairwise (· ≤ ·)) (hp : ∀ low high, low ≤ high → p high → p low)
    {i : Nat} (hi : i < samples.length) : p samples[i] ↔ i < samples.countP p := by
  induction samples generalizing i with
  | nil => exact absurd hi (Nat.not_lt_zero i)
  | cons first rest ih =>
      rw [List.pairwise_cons] at hsorted
      rw [List.countP_cons]
      by_cases hfirst : p first
      · cases i with
        | zero => simp [hfirst]
        | succ i =>
            have hrest : i < rest.length := Nat.lt_of_succ_lt_succ hi
            simpa [hfirst] using ih hsorted.2 hrest
      · -- Nor has any later one the property.
        have hnone : rest.countP p = 0 := by
          rw [List.countP_eq_zero]
          intro sample hsample
          simpa using fun hlater => hfirst (hp first sample (hsorted.1 sample hsample) hlater)
        cases i with
        | zero => simp [hfirst, hnone]
        | succ i =>
            have hrest : i < rest.length := Nat.lt_of_succ_lt_succ hi
            have hlater : ¬ p rest[i] :=
              fun hlater => hfirst (hp _ _ (hsorted.1 _ (List.getElem_mem hrest)) hlater)
            simp [hfirst, hnone, hlater]

/-- The same from above. -/
theorem getElem_iff_le_countP {samples : List α} {p : α → Prop} [DecidablePred p]
    (hsorted : samples.Pairwise (· ≤ ·)) (hp : ∀ low high, low ≤ high → p low → p high)
    {i : Nat} (hi : i < samples.length) : p samples[i] ↔ samples.length - i ≤ samples.countP p := by
  have hnot := getElem_iff_lt_countP (p := fun sample => ¬ p sample) hsorted
    (fun low high hle hhigh hlow => hhigh (hp low high hle hlow)) hi
  have hlength := samples.length_eq_countP_add_countP p
  simp only [decide_eq_true_eq] at hlength
  rw [← not_iff_not, hnot]
  omega

/-! ## Few outliers -/

/-- A sample between two of the others. -/
def Between (samples : List α) (sample : α) : Prop :=
  ∃ low ∈ samples, ∃ high ∈ samples, low ≤ sample ∧ sample ≤ high

theorem Between.map {β : Type*} [LinearOrder β] {samples : List α} {sample : α} {f : α → β}
    (hf : Monotone f) (h : Between samples sample) : Between (samples.map f) (f sample) := by
  obtain ⟨low, hlow, high, hhigh, hle, hle'⟩ := h
  exact ⟨f low, List.mem_map_of_mem hlow, f high, List.mem_map_of_mem hhigh, hf hle, hf hle'⟩

/-- The others have a least and a greatest one. -/
theorem exists_bounds {samples : List α} (hsamples : samples ≠ []) :
    ∃ low ∈ samples, ∃ high ∈ samples, ∀ sample ∈ samples, low ≤ sample ∧ sample ≤ high := by
  have hnonempty : samples.toFinset.Nonempty := List.toFinset_nonempty_iff samples |>.mpr hsamples
  obtain ⟨low, hlow, hleast⟩ := samples.toFinset.exists_min_image id hnonempty
  obtain ⟨high, hhigh, hgreatest⟩ := samples.toFinset.exists_max_image id hnonempty
  simp only [List.mem_toFinset, id_eq] at hlow hleast hhigh hgreatest
  exact ⟨low, hlow, high, hhigh, fun sample hsample =>
    ⟨hleast sample hsample, hgreatest sample hsample⟩⟩

/-- A mean lies where what it is taken of lies. -/
theorem between_mean {K : Type*} [Field K] [LinearOrder K] [IsStrictOrderedRing K]
    {samples kept : List K} (hkept : kept ≠ [])
    (hbetween : ∀ sample ∈ kept, Between samples sample) :
    Between samples (kept.sum / kept.length) := by
  have hlength : (0 : K) < kept.length := Nat.cast_pos.mpr (List.length_pos_iff.mpr hkept)
  obtain ⟨first, hfirst⟩ := List.exists_mem_of_ne_nil kept hkept
  obtain ⟨some, hsome, _⟩ := hbetween first hfirst
  obtain ⟨low, hlow, high, hhigh, hall⟩ := exists_bounds (List.ne_nil_of_mem hsome)
  refine ⟨low, hlow, high, hhigh, ?_, ?_⟩
  · rw [le_div_iff₀ hlength, mul_comm, ← nsmul_eq_mul]
    apply List.card_nsmul_le_sum
    intro sample hsample
    obtain ⟨lower, hlower, _, _, hle, _⟩ := hbetween sample hsample
    exact (hall lower hlower).1.trans hle
  · rw [div_le_iff₀ hlength, mul_comm, ← nsmul_eq_mul]
    apply List.sum_le_card_nsmul
    intro sample hsample
    obtain ⟨_, _, upper, hupper, _, hle⟩ := hbetween sample hsample
    exact hle.trans (hall upper hupper).2

section Outliers

variable {sorted good outliers : List α} (hsorted : sorted.Pairwise (· ≤ ·))
  (hperm : sorted.Perm (good ++ outliers)) {i : Nat} (hi : i < sorted.length)

include hsorted hperm

/-- Outliers below cannot reach past their number. -/
theorem exists_le_getElem (hbelow : outliers.length ≤ i) : ∃ low ∈ good, low ≤ sorted[i] := by
  by_contra hnone
  push Not at hnone
  have hgood : good.countP (· ≤ sorted[i]) = 0 := by
    rw [List.countP_eq_zero]
    simpa using hnone
  have hrank := (getElem_iff_lt_countP (p := (· ≤ sorted[i])) hsorted
    (fun _ _ hle hle' => hle.trans hle') hi).mp le_rfl
  rw [hperm.countP_eq, List.countP_append, hgood] at hrank
  have hfew := outliers.countP_le_length (p := (· ≤ sorted[i]))
  omega

theorem exists_getElem_le (habove : i + outliers.length < sorted.length) :
    ∃ high ∈ good, sorted[i] ≤ high := by
  by_contra hnone
  push Not at hnone
  have hgood : good.countP (· < sorted[i]) = good.length := by
    rw [List.countP_eq_length]
    simpa using hnone
  have hrank := (getElem_iff_lt_countP (p := (· < sorted[i])) hsorted
    (fun _ _ hle hlt => hle.trans_lt hlt) hi).not.mp (lt_irrefl _)
  have hlength := hperm.length_eq
  rw [hperm.countP_eq, List.countP_append, hgood] at hrank
  rw [List.length_append] at hlength
  omega

theorem between_getElem (hbelow : outliers.length ≤ i)
    (habove : i + outliers.length < sorted.length) : Between good sorted[i] := by
  obtain ⟨low, hlow, hle⟩ := exists_le_getElem hsorted hperm hi hbelow
  obtain ⟨high, hhigh, hle'⟩ := exists_getElem_le hsorted hperm hi habove
  exact ⟨low, hlow, high, hhigh, hle, hle'⟩

end Outliers

end AcflyRos.Ranks
