import Mathlib.Algebra.BigOperators.Group.List.Basic
import Mathlib.Algebra.Order.Monoid.Defs
import Mathlib.Order.Bounds.Basic

/-! # Leaky buckets

A level that goes up and down by what every item weighs, but never below zero, is the largest
balance that the items have from some point on.
-/

namespace AcflyRos.Buckets

universe u v

variable {τ : Type u} {α : Type v} [AddMonoid α] [LinearOrder α] {weight : τ → α}
  {items : List τ} {level : α}

/-- The balances of the last items, however many of them are taken. -/
def balances (weight : τ → α) (items : List τ) : Set α :=
  {balance | ∃ recent, recent <:+ items ∧ (recent.map weight).sum = balance}

theorem isGreatest_nil : IsGreatest (balances weight []) (0 : α) := by
  constructor
  · exact ⟨[], List.suffix_rfl, rfl⟩
  · rintro balance ⟨recent, hrecent, rfl⟩
    rw [List.suffix_nil.mp hrecent]
    exact le_rfl

/-- The empty part has no balance. -/
theorem nonneg (h : IsGreatest (balances weight items) level) : 0 ≤ level :=
  h.2 ⟨[], List.nil_suffix, rfl⟩

/-- One more item weighs in every balance but the empty one. -/
theorem isGreatest_concat [AddRightMono α] (h : IsGreatest (balances weight items) level)
    (item : τ) :
    IsGreatest (balances weight (items ++ [item])) (max 0 (level + weight item)) := by
  obtain ⟨⟨best, hbest, hlevel⟩, hgreatest⟩ := h
  constructor
  · rcases le_total (level + weight item) 0 with hempty | hfilled
    · rw [max_eq_left hempty]
      exact ⟨[], List.nil_suffix, rfl⟩
    · rw [max_eq_right hfilled]
      refine ⟨best ++ [item], List.suffix_concat_iff.mpr (Or.inr ⟨best, rfl, hbest⟩), ?_⟩
      rw [List.map_append, List.sum_append, hlevel]
      simp
  · rintro balance ⟨recent, hrecent, rfl⟩
    rcases List.suffix_concat_iff.mp hrecent with rfl | ⟨earlier, rfl, hearlier⟩
    · exact le_max_left _ _
    · have hle : (earlier.map weight).sum ≤ level := hgreatest ⟨earlier, hearlier, rfl⟩
      rw [List.map_append, List.sum_append]
      simpa using Or.inr (add_le_add_left hle (weight item))

end AcflyRos.Buckets
