import Mathlib.Algebra.Order.Group.Defs
import Mathlib.Algebra.Order.Sub.Basic
import Mathlib.Data.List.Basic

/-! # Arrivals without long gaps

A stream flows during a stretch of time if no part of the stretch that is longer than a timeout
passes without an arrival.
-/

namespace AcflyRos.Gaps

universe u

variable {α : Type u} [AddCommGroup α] [LinearOrder α] {timeout : α} {arrivals : List α}
  {start stop : α}

def Flows (timeout : α) (arrivals : List α) (start stop : α) : Prop :=
  ∀ early late, start ≤ early → late ≤ stop → timeout < late - early →
    ∃ arrival ∈ arrivals, early < arrival ∧ arrival < late

/-- A short stretch needs no arrival. -/
theorem flows_of_short [IsOrderedAddMonoid α] (hshort : stop - start ≤ timeout) :
    Flows timeout arrivals start stop := by
  intro early late hearly hlate hlong
  exact absurd ((sub_le_sub hlate hearly).trans hshort) (not_le.mpr hlong)

theorem Flows.mono {later : α} (h : Flows timeout arrivals start stop) (hle : start ≤ later) :
    Flows timeout arrivals later stop :=
  fun early late hearly => h early late (hle.trans hearly)

theorem Flows.of_subset {more : List α} (h : Flows timeout arrivals start stop)
    (hsubset : arrivals ⊆ more) : Flows timeout more start stop := by
  intro early late hearly hlate hlong
  obtain ⟨arrival, hmem, hbetween⟩ := h early late hearly hlate hlong
  exact ⟨arrival, hsubset hmem, hbetween⟩

/-- From an arrival on, the stream flows for another timeout. -/
theorem Flows.extend [IsOrderedAddMonoid α] {now : α} (h : Flows timeout arrivals start stop)
    (hstop : stop ∈ arrivals) (hshort : now - stop ≤ timeout) :
    Flows timeout arrivals start now := by
  intro early late hearly hlate hlong
  rcases le_or_gt late stop with hbefore | hpast
  · exact h early late hearly hbefore hlong
  · rcases lt_or_ge early stop with hacross | hafter
    · exact ⟨stop, hstop, hacross, hpast⟩
    · exact absurd ((sub_le_sub hlate hafter).trans hshort) (not_le.mpr hlong)

end AcflyRos.Gaps
