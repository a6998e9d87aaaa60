import Mathlib.Algebra.Order.Ring.GeomSum
import Mathlib.Data.List.Chain
import Mathlib.Tactic.Linarith
import Mathlib.Tactic.Ring

/-! # Slow decay

Values that never grow, nor shrink by more than a factor from one to the next. Newest first,
they are bounded by a geometric progression that starts at the newest.
-/

namespace AcflyRos.Decay

open Finset

universe u

variable {K : Type u} [CommRing K] [LinearOrder K] {factor : K}

/-- Newest first. -/
def Decays (factor : K) (values : List K) : Prop :=
  values.IsChain fun new old => new ≤ old ∧ old ≤ factor * new

theorem Decays.cons {value new : K} {rest : List K} (h : Decays factor (new :: rest))
    (hle : value ≤ new) (hfactor : new ≤ factor * value) : Decays factor (value :: new :: rest) :=
  List.isChain_cons_cons.mpr ⟨⟨hle, hfactor⟩, h⟩

theorem Decays.take {values : List K} (h : Decays factor values) (n : Nat) :
    Decays factor (values.take n) := List.IsChain.take h n

theorem Decays.pairwise {values : List K} (h : Decays factor values) :
    values.Pairwise (· ≤ ·) := by
  rw [← List.isChain_iff_pairwise]
  exact List.IsChain.imp (fun _ _ hpair => hpair.1) h

section Sum

variable [IsStrictOrderedRing K] (hpos : 0 ≤ factor) {new : K} {old : List K}
  (h : Decays factor (new :: old))

include hpos h

theorem Decays.sum_old_le : old.sum ≤ factor * new * ∑ i ∈ range old.length, factor ^ i := by
  induction old generalizing new with
  | nil => simp
  | cons next rest ih =>
      obtain ⟨⟨_, hnext⟩, hrest⟩ := List.isChain_cons_cons.mp h
      have hsum : 0 ≤ ∑ i ∈ range (rest.length + 1), factor ^ i :=
        sum_nonneg fun i _ => pow_nonneg hpos i
      calc (next :: rest).sum
          = next + rest.sum := List.sum_cons
        _ ≤ next + factor * next * ∑ i ∈ range rest.length, factor ^ i := by
            gcongr
            exact ih hrest
        _ = next * ∑ i ∈ range (rest.length + 1), factor ^ i := by
            rw [geom_sum_succ]
            ring
        _ ≤ factor * new * ∑ i ∈ range (next :: rest).length, factor ^ i := by
            rw [List.length_cons]
            gcongr

theorem Decays.sum_le :
    (new :: old).sum ≤ new * ∑ i ∈ range (old.length + 1), factor ^ i := by
  rw [List.sum_cons, geom_sum_succ]
  linarith [h.sum_old_le hpos]

end Sum

end AcflyRos.Decay
