import Mathlib.Data.Fintype.EquivFin
import Mathlib.Data.Set.Finite.Lattice
import Mathlib.Order.WellFounded
import Mathlib.Order.RelClasses
import Mathlib.Data.Fintype.Order

/-! # Chains of a relation

How far one can go from an element along a relation. Over finitely many elements and
without cycles every element has a longest chain.
-/

namespace AcflyRos.Chains

open Relation

universe u

variable {α : Type u} (r : α → α → Prop)

/-- Some chain of that length starts at the element. -/
def HasChain : Nat → α → Prop
  | 0, _ => True
  | n + 1, x => ∃ y, r x y ∧ HasChain n y

/-- The longest chain from the element has that length. -/
def LongestChain (n : Nat) (x : α) : Prop := HasChain r n x ∧ ¬ HasChain r (n + 1) x

variable {r}

/-- A chain can be cut short. -/
theorem HasChain.le {m n : Nat} {x : α} (h : HasChain r n x) (hle : m ≤ n) : HasChain r m x := by
  induction m generalizing n x with
  | zero => trivial
  | succ m ih =>
      obtain ⟨k, rfl⟩ : ∃ k, n = k + 1 := ⟨n - 1, by omega⟩
      obtain ⟨y, hxy, hy⟩ := h
      exact ⟨y, hxy, ih hy (Nat.le_of_succ_le_succ hle)⟩

/-- The chains that start at an element are those of at most the greatest length. -/
theorem LongestChain.hasChain_iff {n : Nat} {x : α} (h : LongestChain r n x) (m : Nat) :
    HasChain r m x ↔ m ≤ n := by
  constructor
  · intro hchain
    by_contra hlong
    exact h.2 (hchain.le (by omega))
  · exact h.1.le

/-- A relation that lowers a rank has no cycle. -/
theorem acyclic_of_rank (rank : α → Nat) (hrank : ∀ x y, r x y → rank y < rank x) (x : α) :
    ¬ TransGen r x x := by
  have hlower : ∀ {x y}, TransGen r x y → rank y < rank x := by
    intro x y hxy
    induction hxy with
    | single hstep => exact hrank _ _ hstep
    | tail _ hstep ih => exact (hrank _ _ hstep).trans ih
  exact fun hcycle => Nat.lt_irrefl _ (hlower hcycle)

/-- Without cycles there is no infinite chain. -/
theorem wellFounded_of_acyclic [Finite α] (hacyclic : ∀ x, ¬ TransGen r x x) :
    WellFounded fun y x => r x y := by
  have htrans : IsTrans α (fun y x => TransGen r x y) := ⟨fun _ _ _ hyx hzy => hzy.trans hyx⟩
  have hirrefl : Std.Irrefl (fun y x : α => TransGen r x y) := ⟨hacyclic⟩
  exact Subrelation.wf (fun hxy => TransGen.single hxy)
    (Finite.wellFounded_of_trans_of_irrefl fun y x => TransGen r x y)

/-- Without cycles every element has a longest chain. -/
theorem exists_longestChain [Finite α] (hacyclic : ∀ x, ¬ TransGen r x x) (x : α) :
    ∃ n, LongestChain r n x := by
  classical
  have hbounded : ∃ n, ¬ HasChain r n x := by
    induction x using (wellFounded_of_acyclic hacyclic).induction with
    | _ x ih =>
        choose bound hbound using ih
        have := Fintype.ofFinite α
        refine ⟨Finset.univ.sup (fun y => if hxy : r x y then bound y hxy else 0) + 1, ?_⟩
        rintro ⟨y, hxy, hy⟩
        apply hbound y hxy
        apply hy.le
        have hle := Finset.le_sup (f := fun y => if hxy : r x y then bound y hxy else 0)
          (Finset.mem_univ y)
        simpa [hxy] using hle
  cases hfirst : Nat.find hbounded with
  | zero =>
      have hnone := Nat.find_spec hbounded
      rw [hfirst] at hnone
      exact absurd trivial hnone
  | succ n =>
      have hnone := Nat.find_spec hbounded
      rw [hfirst] at hnone
      have hsome := Nat.find_min hbounded (m := n) (by omega)
      exact ⟨n, not_not.mp hsome, hnone⟩

end AcflyRos.Chains
