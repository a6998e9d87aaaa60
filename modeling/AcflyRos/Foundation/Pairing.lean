import Mathlib.Algebra.Order.Group.Abs
import Mathlib.Data.Multiset.Sort

/-! # Pairing two streams by time

Two streams of timed items are paired from their fronts: fronts within a tolerance of each
other are a pair, otherwise the older front has no partner and is dropped. When both streams
are in the order of time, no way to choose disjoint pairs within the tolerance, in whatever
order, gives more of them.
-/

namespace AcflyRos.Pairing

universe u v w

variable {α : Type u} {β : Type v} {T : Type w} [AddCommGroup T] [LinearOrder T]
variable (leftTime : α → T) (rightTime : β → T) (tolerance : T)

/-- The two items may be a pair. -/
def Within (left : α) (right : β) : Prop :=
  |leftTime left - rightTime right| ≤ tolerance

instance (left : α) (right : β) : Decidable (Within leftTime rightTime tolerance left right) :=
  inferInstanceAs (Decidable (_ ≤ _))

/-- Pairing from the front. -/
def greedy : List α → List β → List (α × β)
  | [], _ => []
  | _ :: _, [] => []
  | left :: lefts, right :: rights =>
      if Within leftTime rightTime tolerance left right then
        (left, right) :: greedy lefts rights
      else if rightTime right < leftTime left then greedy (left :: lefts) rights
      else greedy lefts (right :: rights)
termination_by lefts rights => lefts.length + rights.length

section Steps

variable {leftTime rightTime tolerance} {left : α} {right : β} {lefts : List α}
  {rights : List β}

@[simp] theorem greedy_nil_left : greedy leftTime rightTime tolerance [] rights = [] := by
  rw [greedy]

@[simp] theorem greedy_nil_right : greedy leftTime rightTime tolerance lefts [] = [] := by
  cases lefts <;> rw [greedy]

theorem greedy_pair (hwithin : Within leftTime rightTime tolerance left right) :
    greedy leftTime rightTime tolerance (left :: lefts) (right :: rights) =
      (left, right) :: greedy leftTime rightTime tolerance lefts rights := by
  rw [greedy, if_pos hwithin]

theorem greedy_drop_right (hwithin : ¬ Within leftTime rightTime tolerance left right)
    (hlt : rightTime right < leftTime left) :
    greedy leftTime rightTime tolerance (left :: lefts) (right :: rights) =
      greedy leftTime rightTime tolerance (left :: lefts) rights := by
  rw [greedy, if_neg hwithin, if_pos hlt]

theorem greedy_drop_left (hwithin : ¬ Within leftTime rightTime tolerance left right)
    (hle : leftTime left ≤ rightTime right) :
    greedy leftTime rightTime tolerance (left :: lefts) (right :: rights) =
      greedy leftTime rightTime tolerance lefts (right :: rights) := by
  rw [greedy, if_neg hwithin, if_neg hle.not_gt]

end Steps

/-! ## Choices of disjoint pairs -/

/-- Pairs within the tolerance that use every item of the two streams at most once. -/
structure Matching (lefts : Multiset α) (rights : Multiset β) (pairs : Multiset (α × β)) :
    Prop where
  left_le : pairs.map Prod.fst ≤ lefts
  right_le : pairs.map Prod.snd ≤ rights
  within : ∀ pair ∈ pairs, Within leftTime rightTime tolerance pair.1 pair.2

namespace Matching

variable {leftTime rightTime tolerance} {left : α} {right : β} {lefts : Multiset α}
  {rights : Multiset β} {pairs : Multiset (α × β)}

theorem eq_zero_of_left (h : Matching leftTime rightTime tolerance 0 rights pairs) : pairs = 0 :=
  Multiset.map_eq_zero.mp (Multiset.le_zero.mp h.left_le)

theorem eq_zero_of_right (h : Matching leftTime rightTime tolerance lefts 0 pairs) : pairs = 0 :=
  Multiset.map_eq_zero.mp (Multiset.le_zero.mp h.right_le)

theorem left_tail_of_notMem
    (h : Matching leftTime rightTime tolerance (left ::ₘ lefts) rights pairs)
    (hunused : left ∉ pairs.map Prod.fst) :
    Matching leftTime rightTime tolerance lefts rights pairs :=
  ⟨(Multiset.le_cons_of_notMem hunused).mp h.left_le, h.right_le, h.within⟩

theorem right_tail_of_notMem
    (h : Matching leftTime rightTime tolerance lefts (right ::ₘ rights) pairs)
    (hunused : right ∉ pairs.map Prod.snd) :
    Matching leftTime rightTime tolerance lefts rights pairs :=
  ⟨h.left_le, (Multiset.le_cons_of_notMem hunused).mp h.right_le, h.within⟩

/-- An item that is within the tolerance of nothing on the other side is not used. -/
theorem left_tail (h : Matching leftTime rightTime tolerance (left ::ₘ lefts) rights pairs)
    (halone : ∀ right ∈ rights, ¬ Within leftTime rightTime tolerance left right) :
    Matching leftTime rightTime tolerance lefts rights pairs := by
  refine h.left_tail_of_notMem fun hmem => ?_
  obtain ⟨⟨_, right⟩, hpair, rfl⟩ := Multiset.mem_map.mp hmem
  have hright : right ∈ rights :=
    Multiset.mem_of_le h.right_le (Multiset.mem_map_of_mem Prod.snd hpair)
  exact halone right hright (h.within _ hpair)

theorem right_tail (h : Matching leftTime rightTime tolerance lefts (right ::ₘ rights) pairs)
    (halone : ∀ left ∈ lefts, ¬ Within leftTime rightTime tolerance left right) :
    Matching leftTime rightTime tolerance lefts rights pairs := by
  refine h.right_tail_of_notMem fun hmem => ?_
  obtain ⟨⟨left, _⟩, hpair, rfl⟩ := Multiset.mem_map.mp hmem
  have hleft : left ∈ lefts :=
    Multiset.mem_of_le h.left_le (Multiset.mem_map_of_mem Prod.fst hpair)
  exact halone left hleft (h.within _ hpair)

/-- Giving up one item costs at most one pair. -/
theorem give_up_left
    (h : Matching leftTime rightTime tolerance (left ::ₘ lefts) rights pairs) :
    ∃ others, Matching leftTime rightTime tolerance lefts rights others ∧
      pairs.card ≤ others.card + 1 := by
  by_cases hused : left ∈ pairs.map Prod.fst
  · obtain ⟨pair, hpair, rfl⟩ := Multiset.mem_map.mp hused
    obtain ⟨rest, rfl⟩ := Multiset.exists_cons_of_mem hpair
    have hleft := h.left_le
    have hright := h.right_le
    rw [Multiset.map_cons, Multiset.cons_le_cons_iff] at hleft
    rw [Multiset.map_cons] at hright
    refine ⟨rest, ⟨hleft, (Multiset.le_cons_self _ _).trans hright, ?_⟩, by simp⟩
    exact fun other hother => h.within other (Multiset.mem_cons_of_mem hother)
  · exact ⟨pairs, h.left_tail_of_notMem hused, Nat.le_succ _⟩

theorem give_up_right
    (h : Matching leftTime rightTime tolerance lefts (right ::ₘ rights) pairs) :
    ∃ others, Matching leftTime rightTime tolerance lefts rights others ∧
      pairs.card ≤ others.card + 1 := by
  by_cases hused : right ∈ pairs.map Prod.snd
  · obtain ⟨pair, hpair, rfl⟩ := Multiset.mem_map.mp hused
    obtain ⟨rest, rfl⟩ := Multiset.exists_cons_of_mem hpair
    have hleft := h.left_le
    have hright := h.right_le
    rw [Multiset.map_cons, Multiset.cons_le_cons_iff] at hright
    rw [Multiset.map_cons] at hleft
    refine ⟨rest, ⟨(Multiset.le_cons_self _ _).trans hleft, hright, ?_⟩, by simp⟩
    exact fun other hother => h.within other (Multiset.mem_cons_of_mem hother)
  · exact ⟨pairs, h.right_tail_of_notMem hused, Nat.le_succ _⟩

variable [IsOrderedAddMonoid T]

/-- The partners of the earliest items are within the tolerance of each other. -/
theorem within_of_crossing {later : α} {laterRight : β}
    (hleft : leftTime left ≤ leftTime later) (hright : rightTime right ≤ rightTime laterRight)
    (hfirst : Within leftTime rightTime tolerance left laterRight)
    (hsecond : Within leftTime rightTime tolerance later right) :
    Within leftTime rightTime tolerance later laterRight := by
  have hahead := (abs_sub_le_iff.mp hfirst).2
  have hbehind := (abs_sub_le_iff.mp hsecond).1
  exact abs_sub_le_iff.mpr ⟨(sub_le_sub_left hright _).trans hbehind,
    (sub_le_sub_left hleft _).trans hahead⟩

/-- The earliest items may be paired with each other, their partners then with each other. -/
theorem exchange
    (h : Matching leftTime rightTime tolerance (left ::ₘ lefts) (right ::ₘ rights) pairs)
    (hleft : ∀ later ∈ lefts, leftTime left ≤ leftTime later)
    (hright : ∀ later ∈ rights, rightTime right ≤ rightTime later) :
    ∃ others, Matching leftTime rightTime tolerance lefts rights others ∧
      pairs.card ≤ others.card + 1 := by
  by_cases husedLeft : left ∈ pairs.map Prod.fst
  swap
  · exact (h.left_tail_of_notMem husedLeft).give_up_right
  by_cases husedRight : right ∈ pairs.map Prod.snd
  swap
  · exact (h.right_tail_of_notMem husedRight).give_up_left
  obtain ⟨⟨left, laterRight⟩, hfirst, rfl⟩ := Multiset.mem_map.mp husedLeft
  obtain ⟨rest, rfl⟩ := Multiset.exists_cons_of_mem hfirst
  obtain ⟨⟨later, right⟩, hsecond, rfl⟩ := Multiset.mem_map.mp husedRight
  have hleftLe := h.left_le
  have hrightLe := h.right_le
  simp only [Multiset.map_cons, Multiset.cons_le_cons_iff] at hleftLe
  rcases Multiset.mem_cons.mp hsecond with heq | hrest
  · -- They are partners of each other.
    obtain ⟨rfl, rfl⟩ := Prod.mk.inj heq
    simp only [Multiset.map_cons, Multiset.cons_le_cons_iff] at hrightLe
    refine ⟨rest, ⟨hleftLe, hrightLe, ?_⟩, by simp⟩
    exact fun other hother => h.within other (Multiset.mem_cons_of_mem hother)
  · obtain ⟨others, rfl⟩ := Multiset.exists_cons_of_mem hrest
    simp only [Multiset.map_cons] at hleftLe hrightLe
    rw [Multiset.cons_swap, Multiset.cons_le_cons_iff] at hrightLe
    have hlater := hleft later (Multiset.mem_of_le hleftLe (Multiset.mem_cons_self _ _))
    have hlaterRight :=
      hright laterRight (Multiset.mem_of_le hrightLe (Multiset.mem_cons_self _ _))
    refine ⟨(later, laterRight) ::ₘ others, ⟨by simpa using hleftLe, by simpa using hrightLe, ?_⟩,
      by simp⟩
    intro pair hpair
    rcases Multiset.mem_cons.mp hpair with rfl | hpair
    · exact within_of_crossing hlater hlaterRight (h.within _ hfirst)
        (h.within _ (Multiset.mem_cons_of_mem hrest))
    · exact h.within pair (Multiset.mem_cons_of_mem (Multiset.mem_cons_of_mem hpair))

end Matching

/-! ## Greedy pairing is optimal -/

section Optimal

variable {leftTime rightTime tolerance} [IsOrderedAddMonoid T]

/-- Items that are too far behind an item are too far behind all later ones. -/
theorem not_within_of_le {left later : α} {right : β}
    (hwithin : ¬ Within leftTime rightTime tolerance left right)
    (hlt : rightTime right < leftTime left) (hle : leftTime left ≤ leftTime later) :
    ¬ Within leftTime rightTime tolerance later right := by
  have hgap : tolerance < leftTime left - rightTime right := by
    rw [← abs_of_pos (sub_pos.mpr hlt)]
    exact not_le.mp hwithin
  intro hlater
  exact hgap.not_ge ((sub_le_sub_right hle _).trans (abs_sub_le_iff.mp hlater).1)

theorem not_within_of_le_right {left : α} {right later : β}
    (hwithin : ¬ Within leftTime rightTime tolerance left right)
    (hbehind : leftTime left ≤ rightTime right) (hle : rightTime right ≤ rightTime later) :
    ¬ Within leftTime rightTime tolerance left later := by
  have hgap : tolerance < rightTime right - leftTime left := by
    rw [← abs_of_nonneg (sub_nonneg.mpr hbehind), abs_sub_comm]
    exact not_le.mp hwithin
  intro hlater
  exact hgap.not_ge ((sub_le_sub_right hle _).trans (abs_sub_le_iff.mp hlater).2)

/-- No choice of disjoint pairs within the tolerance has more pairs. -/
theorem card_le_greedy {lefts : List α} {rights : List β}
    (hlefts : lefts.Pairwise fun first second => leftTime first ≤ leftTime second)
    (hrights : rights.Pairwise fun first second => rightTime first ≤ rightTime second)
    {pairs : Multiset (α × β)}
    (hpairs : Matching leftTime rightTime tolerance lefts rights pairs) :
    pairs.card ≤ (greedy leftTime rightTime tolerance lefts rights).length := by
  induction lefts, rights using greedy.induct leftTime rightTime tolerance generalizing pairs with
  | case1 rights => simp [hpairs.eq_zero_of_left]
  | case2 left lefts => simp [hpairs.eq_zero_of_right]
  | case3 left lefts right rights hwithin ih =>
      obtain ⟨hleft, hlefts⟩ := List.pairwise_cons.mp hlefts
      obtain ⟨hright, hrights⟩ := List.pairwise_cons.mp hrights
      rw [← Multiset.cons_coe, ← Multiset.cons_coe] at hpairs
      obtain ⟨others, hothers, hcard⟩ := hpairs.exchange hleft hright
      rw [greedy_pair hwithin, List.length_cons]
      exact hcard.trans (Nat.succ_le_succ (ih hlefts hrights hothers))
  | case4 left lefts right rights hwithin hlt ih =>
      rw [greedy_drop_right hwithin hlt]
      refine ih hlefts hrights.of_cons (hpairs.right_tail fun later hlater => ?_)
      rcases List.mem_cons.mp hlater with rfl | hlater
      · exact hwithin
      · exact not_within_of_le hwithin hlt (List.rel_of_pairwise_cons hlefts hlater)
  | case5 left lefts right rights hwithin hle ih =>
      rw [greedy_drop_left hwithin (not_lt.mp hle)]
      refine ih hlefts.of_cons hrights (hpairs.left_tail fun later hlater => ?_)
      rcases List.mem_cons.mp hlater with rfl | hlater
      · exact hwithin
      · exact not_within_of_le_right hwithin (not_lt.mp hle)
          (List.rel_of_pairwise_cons hrights hlater)

end Optimal

end AcflyRos.Pairing
