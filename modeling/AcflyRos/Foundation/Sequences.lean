import Mathlib.Data.List.Lex
import Mathlib.Order.Lattice

/-! # Ordered sequences

Words under the lexicographic order, initial segments of lists, lists in which something occurs
at most once, and lists that are sorted by a key.
-/

namespace AcflyRos.Sequences

universe u

variable {α : Type u}

/-- Words that begin with words of one length are compared by these first. -/
theorem append_lt_append_iff [LinearOrder α] {first second : List α}
    (hlength : first.length = second.length) {tail tail' : List α} :
    first ++ tail < second ++ tail' ↔ first < second ∨ first = second ∧ tail < tail' := by
  induction first generalizing second with
  | nil =>
      cases second with
      | nil => simp
      | cons => cases hlength
  | cons x first ih =>
      cases second with
      | nil => cases hlength
      | cons y second =>
          simp only [List.cons_append, List.cons_lt_cons_iff, ih (Nat.succ.inj hlength),
            List.cons.injEq]
          tauto

/-- An initial segment of a sorted list holds its least elements. -/
theorem le_of_mem_prefix [Preorder α] {segment list : List α} (hsorted : list.Pairwise (· ≤ ·))
    (hsegment : segment <+: list) {x y : α} (hx : x ∈ segment) (hy : y ∈ list)
    (hrest : y ∉ segment) : x ≤ y := by
  obtain ⟨rest, rfl⟩ := hsegment
  rw [List.pairwise_append] at hsorted
  apply hsorted.2.2 x hx
  exact (List.mem_append.mp hy).resolve_left hrest

/-- An initial segment of the images is the images of an initial segment. -/
theorem take_of_map_prefix {β : Type*} {f : α → β} {list : List α} {segment : List β}
    (hsegment : segment <+: list.map f) : segment = (list.take segment.length).map f := by
  rw [List.map_take]
  exact List.prefix_iff_eq_take.mp hsegment

/-- In a strictly decreasing list the greater of two elements comes first. -/
theorem pair_sublist_of_lt [Preorder α] {list : List α} (hdecreasing : list.Pairwise (· > ·))
    {x y : α} (hx : x ∈ list) (hy : y ∈ list) (hlt : x < y) : [y, x].Sublist list := by
  induction list with
  | nil => cases hx
  | cons head rest ih =>
      obtain ⟨hhead, hrest⟩ := List.pairwise_cons.mp hdecreasing
      rcases List.mem_cons.mp hy with rfl | hy'
      · rcases List.mem_cons.mp hx with rfl | hx'
        · exact absurd hlt (lt_irrefl _)
        · exact (List.singleton_sublist.mpr hx').cons_cons _
      · rcases List.mem_cons.mp hx with rfl | hx'
        · exact absurd hlt (lt_asymm (hhead y hy'))
        · exact (ih hrest hx' hy').cons _

/-! ## At most one -/

theorem eq_singleton_of_mem {list : List α} {x : α} (hx : x ∈ list) (hlength : list.length ≤ 1) :
    list = [x] := by
  obtain ⟨only, rfl⟩ := List.length_eq_one_iff.mp
    (Nat.le_antisymm hlength (List.length_pos_of_mem hx))
  rw [List.mem_singleton.mp hx]

/-- Of a list without repeated keys at most one entry is selected when all that are have the same
key. -/
theorem filter_length_le_one {κ : Type*} {test : κ × α → Bool} {entries : List (κ × α)}
    (hnodup : (entries.map Prod.fst).Nodup)
    (hkey : ∀ first ∈ entries, ∀ second ∈ entries, test first → test second →
      first.1 = second.1) :
    (entries.filter test).length ≤ 1 := by
  induction entries with
  | nil => simp
  | cons entry rest ih =>
      obtain ⟨hnew, hrest⟩ := List.nodup_cons.mp hnodup
      by_cases hentry : test entry
      · have hnone : rest.filter test = [] := by
          rw [List.filter_eq_nil_iff]
          intro other hother htest
          have hmem := List.mem_cons_of_mem entry hother
          have hsame := hkey entry List.mem_cons_self other hmem hentry htest
          exact hnew (hsame ▸ List.mem_map_of_mem hother)
        simp [hentry, hnone]
      · rw [List.filter_cons_of_neg hentry]
        exact ih hrest fun first hfirst second hsecond =>
          hkey first (List.mem_cons_of_mem _ hfirst) second (List.mem_cons_of_mem _ hsecond)

/-! ## Sorted by a key -/

/-- What one test selects comes before what another one selects. -/
theorem filter_append_filter {first second : α → Bool} {list : List α}
    (hapart : ∀ x ∈ list, first x = true → second x = false)
    (hordered : list.Pairwise fun x y => second x = true → first y = false) :
    list.filter first ++ list.filter second = list.filter fun x => first x || second x := by
  induction list with
  | nil => rfl
  | cons x rest ih =>
      obtain ⟨hx, hrest⟩ := List.pairwise_cons.mp hordered
      have happend := ih (fun y hy => hapart y (List.mem_cons_of_mem x hy)) hrest
      by_cases hfirst : first x = true
      · have hsecond := hapart x List.mem_cons_self hfirst
        rw [List.filter_cons_of_pos hfirst, List.filter_cons_of_neg (by simp [hsecond]),
          List.filter_cons_of_pos (by simp [hfirst]), ← happend]
        rfl
      · by_cases hsecond : second x = true
        · -- The first test selects nothing from here on.
          have hnone : rest.filter first = [] :=
            List.filter_eq_nil_iff.mpr fun y hy => by simp [hx y hy hsecond]
          rw [List.filter_cons_of_neg hfirst, List.filter_cons_of_pos hsecond,
            List.filter_cons_of_pos (by simp [hsecond]), ← happend, hnone]
          rfl
        · rw [List.filter_cons_of_neg hfirst, List.filter_cons_of_neg hsecond,
            List.filter_cons_of_neg (by simp [hfirst, hsecond]), happend]

/-- A list that is sorted by a key is read in order key by key. -/
theorem flatMap_filter_of_sorted {κ : Type*} [LinearOrder κ] {key : α → κ} {list : List α}
    {keys : List κ} (hsorted : list.Pairwise fun x y => key x ≤ key y)
    (hkeys : keys.Pairwise (· < ·)) :
    (keys.flatMap fun k => list.filter fun x => key x == k) =
      list.filter fun x => keys.contains (key x) := by
  induction keys with
  | nil => simp
  | cons k rest ih =>
      obtain ⟨hk, hrest⟩ := List.pairwise_cons.mp hkeys
      rw [List.flatMap_cons, ih hrest, filter_append_filter]
      · simp only [List.contains_cons]
      · intro x _ hx
        rw [beq_iff_eq.mp hx]
        simpa using fun hmem => lt_irrefl k (hk k hmem)
      · refine hsorted.imp fun {x y} hxy hx => ?_
        have hlt := hk _ (List.contains_iff_mem.mp hx)
        exact beq_false_of_ne (lt_of_lt_of_le hlt hxy).ne'

/-! ## Who holds a place -/

/-- The last one that takes the place, or else the first one that settles there. -/
def holder (takes settles : α → Bool) (list : List α) : Option α :=
  (list.reverse.find? takes).or (list.find? settles)

theorem holder_concat (takes settles : α → Bool) (list : List α) (x : α) :
    holder takes settles (list ++ [x]) =
      if takes x then some x
      else (holder takes settles list).or (if settles x then some x else none) := by
  unfold holder
  rw [List.reverse_append, List.reverse_singleton, List.singleton_append, List.find?_append]
  by_cases htakes : takes x = true
  · rw [List.find?_cons_of_pos htakes, if_pos htakes, Option.some_or]
  · rw [List.find?_cons_of_neg htakes, if_neg htakes, Option.or_assoc]
    by_cases hsettles : settles x = true
    · rw [List.find?_cons_of_pos hsettles, if_pos hsettles]
    · rw [List.find?_cons_of_neg hsettles, if_neg hsettles, List.find?_nil]

theorem mem_of_holder {takes settles : α → Bool} {list : List α} {x : α}
    (hholder : holder takes settles list = some x) :
    x ∈ list ∧ (takes x = true ∨ settles x = true) := by
  rcases Option.or_eq_some_iff.mp hholder with htakes | ⟨-, hsettles⟩
  · exact ⟨List.mem_reverse.mp (List.mem_of_find?_eq_some htakes),
      Or.inl (List.find?_some htakes)⟩
  · exact ⟨List.mem_of_find?_eq_some hsettles, Or.inr (List.find?_some hsettles)⟩

end AcflyRos.Sequences
