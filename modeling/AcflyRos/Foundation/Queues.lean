import Mathlib.Data.List.Basic

/-! # Bounded queues that are looked at before they are popped

A queue keeps the newest items: when it is full, the oldest one makes room for another. Its
consumer looks at the front and pops it later, without looking again, so that another item may
be at the front by then. The items that the consumer takes are nevertheless a subsequence of
the items that arrived.
-/

namespace AcflyRos.Queues

universe u

variable {α : Type u}

/-- Append an item; the oldest one leaves a full queue. -/
def pushBounded (capacity : Nat) (queue : List α) (item : α) : List α :=
  (if capacity ≤ queue.length then queue.tail else queue) ++ [item]

section Bounded

variable {capacity : Nat} {queue : List α} {item : α}

theorem pushBounded_of_lt (hlt : queue.length < capacity) :
    pushBounded capacity queue item = queue ++ [item] := by
  rw [pushBounded, if_neg (Nat.not_le.mpr hlt)]

theorem length_pushBounded_le (hpos : 0 < capacity) (hqueue : queue.length ≤ capacity) :
    (pushBounded capacity queue item).length ≤ capacity := by
  unfold pushBounded
  split
  next => simp; omega
  next => simp; omega

/-- At most the front makes room. -/
theorem pushBounded_cases (hpos : 0 < capacity) (queue : List α) (item : α) :
    pushBounded capacity queue item = queue ++ [item] ∨
      ∃ front rest, queue = front :: rest ∧ pushBounded capacity queue item = rest ++ [item] := by
  by_cases hfull : capacity ≤ queue.length
  · have hne : queue ≠ [] := List.ne_nil_of_length_pos (Nat.lt_of_lt_of_le hpos hfull)
    obtain ⟨front, rest, rfl⟩ := List.exists_cons_of_ne_nil hne
    exact Or.inr ⟨front, rest, rfl, by rw [pushBounded, if_pos hfull, List.tail_cons]⟩
  · exact Or.inl (pushBounded_of_lt (Nat.not_le.mp hfull))

theorem length_pushBounded_le_succ (hpos : 0 < capacity) (queue : List α) (item : α) :
    (pushBounded capacity queue item).length ≤ queue.length + 1 := by
  rcases pushBounded_cases hpos queue item with hpush | ⟨front, rest, rfl, hpush⟩
  · simp [hpush]
  · simp [hpush]

theorem length_tail_le (hqueue : queue.length ≤ capacity) : queue.tail.length ≤ capacity :=
  Nat.le_trans queue.tail_sublist.length_le hqueue

end Bounded

/-! ## Looking first, popping later -/

/-- The items that arrived have left the queue or are in it. What the consumer took has left it,
and so may have the item it has looked at, which was at the front then. -/
def Served (arrived queue taken : List α) : Option α → Prop
  | none => ∃ gone, arrived = gone ++ queue ∧ taken.Sublist gone
  | some item => ∃ gone, arrived = gone ++ queue ∧ queue ≠ [] ∧
      (taken.Sublist gone ∧ queue.head? = some item ∨ (taken ++ [item]).Sublist gone)

namespace Served

variable {arrived queue taken : List α} {item : α} {seen : Option α}

theorem start : Served ([] : List α) [] [] none := ⟨[], rfl, List.Sublist.refl _⟩

theorem taken_sublist (h : Served arrived queue taken seen) : taken.Sublist arrived := by
  cases seen with
  | none =>
      obtain ⟨gone, rfl, hgone⟩ := h
      exact hgone.trans (List.sublist_append_left gone queue)
  | some item =>
      obtain ⟨gone, rfl, -, hgone | hgone⟩ := h
      · exact hgone.1.trans (List.sublist_append_left gone queue)
      · exact (List.sublist_append_left taken [item]).trans
          (hgone.trans (List.sublist_append_left gone queue))

theorem queue_ne_nil (h : Served arrived queue taken (some item)) : queue ≠ [] := by
  obtain ⟨gone, -, hqueue, -⟩ := h
  exact hqueue

theorem look {rest : List α} (h : Served arrived queue taken none)
    (hqueue : queue = item :: rest) : Served arrived queue taken (some item) := by
  obtain ⟨gone, harrived, hgone⟩ := h
  subst hqueue
  exact ⟨gone, harrived, by simp, Or.inl ⟨hgone, rfl⟩⟩

/-- The consumer leaves the item alone. -/
theorem forget (h : Served arrived queue taken (some item)) :
    Served arrived queue taken none := by
  obtain ⟨gone, harrived, -, hgone | hgone⟩ := h
  · exact ⟨gone, harrived, hgone.1⟩
  · exact ⟨gone, harrived, (List.sublist_append_left taken [item]).trans hgone⟩

/-- The consumer pops, whatever is at the front by now. -/
theorem take (h : Served arrived queue taken (some item)) :
    Served arrived queue.tail (taken ++ [item]) none := by
  obtain ⟨gone, rfl, hqueue, hgone⟩ := h
  obtain ⟨front, rest, rfl⟩ := List.exists_cons_of_ne_nil hqueue
  refine ⟨gone ++ [front], by simp, ?_⟩
  rcases hgone with ⟨hgone, hfront⟩ | hgone
  · obtain rfl := Option.some.inj hfront
    exact hgone.append_right _
  · exact hgone.trans (List.sublist_append_left gone [front])

/-- The consumer pops and uses nothing. -/
theorem discard (h : Served arrived queue taken (some item)) :
    Served arrived queue.tail taken none := by
  obtain ⟨gone, harrived, hgone⟩ := h.take
  exact ⟨gone, harrived, (List.sublist_append_left taken [item]).trans hgone⟩

theorem append (h : Served arrived queue taken seen) (later : α) :
    Served (arrived ++ [later]) (queue ++ [later]) taken seen := by
  cases seen with
  | none =>
      obtain ⟨gone, rfl, hgone⟩ := h
      exact ⟨gone, List.append_assoc _ _ _, hgone⟩
  | some item =>
      obtain ⟨gone, rfl, hqueue, hgone⟩ := h
      refine ⟨gone, List.append_assoc _ _ _, by simp, hgone.imp_left ?_⟩
      exact fun hfront => ⟨hfront.1, by rw [List.head?_append_of_ne_nil _ hqueue, hfront.2]⟩

/-- The front leaves, other than by the consumer. -/
theorem overflow {front : α} {rest : List α} (h : Served arrived (front :: rest) taken seen)
    (hrest : rest ≠ []) : Served arrived rest taken seen := by
  cases seen with
  | none =>
      obtain ⟨gone, rfl, hgone⟩ := h
      exact ⟨gone ++ [front], by simp, hgone.trans (List.sublist_append_left gone [front])⟩
  | some item =>
      obtain ⟨gone, rfl, -, hgone⟩ := h
      refine ⟨gone ++ [front], by simp, hrest, Or.inr ?_⟩
      rcases hgone with ⟨hgone, hfront⟩ | hgone
      · obtain rfl := Option.some.inj hfront
        exact hgone.append_right _
      · exact hgone.trans (List.sublist_append_left gone [front])

theorem push {capacity : Nat} (hpos : 0 < capacity) (h : Served arrived queue taken seen)
    (later : α) :
    Served (arrived ++ [later]) (pushBounded capacity queue later) taken seen := by
  rcases pushBounded_cases hpos queue later with hpush | ⟨front, rest, rfl, hpush⟩
  · rw [hpush]
    exact h.append later
  · rw [hpush]
    exact (h.append later).overflow (by simp)

end Served

end AcflyRos.Queues
