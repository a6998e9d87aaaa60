import Mathlib.Data.List.Basic

/-! # Tables of records updated in place

A table is a list addressed by index, one record of which is changed at a time.
The lemmas say what survives such a change: a property of every record, and the
fact that no two records share a live key.
-/

namespace AcflyRos.Table

universe u v

variable {α : Type u} {κ : Type v} {table : List α} {i j : Nat} {change : α → α}

/-- A record of the changed table is the changed record or one of the others. -/
theorem getElem?_modify_cases {y : α} (hy : (table.modify i change)[j]? = some y) :
    (i = j ∧ ∃ x, table[j]? = some x ∧ y = change x) ∨ (i ≠ j ∧ table[j]? = some y) := by
  rw [List.getElem?_modify] at hy
  by_cases hij : i = j
  · simp only [hij, if_true, Option.map_eq_map, Option.map_eq_some_iff] at hy
    obtain ⟨x, hx, rfl⟩ := hy
    exact Or.inl ⟨hij, x, hx, rfl⟩
  · simp only [hij, if_false, Option.map_eq_map, Option.map_id'] at hy
    exact Or.inr ⟨hij, hy⟩

theorem getElem?_modify_self {x : α} (hx : table[i]? = some x) :
    (table.modify i change)[i]? = some (change x) := by
  rw [List.getElem?_modify_eq, hx]
  rfl

/-- Only what becomes of the record there matters. -/
theorem modify_congr {change' : α → α}
    (hsame : ∀ x, table[i]? = some x → change x = change' x) :
    table.modify i change = table.modify i change' := by
  apply List.ext_getElem?
  intro j
  rw [List.getElem?_modify, List.getElem?_modify]
  by_cases hij : i = j
  · subst hij
    cases hx : table[i]? with
    | none => rfl
    | some x => simp [hsame x hx]
  · simp [hij]

/-- A view of the records that the change leaves alone. -/
theorem map_modify_same {β : Type v} (view : α → β)
    (hsame : ∀ x, table[i]? = some x → view (change x) = view x) :
    (table.modify i change).map view = table.map view := by
  apply List.ext_getElem?
  intro j
  rw [List.getElem?_map, List.getElem?_map]
  cases hy : (table.modify i change)[j]? with
  | none =>
      rw [List.getElem?_eq_none_iff, List.length_modify] at hy
      rw [List.getElem?_eq_none_iff.mpr hy]
  | some y =>
      rcases getElem?_modify_cases hy with ⟨rfl, x, hx, rfl⟩ | ⟨_, hx⟩
      · rw [hx, Option.map_some, Option.map_some, hsame x hx]
      · rw [hx]

/-- A property of every record survives if the changed record has it again. -/
theorem forall_modify {property : α → Prop} (hall : ∀ x ∈ table, property x)
    (hhere : ∀ x, table[i]? = some x → property (change x)) :
    ∀ y ∈ table.modify i change, property y := by
  intro y hy
  obtain ⟨j, hj⟩ := List.mem_iff_getElem?.mp hy
  rcases getElem?_modify_cases hj with ⟨rfl, x, hx, rfl⟩ | ⟨_, hx⟩
  · exact hhere x hx
  · exact hall y (List.mem_of_getElem? hx)

/-- Some record other than the changed one, or the changed one, has the property. -/
theorem exists_modify {property : α → Prop} (hex : ∃ x ∈ table, property x)
    (hhere : ∀ x, table[i]? = some x → property x → property (change x)) :
    ∃ y ∈ table.modify i change, property y := by
  obtain ⟨x, hx, hproperty⟩ := hex
  obtain ⟨j, hj⟩ := List.mem_iff_getElem?.mp hx
  by_cases hij : i = j
  · subst hij
    exact ⟨change x, List.mem_of_getElem? (getElem?_modify_self hj), hhere x hj hproperty⟩
  · refine ⟨x, List.mem_of_getElem? (i := j) ?_, hproperty⟩
    rw [List.getElem?_modify_ne _ _ hij, hj]

theorem getElem?_foldl_modify {order : List Nat} (hnodup : order.Nodup) (j : Nat) :
    (order.foldl (fun table i => table.modify i change) table)[j]? =
      if j ∈ order then (table[j]?).map change else table[j]? := by
  induction order generalizing table with
  | nil => simp
  | cons i rest ih =>
      obtain ⟨hi, hrest⟩ := List.nodup_cons.mp hnodup
      rw [List.foldl_cons, ih hrest, List.getElem?_modify]
      by_cases hij : i = j
      · subst hij
        simp [hi]
      · simp [hij, Ne.symm hij]

/-- Changing the records one after the other changes all of them. -/
theorem foldl_modify_range :
    (List.range table.length).foldl (fun table i => table.modify i change) table =
      table.map change := by
  apply List.ext_getElem?
  intro j
  rw [getElem?_foldl_modify List.nodup_range, List.getElem?_map]
  split
  next => rfl
  next hj =>
    rw [List.mem_range, Nat.not_lt] at hj
    rw [List.getElem?_eq_none_iff.mpr hj, Option.map_none]

/-- No two records share a live key. -/
def KeysDistinct (key : α → κ) (live : κ → Prop) (table : List α) : Prop :=
  ∀ (i j : Nat) (x y : α), table[i]? = some x → table[j]? = some y →
    live (key x) → key x = key y → i = j

section Keys

variable {key : α → κ} {live : κ → Prop}

/-- The change leaves the key as it is. -/
theorem KeysDistinct.modify_same (hdistinct : KeysDistinct key live table)
    (hsame : ∀ x, key (change x) = key x) : KeysDistinct key live (table.modify i change) := by
  intro j k x y hx hy hlive hkey
  have hback : ∀ {m : Nat} {z : α}, (table.modify i change)[m]? = some z →
      ∃ z', table[m]? = some z' ∧ key z' = key z := by
    intro m z hz
    rcases getElem?_modify_cases hz with ⟨_, z', hz', rfl⟩ | ⟨_, hz'⟩
    · exact ⟨z', hz', (hsame z').symm⟩
    · exact ⟨z, hz', rfl⟩
  obtain ⟨x', hx', hxkey⟩ := hback hx
  obtain ⟨y', hy', hykey⟩ := hback hy
  exact hdistinct j k x' y' hx' hy' (hxkey ▸ hlive) (by rw [hxkey, hykey, hkey])

/-- The change gives the record a key that no record had. -/
theorem KeysDistinct.modify_fresh (hdistinct : KeysDistinct key live table) {newKey : κ}
    (hnew : ∀ x, key (change x) = newKey) (hfresh : ∀ x ∈ table, key x ≠ newKey) :
    KeysDistinct key live (table.modify i change) := by
  intro j k x y hx hy hlive hkey
  rcases getElem?_modify_cases hx with ⟨rfl, x', hx', rfl⟩ | ⟨hij, hx'⟩
  · rcases getElem?_modify_cases hy with ⟨rfl, _⟩ | ⟨_, hy'⟩
    · rfl
    · exact absurd (hkey.symm.trans (hnew x')) (hfresh y (List.mem_of_getElem? hy'))
  · rcases getElem?_modify_cases hy with ⟨rfl, y', hy', rfl⟩ | ⟨_, hy'⟩
    · exact absurd (hkey.trans (hnew y')) (hfresh x (List.mem_of_getElem? hx'))
    · exact hdistinct j k x y hx' hy' hlive hkey

/-- The change gives the record a key that is not live. -/
theorem KeysDistinct.modify_dead (hdistinct : KeysDistinct key live table) {newKey : κ}
    (hnew : ∀ x, key (change x) = newKey) (hdead : ¬ live newKey) :
    KeysDistinct key live (table.modify i change) := by
  intro j k x y hx hy hlive hkey
  rcases getElem?_modify_cases hx with ⟨rfl, x', hx', rfl⟩ | ⟨hij, hx'⟩
  · exact absurd (hnew x' ▸ hlive) hdead
  · rcases getElem?_modify_cases hy with ⟨rfl, y', hy', rfl⟩ | ⟨_, hy'⟩
    · rw [hkey, hnew y'] at hlive
      exact absurd hlive hdead
    · exact hdistinct j k x y hx' hy' hlive hkey

/-- Changing every record without touching its key. -/
theorem KeysDistinct.map_same (hdistinct : KeysDistinct key live table)
    (hsame : ∀ x, key (change x) = key x) : KeysDistinct key live (table.map change) := by
  intro j k x y hx hy hlive hkey
  simp only [List.getElem?_map, Option.map_eq_some_iff] at hx hy
  obtain ⟨x', hx', rfl⟩ := hx
  obtain ⟨y', hy', rfl⟩ := hy
  rw [hsame] at hlive
  rw [hsame, hsame] at hkey
  exact hdistinct j k x' y' hx' hy' hlive hkey

end Keys

end AcflyRos.Table
