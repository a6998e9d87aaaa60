import Mathlib.Data.List.Nodup
import Mathlib.Logic.Function.Basic

/-! # Objects and references

Objects that change in place and are reached by references. A new object has a reference of its
own, and what is written through a reference is read through it alone. References of which no two
lead to the same object can therefore be replaced by what they lead to.
-/

namespace AcflyRos.Objects

universe u

/-- The objects made so far, in the order in which they were made. -/
structure Memory (α : Type u) where
  read : Nat → α
  /-- The reference of the object made next. -/
  next : Nat

namespace Memory

variable {α : Type u} (memory : Memory α)

def alloc (value : α) : Memory α where
  read := Function.update memory.read memory.next value
  next := memory.next + 1

def write (ref : Nat) (value : α) : Memory α :=
  { memory with read := Function.update memory.read ref value }

/-- The references lead to objects that have been made, no two of them to the same one. -/
structure Owns (refs : List Nat) : Prop where
  nodup : refs.Nodup
  made : ∀ ref ∈ refs, ref < memory.next

@[simp] theorem read_alloc_next (value : α) : (memory.alloc value).read memory.next = value :=
  Function.update_self _ _ _

@[simp] theorem read_write_self (ref : Nat) (value : α) :
    (memory.write ref value).read ref = value :=
  Function.update_self _ _ _

namespace Owns

variable {memory} {refs other : List Nat} {ref : Nat}

/-- A reference fewer, or more than one. -/
theorem sublist (h : memory.Owns refs) (hsublist : other.Sublist refs) : memory.Owns other where
  nodup := h.nodup.sublist hsublist
  made ref hmem := h.made ref (hsublist.subset hmem)

/-- The order of the references does not matter. -/
theorem perm (h : memory.Owns refs) (hperm : refs.Perm other) : memory.Owns other where
  nodup := hperm.nodup h.nodup
  made ref hmem := h.made ref (hperm.mem_iff.mpr hmem)

theorem alloc (h : memory.Owns refs) (value : α) :
    (memory.alloc value).Owns (memory.next :: refs) where
  nodup := List.nodup_cons.mpr ⟨fun hmem => Nat.lt_irrefl _ (h.made _ hmem), h.nodup⟩
  made ref hmem := by
    rcases List.mem_cons.mp hmem with rfl | hmem
    · exact Nat.lt_succ_self _
    · exact Nat.lt_succ_of_lt (h.made ref hmem)

theorem write (h : memory.Owns refs) (ref : Nat) (value : α) : (memory.write ref value).Owns refs :=
  ⟨h.nodup, h.made⟩

theorem read_alloc (h : memory.Owns refs) (value : α) (hmem : ref ∈ refs) :
    (memory.alloc value).read ref = memory.read ref :=
  Function.update_of_ne (Nat.ne_of_lt (h.made ref hmem)) _ _

theorem map_read_alloc (h : memory.Owns refs) (value : α) (hsubset : other ⊆ refs) :
    other.map (memory.alloc value).read = other.map memory.read :=
  List.map_congr_left fun _ hmem => h.read_alloc value (hsubset hmem)

/-- What is written through one of the references is not read through the others. -/
theorem map_read_write (h : memory.Owns (ref :: refs)) (value : α) (hsubset : other ⊆ refs) :
    other.map (memory.write ref value).read = other.map memory.read := by
  refine List.map_congr_left fun found hmem => Function.update_of_ne ?_ _ _
  rintro rfl
  exact (List.nodup_cons.mp h.nodup).1 (hsubset hmem)

end Owns

end Memory

end AcflyRos.Objects
