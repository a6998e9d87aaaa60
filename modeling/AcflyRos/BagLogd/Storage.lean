import Mathlib.Data.Finset.Card
import Mathlib.Data.List.Sort
import Mathlib.Data.String.Basic

/-! # The storage directory of the recorder

The names `bag_logd_node.cpp` gives to its slices and the directory that holds
them. A directory has a modification time, which the kernel sets to the wall clock
whenever an entry is created or removed in it. Times are whole seconds.
-/

namespace AcflyRos.BagLogd

/-! ## Timestamps -/

/-- The fields of `std::tm` that are printed. -/
structure Tm where
  tmYear : Int
  tmMon : Int
  tmMday : Int
  tmHour : Int
  tmMin : Int
  tmSec : Int
  deriving DecidableEq, Repr

/-- `%0<width>d`. -/
def zeroPadded (width : Nat) (value : Int) : String :=
  let digits := Nat.repr value.natAbs
  if value < 0 then "-" ++ String.ofList (List.replicate (width - 1 - digits.length) '0') ++ digits
  else String.ofList (List.replicate (width - digits.length) '0') ++ digits

/-- `localtime_r` depends on the time zone; it fails for years out of range. -/
def formatTimestamp (localtime : Int → Option Tm) (t : Int) : String :=
  match localtime t with
  | none => Int.repr t
  | some tm =>
      zeroPadded 4 (tm.tmYear + 1900) ++ zeroPadded 2 (tm.tmMon + 1) ++ zeroPadded 2 tm.tmMday ++
        zeroPadded 2 tm.tmHour ++ zeroPadded 2 tm.tmMin ++ zeroPadded 2 tm.tmSec

/-! ## Entries -/

inductive EntryKind where
  | directory
  | file
  /-- A dangling link leads nowhere. -/
  | symlink (dangling : Bool)
  deriving DecidableEq, Repr

structure Entry where
  name : String
  kind : EntryKind
  deriving DecidableEq, Repr

/-- The storage directory without `.` and `..`. -/
structure Storage where
  mtime : Int
  entries : List Entry
  deriving DecidableEq, Repr

namespace Storage

/-- `stat` of an entry succeeds; it follows links. -/
def has (storage : Storage) (name : String) : Bool :=
  storage.entries.any fun entry => entry.name == name && entry.kind != .symlink true

/-- A directory is created at that reading of the wall clock. -/
def create (storage : Storage) (clock : Int) (name : String) : Storage :=
  { mtime := clock, entries := storage.entries ++ [⟨name, .directory⟩] }

def remove (storage : Storage) (clock : Int) (name : String) : Storage :=
  { mtime := clock, entries := storage.entries.filter (·.name ≠ name) }

end Storage

/-! ## Collisions -/

def suffix : Nat → String
  | 0 => ""
  | i + 1 => "_" ++ Nat.repr (i + 1)

/-- The names `open_new_bag` tries: the timestamp, then `_1`, `_2` and so on. -/
def candidate (base : String) (i : Nat) : String := base ++ suffix i

/-- The first candidate from `i` on that is not taken. Since every taken candidate
is an entry of its own, the number of entries bounds the loop. -/
def firstFree (taken : String → Bool) (base : String) : Nat → Nat → Nat
  | 0, i => i
  | fuel + 1, i => if taken (candidate base i) then firstFree taken base fuel (i + 1) else i

theorem suffix_injective : Function.Injective suffix := by
  intro i j hij
  have hchars := congrArg String.toList hij
  cases i with
  | zero =>
      cases j with
      | zero => rfl
      | succ j => simp [suffix] at hchars
  | succ i =>
      cases j with
      | zero => simp [suffix] at hchars
      | succ j =>
          simp only [suffix, String.toList_append, List.append_cancel_left_eq,
            Nat.toList_repr] at hchars
          have hvalue := congrArg (Nat.ofDigitChars 10 · 0) hchars
          simpa [Nat.ofDigitChars_toDigits] using hvalue

theorem candidate_injective (base : String) : Function.Injective (candidate base) := by
  intro i j hij
  exact suffix_injective ((String.append_right_inj base).mp hij)

/-- Every candidate passed over is taken, and the loop stops at a free one or for
want of fuel. -/
theorem firstFree_spec (taken : String → Bool) (base : String) (fuel i : Nat) :
    (∀ j, i ≤ j → j < firstFree taken base fuel i → taken (candidate base j) = true) ∧
      (taken (candidate base (firstFree taken base fuel i)) = false ∨
        firstFree taken base fuel i = i + fuel) := by
  induction fuel generalizing i with
  | zero => exact ⟨fun j hij hj => absurd hj (Nat.not_lt.mpr hij), Or.inr rfl⟩
  | succ fuel ih =>
      unfold firstFree
      by_cases htaken : taken (candidate base i) = true
      · rw [if_pos htaken]
        obtain ⟨hpassed, hstop⟩ := ih (i + 1)
        constructor
        · intro j hij hj
          by_cases hji : j = i
          · rw [hji]
            exact htaken
          · exact hpassed j (by omega) hj
        · apply hstop.imp_right
          intro hfuel
          omega
      · rw [if_neg htaken]
        constructor
        · intro j hij hj
          omega
        · exact Or.inl (by simpa using htaken)

/-- `stat` of a path in the storage directory, which may not exist. -/
def isTaken (storage : Option Storage) (name : String) : Bool :=
  storage.any (·.has name)

/-- How many entries the storage directory has. -/
def entryCount (storage : Option Storage) : Nat :=
  storage.elim 0 (·.entries.length)

/-- Which candidate `open_new_bag` settles on. -/
def freeIndex (storage : Option Storage) (base : String) : Nat :=
  firstFree (isTaken storage) base (entryCount storage + 1) 0

theorem isTaken_mem {storage : Option Storage} {name : String}
    (htaken : isTaken storage name = true) :
    name ∈ storage.elim [] (·.entries.map (·.name)) := by
  cases storage with
  | none => cases htaken
  | some storage =>
      simp only [isTaken, Option.any_some, Storage.has, List.any_eq_true] at htaken
      obtain ⟨entry, hentry, hname⟩ := htaken
      simp only [Bool.and_eq_true, beq_iff_eq] at hname
      exact List.mem_map.mpr ⟨entry, hentry, hname.1⟩

/-- The candidates passed over are taken. -/
theorem freeIndex_taken {storage : Option Storage} {base : String} {j : Nat}
    (hj : j < freeIndex storage base) : isTaken storage (candidate base j) = true :=
  (firstFree_spec (isTaken storage) base (entryCount storage + 1) 0).1 j (Nat.zero_le j) hj

/-- The collision loop ends, and it ends at a free name. -/
theorem freeIndex_free (storage : Option Storage) (base : String) :
    isTaken storage (candidate base (freeIndex storage base)) = false := by
  obtain ⟨hpassed, hfree | hfuel⟩ :=
    firstFree_spec (isTaken storage) base (entryCount storage + 1) 0
  · exact hfree
  · -- Otherwise more distinct names are taken than there are entries.
    have hsubset : (List.range (entryCount storage + 1)).map (candidate base) ⊆
        storage.elim [] (·.entries.map (·.name)) := by
      intro name hname
      obtain ⟨j, hj, rfl⟩ := List.mem_map.mp hname
      apply isTaken_mem
      apply hpassed j (Nat.zero_le j)
      rw [hfuel, Nat.zero_add]
      exact List.mem_range.mp hj
    have hdistinct : ((List.range (entryCount storage + 1)).map (candidate base)).Nodup :=
      List.nodup_range.map (candidate_injective base)
    have hlength := (hdistinct.subperm hsubset).length_le
    cases storage with
    | none => simp [entryCount] at hlength
    | some storage => simp [entryCount] at hlength

/-! ## The form of a name -/

/-- A character that names of slices are made of. -/
def IsSliceChar (c : Char) : Prop := c.isDigit = true ∨ c = '-' ∨ c = '_'

/-- A name of the form that `open_new_bag` gives, in some time zone. -/
def IsSlice (name : String) : Prop :=
  ∃ localtime start index, name = candidate (formatTimestamp localtime start) index

theorem isSliceChar_repr {n : Nat} {c : Char} (hc : c ∈ (Nat.repr n).toList) : IsSliceChar c := by
  rw [Nat.toList_repr] at hc
  exact Or.inl (Nat.isDigit_of_mem_toDigits (by decide) (by decide) hc)

theorem isSliceChar_zeroPadded {width : Nat} {value : Int} {c : Char}
    (hc : c ∈ (zeroPadded width value).toList) : IsSliceChar c := by
  have hzero : ∀ {n : Nat}, c ∈ List.replicate n '0' → IsSliceChar c := by
    intro n hmem
    rw [List.eq_of_mem_replicate hmem]
    exact Or.inl (by decide)
  unfold zeroPadded at hc
  dsimp only at hc
  split at hc
  · simp only [String.toList_append, String.toList_ofList, List.mem_append] at hc
    rcases hc with (hminus | hpad) | hdigit
    · exact Or.inr (Or.inl (by simpa using hminus))
    · exact hzero hpad
    · exact isSliceChar_repr hdigit
  · simp only [String.toList_append, String.toList_ofList, List.mem_append] at hc
    exact hc.elim hzero isSliceChar_repr

theorem isSliceChar_formatTimestamp {localtime : Int → Option Tm} {t : Int} {c : Char}
    (hc : c ∈ (formatTimestamp localtime t).toList) : IsSliceChar c := by
  unfold formatTimestamp at hc
  split at hc
  next =>
    cases t with
    | ofNat n => exact isSliceChar_repr hc
    | negSucc n =>
        rw [Int.repr, String.toList_append, List.mem_append] at hc
        rcases hc with hminus | hdigit
        · exact Or.inr (Or.inl (by simpa using hminus))
        · exact isSliceChar_repr hdigit
  next =>
    simp only [String.toList_append, List.mem_append] at hc
    rcases hc with ((((hc | hc) | hc) | hc) | hc) | hc <;> exact isSliceChar_zeroPadded hc

/-- The timestamp is not empty. -/
theorem formatTimestamp_ne_empty (localtime : Int → Option Tm) (t : Int) :
    formatTimestamp localtime t ≠ "" := by
  have hrepr : ∀ n, (Nat.repr n).toList ≠ [] := by
    intro n
    rw [Nat.toList_repr]
    exact Nat.toDigits_ne_nil
  intro hempty
  have hchars := congrArg String.toList hempty
  unfold formatTimestamp at hchars
  split at hchars
  next =>
    cases t with
    | ofNat n => exact hrepr n hchars
    | negSucc n => simp [Int.repr] at hchars
  next =>
    -- The seconds are printed last, with a digit at the end.
    simp only [String.toList_append, String.toList_empty, List.append_eq_nil_iff] at hchars
    have hseconds := hchars.2
    unfold zeroPadded at hseconds
    dsimp only at hseconds
    split at hseconds <;>
    · simp only [String.toList_append, List.append_eq_nil_iff] at hseconds
      exact hrepr _ hseconds.2

theorem isSliceChar_suffix {i : Nat} {c : Char} (hc : c ∈ (suffix i).toList) : IsSliceChar c := by
  cases i with
  | zero => cases hc
  | succ i =>
      rw [suffix, String.toList_append, List.mem_append] at hc
      rcases hc with hscore | hdigit
      · exact Or.inr (Or.inr (by simpa using hscore))
      · exact isSliceChar_repr hdigit

theorem IsSlice.isSliceChar {name : String} (hname : IsSlice name) {c : Char}
    (hc : c ∈ name.toList) : IsSliceChar c := by
  obtain ⟨localtime, start, index, rfl⟩ := hname
  rw [candidate, String.toList_append, List.mem_append] at hc
  exact hc.elim isSliceChar_formatTimestamp isSliceChar_suffix

theorem IsSlice.ne_empty {name : String} (hname : IsSlice name) : name ≠ "" := by
  obtain ⟨localtime, start, index, rfl⟩ := hname
  intro hempty
  have hchars := congrArg String.toList hempty
  rw [candidate, String.toList_append, String.toList_empty, List.append_eq_nil_iff] at hchars
  exact formatTimestamp_ne_empty localtime start (String.toList_injective hchars.1)

end AcflyRos.BagLogd
