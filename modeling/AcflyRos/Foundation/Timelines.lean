import Mathlib.Data.List.Basic
import Mathlib.Logic.Function.Iterate

/-! # Versions that can be gone back to

A line of versions with a present one among them. One can go back and forward along the line;
recording the present version cuts off what lies ahead of it, and only so many versions are kept
behind it.
-/

namespace AcflyRos.Timelines

universe u v

structure Timeline (α : Type u) where
  /-- What can be gone back to, the latest version first. -/
  past : List α
  present : α
  /-- What can be gone forward to, the next version first. -/
  future : List α
  deriving DecidableEq, Repr

/-- The oldest is dropped if there are too many. -/
def trim {α : Type u} (limit : Nat) (saved : List α) : List α :=
  if limit < saved.length then saved.dropLast else saved

theorem map_trim {α : Type u} {β : Type v} (f : α → β) (limit : Nat) (saved : List α) :
    (trim limit saved).map f = trim limit (saved.map f) := by
  unfold trim
  rw [List.length_map]
  split
  next => exact List.map_dropLast
  next => rfl

namespace Timeline

variable {α : Type u} (timeline : Timeline α)

def back : Timeline α :=
  match timeline.past with
  | [] => timeline
  | last :: earlier => ⟨earlier, last, timeline.present :: timeline.future⟩

def forward : Timeline α :=
  match timeline.future with
  | [] => timeline
  | next :: later => ⟨timeline.present :: timeline.past, next, later⟩

/-- The present version can be gone back to from now on. -/
def record (limit : Nat) : Timeline α :=
  { past := trim limit (timeline.present :: timeline.past)
    present := timeline.present
    future := [] }

def change (edit : α → α) : Timeline α := { timeline with present := edit timeline.present }

/-- Nothing can be gone back or forward to. -/
def start (present : α) : Timeline α := ⟨[], present, []⟩

/-- The whole line, the oldest version first. -/
def line : List α := timeline.past.reverse ++ timeline.present :: timeline.future

/-- From the present version on backwards. -/
def versions : List α := timeline.present :: timeline.past

/-- As far forward as one can go. -/
def latest : Timeline α := forward^[timeline.future.length] timeline

/-- The latest version on the line but one. -/
def lastButOne : Option α := timeline.line.reverse[1]?

/-- So many versions are kept beside the present one at most. -/
def Bounded (limit : Nat) : Prop := timeline.past.length + timeline.future.length ≤ limit

variable {timeline}

/-! ## Back and forward -/

theorem back_of_past {last : α} {earlier : List α} (hpast : timeline.past = last :: earlier) :
    timeline.back = ⟨earlier, last, timeline.present :: timeline.future⟩ := by
  rw [back, hpast]

theorem present_back {last : α} (hpast : timeline.past.head? = some last) :
    timeline.back.present = last := by
  obtain ⟨earlier, hearlier⟩ := List.head?_eq_some_iff.mp hpast
  rw [back_of_past hearlier]

theorem back_of_nil (hpast : timeline.past = []) : timeline.back = timeline := by
  rw [back, hpast]

theorem forward_of_future {next : α} {later : List α} (hfuture : timeline.future = next :: later) :
    timeline.forward = ⟨timeline.present :: timeline.past, next, later⟩ := by
  rw [forward, hfuture]

theorem forward_of_nil (hfuture : timeline.future = []) : timeline.forward = timeline := by
  rw [forward, hfuture]

theorem forward_back (hpast : timeline.past ≠ []) : timeline.back.forward = timeline := by
  obtain ⟨past, present, future⟩ := timeline
  cases past with
  | nil => exact absurd rfl hpast
  | cons last earlier => rfl

theorem back_forward (hfuture : timeline.future ≠ []) : timeline.forward.back = timeline := by
  obtain ⟨past, present, future⟩ := timeline
  cases future with
  | nil => exact absurd rfl hfuture
  | cons next later => rfl

/-- Going back stays on the line. -/
theorem line_back : timeline.back.line = timeline.line := by
  obtain ⟨past, present, future⟩ := timeline
  cases past with
  | nil => rfl
  | cons last earlier => simp [back, line]

theorem line_forward : timeline.forward.line = timeline.line := by
  obtain ⟨past, present, future⟩ := timeline
  cases future with
  | nil => rfl
  | cons next later => simp [forward, line]

theorem versions_back (hpast : timeline.past ≠ []) :
    timeline.back.versions = timeline.versions.drop 1 := by
  obtain ⟨past, present, future⟩ := timeline
  cases past with
  | nil => exact absurd rfl hpast
  | cons last earlier => rfl

theorem length_iterate_back (count : Nat) :
    (back^[count] timeline).past.length = timeline.past.length - count := by
  induction count with
  | zero => rfl
  | succ count ih =>
      rw [Function.iterate_succ_apply', Nat.sub_succ, ← ih]
      cases hpast : (back^[count] timeline).past with
      | nil => rw [back_of_nil hpast, hpast]; rfl
      | cons last earlier => rw [back_of_past hpast]; rfl

theorem past_iterate_back {count : Nat} (hcount : count < timeline.past.length) :
    (back^[count] timeline).past ≠ [] := by
  rw [← List.length_pos_iff, length_iterate_back]
  exact Nat.sub_pos_of_lt hcount

/-- As many steps back as there are versions to go back to. -/
theorem versions_iterate_back {count : Nat} (hcount : count ≤ timeline.past.length) :
    (back^[count] timeline).versions = timeline.versions.drop count := by
  induction count with
  | zero => rfl
  | succ count ih =>
      rw [Function.iterate_succ_apply', versions_back (past_iterate_back hcount),
        ih (Nat.le_of_succ_le hcount), List.drop_drop]

theorem iterate_forward_back {count : Nat} (hcount : count ≤ timeline.past.length) :
    forward^[count] (back^[count] timeline) = timeline := by
  induction count with
  | zero => rfl
  | succ count ih =>
      rw [Function.iterate_succ_apply, Function.iterate_succ_apply',
        forward_back (past_iterate_back hcount), ih (Nat.le_of_succ_le hcount)]

/-! ## Recording -/

theorem versions_record {limit n : Nat} (hn : n < limit) :
    (timeline.record limit).versions[n + 1]? = timeline.versions[n]? := by
  simp only [record, versions, List.getElem?_cons_succ, trim]
  split
  next hfull =>
    rw [List.getElem?_dropLast, if_pos]
    omega
  next => rfl

/-! ## The latest version but one -/

theorem lastButOne_of_latest (hfuture : timeline.future = []) :
    timeline.lastButOne = timeline.past.head? := by
  rw [lastButOne, line, hfuture, List.reverse_append, List.reverse_reverse,
    List.head?_eq_getElem?]
  rfl

theorem lastButOne_back : timeline.back.lastButOne = timeline.lastButOne := by
  rw [lastButOne, line_back, lastButOne]

theorem lastButOne_forward : timeline.forward.lastButOne = timeline.lastButOne := by
  rw [lastButOne, line_forward, lastButOne]

theorem length_iterate_forward (count : Nat) :
    (forward^[count] timeline).future.length = timeline.future.length - count := by
  induction count with
  | zero => rfl
  | succ count ih =>
      rw [Function.iterate_succ_apply', Nat.sub_succ, ← ih]
      cases hfuture : (forward^[count] timeline).future with
      | nil => rw [forward_of_nil hfuture, hfuture]; rfl
      | cons next later => rw [forward_of_future hfuture]; rfl

theorem future_latest : timeline.latest.future = [] := by
  rw [← List.length_eq_zero_iff, latest, length_iterate_forward, Nat.sub_self]

theorem lastButOne_latest : timeline.latest.lastButOne = timeline.lastButOne :=
  Function.Iterate.rec (fun other : Timeline α => other.lastButOne = timeline.lastButOne) rfl
    (fun _ hother => lastButOne_forward.trans hother) timeline.future.length

theorem lastButOne_record {limit : Nat} (hlimit : 0 < limit) :
    (timeline.record limit).lastButOne = some timeline.present := by
  have hversion : (timeline.record limit).versions[1]? = timeline.versions[0]? :=
    versions_record hlimit
  rw [lastButOne_of_latest rfl, List.head?_eq_getElem?]
  exact hversion

theorem lastButOne_change (hfuture : timeline.future = []) (edit : α → α) :
    (timeline.change edit).lastButOne = timeline.lastButOne := by
  rw [lastButOne_of_latest hfuture]
  exact lastButOne_of_latest hfuture

theorem length_line_record {limit : Nat} (hroom : timeline.past.length < limit) :
    (timeline.record limit).line.length = timeline.past.length + 2 := by
  have hkept : trim limit (timeline.present :: timeline.past) = timeline.present :: timeline.past :=
    if_neg (Nat.not_lt.mpr hroom)
  simp [line, record, hkept]

section Strokes

variable {ι : Type v} (limit : Nat) (edit : ι → α → α)

/-- Each edit is made on a recorded version. -/
def edits (timeline : Timeline α) (changes : List ι) : Timeline α :=
  changes.foldl (fun timeline which => (timeline.record limit).change (edit which)) timeline

/-- What was there before some edits is so many versions behind. -/
theorem versions_edits {limit edit} {changes : List ι} {n : Nat}
    (hlimit : n + changes.length ≤ limit) :
    (timeline.edits limit edit changes).versions[n + changes.length]? = timeline.versions[n]? := by
  induction changes generalizing timeline n with
  | nil => rfl
  | cons which rest ih =>
      rw [List.length_cons] at hlimit ⊢
      have hfirst : ((timeline.record limit).change (edit which)).versions[n + 1]? =
          timeline.versions[n]? := versions_record (by omega)
      rw [← hfirst, ← Nat.add_assoc, Nat.add_right_comm]
      exact ih (by omega)

/-- As many steps back as there were edits lead to what was there before them, and the same steps
forward to what is there after them. -/
theorem iterate_back_edits {limit edit} {changes : List ι} (hlimit : changes.length ≤ limit) :
    (back^[changes.length] (timeline.edits limit edit changes)).present = timeline.present ∧
      forward^[changes.length] (back^[changes.length] (timeline.edits limit edit changes)) =
        timeline.edits limit edit changes := by
  have hversion : (timeline.edits limit edit changes).versions[changes.length]? =
      some timeline.present := by
    have hshift : (timeline.edits limit edit changes).versions[0 + changes.length]? =
        timeline.versions[0]? := versions_edits (by omega)
    rwa [Nat.zero_add] at hshift
  have hcount : changes.length ≤ (timeline.edits limit edit changes).past.length := by
    have hlength := (List.getElem?_eq_some_iff.mp hversion).1
    rw [versions, List.length_cons] at hlength
    omega
  refine ⟨?_, iterate_forward_back hcount⟩
  have hdropped := congrArg List.head? (versions_iterate_back hcount)
  rw [List.head?_drop, hversion] at hdropped
  exact Option.some.inj hdropped

end Strokes

/-! ## The bound -/

namespace Bounded

variable {limit : Nat} (h : timeline.Bounded limit)

theorem start (present : α) : (Timeline.start present).Bounded limit := Nat.zero_le limit

include h

theorem back : timeline.back.Bounded limit := by
  unfold Bounded at h ⊢
  cases hpast : timeline.past with
  | nil => rwa [back_of_nil hpast]
  | cons last earlier =>
      rw [hpast] at h
      simp only [back_of_past hpast, List.length_cons] at h ⊢
      omega

theorem forward : timeline.forward.Bounded limit := by
  unfold Bounded at h ⊢
  cases hfuture : timeline.future with
  | nil => rwa [forward_of_nil hfuture]
  | cons next later =>
      rw [hfuture] at h
      simp only [forward_of_future hfuture, List.length_cons] at h ⊢
      omega

theorem record : (timeline.record limit).Bounded limit := by
  unfold Bounded at h ⊢
  simp only [Timeline.record, trim]
  split
  next hfull =>
    rw [List.length_dropLast]
    simp only [List.length_cons, List.length_nil] at *
    omega
  next hfull => simpa using hfull

end Bounded

end Timeline

end AcflyRos.Timelines
