import AcflyRos.Foundation.Decimals
import AcflyRos.BagLogd.ActiveSlice
import AcflyRos.BagLogd.Playback

/-! # When slices are named in the order in which they are opened

A slice is named after the local time at the later of two readings, the wall clock and the
modification time of the storage directory. Consecutive names are in order when that time
goes forward from slice to slice, or stands still within a second while the number of
collisions goes up to one that does not begin a new place: the number is not padded, so that
10 comes before 9.
-/

namespace AcflyRos.BagLogd

open AcflyRos.Transition AcflyRos.Decimals AcflyRos.Sequences

/-! ## Local times -/

namespace Tm

def year (tm : Tm) : Int := tm.tmYear + 1900

/-- From the year down to the second. -/
def fields (tm : Tm) : List Int :=
  [tm.tmYear, tm.tmMon, tm.tmMday, tm.tmHour, tm.tmMin, tm.tmSec]

def Earlier (first second : Tm) : Prop := first.fields < second.fields

instance (first second : Tm) : Decidable (first.Earlier second) :=
  inferInstanceAs (Decidable (first.fields < second.fields))

/-- What `localtime_r` promises of the fields below the year; 60 is a leap second. -/
structure InRange (tm : Tm) : Prop where
  mon : 0 ≤ tm.tmMon ∧ tm.tmMon ≤ 11
  mday : 1 ≤ tm.tmMday ∧ tm.tmMday ≤ 31
  hour : 0 ≤ tm.tmHour ∧ tm.tmHour ≤ 23
  min : 0 ≤ tm.tmMin ∧ tm.tmMin ≤ 59
  sec : 0 ≤ tm.tmSec ∧ tm.tmSec ≤ 60

/-- The years are not negative, and `%04d` prints them in equally many digits. -/
def SameWidth (first second : Tm) : Prop :=
  0 ≤ first.year ∧ 0 ≤ second.year ∧
    max 4 (Nat.log 10 first.year.toNat + 1) = max 4 (Nat.log 10 second.year.toNat + 1)

instance (first second : Tm) : Decidable (first.SameWidth second) :=
  inferInstanceAs (Decidable (_ ∧ _ ∧ _))

end Tm

/-- The local times of a time zone. -/
def LocalTimes (localtime : Int → Option Tm) : Prop :=
  ∀ t tm, localtime t = some tm → tm.InRange

/-! ## Timestamps as text -/

/-- A field that is not negative. -/
theorem toList_zeroPadded {width : Nat} {n : Int} (hn : 0 ≤ n) :
    (zeroPadded width n).toList = padded width n.toNat := by
  have habs : n.natAbs = n.toNat := by omega
  unfold zeroPadded padded
  rw [if_neg (Int.not_lt.mpr hn), String.toList_append, String.toList_ofList, Nat.toList_repr,
    ← String.length_toList, Nat.toList_repr, habs]

/-- The digits of a timestamp. -/
def Tm.stamp (tm : Tm) : List Char :=
  padded 4 tm.year.toNat ++ (padded 2 (tm.tmMon + 1).toNat ++ (padded 2 tm.tmMday.toNat ++
    (padded 2 tm.tmHour.toNat ++ (padded 2 tm.tmMin.toNat ++ padded 2 tm.tmSec.toNat))))

theorem toList_formatTimestamp {localtime : Int → Option Tm} {t : Int} {tm : Tm}
    (htime : localtime t = some tm) (hrange : tm.InRange) (hyear : 0 ≤ tm.year) :
    (formatTimestamp localtime t).toList = tm.stamp := by
  have hmon : 0 ≤ tm.tmMon + 1 := by
    have := hrange.mon.1
    omega
  have hmday : 0 ≤ tm.tmMday := le_trans (by decide) hrange.mday.1
  unfold formatTimestamp
  rw [htime]
  simp only [String.toList_append, List.append_assoc]
  rw [toList_zeroPadded hmon, toList_zeroPadded hmday, toList_zeroPadded hrange.hour.1,
    toList_zeroPadded hrange.min.1, toList_zeroPadded hrange.sec.1]
  rw [show tm.tmYear + 1900 = tm.year from rfl, toList_zeroPadded hyear]
  rfl

/-- Two digits are enough for the other fields. -/
theorem length_padded_two {n : Int} (hn : n < 100) : (padded 2 n.toNat).length = 2 := by
  have hlog : Nat.log 10 n.toNat < 2 := Nat.log_lt_of_lt_pow' (by decide) (by omega)
  rw [length_padded]
  omega

theorem padded_append_lt_iff {width m n : Nat} {tail tail' : List Char}
    (hlength : (padded width m).length = (padded width n).length) :
    padded width m ++ tail < padded width n ++ tail' ↔ m < n ∨ m = n ∧ tail < tail' := by
  rw [append_lt_append_iff hlength, padded_lt_iff hlength, padded_inj]

theorem Tm.InRange.length_stamp {tm : Tm} (hrange : tm.InRange) :
    tm.stamp.length = max 4 (Nat.log 10 tm.year.toNat + 1) + 10 := by
  obtain ⟨⟨_, hmon⟩, ⟨_, hmday⟩, ⟨_, hhour⟩, ⟨_, hmin⟩, ⟨_, hsec⟩⟩ := hrange
  simp only [Tm.stamp, List.length_append]
  rw [length_padded, length_padded_two (show tm.tmMon + 1 < 100 by omega),
    length_padded_two (by omega), length_padded_two (by omega), length_padded_two (by omega),
    length_padded_two (by omega)]

section Stamps

variable {first second : Tm}

/-- Timestamps are compared from the year down. -/
theorem stamp_lt_iff (hfirst : first.InRange) (hsecond : second.InRange)
    (hwidth : first.SameWidth second) :
    first.stamp < second.stamp ↔ first.Earlier second := by
  obtain ⟨hyear, hyear', hyears⟩ := hwidth
  rw [← length_padded, ← length_padded] at hyears
  obtain ⟨⟨_, hmon⟩, ⟨_, hmday⟩, ⟨_, hhour⟩, ⟨_, hmin⟩, ⟨_, hsec⟩⟩ := hfirst
  obtain ⟨⟨_, hmon'⟩, ⟨_, hmday'⟩, ⟨_, hhour'⟩, ⟨_, hmin'⟩, ⟨_, hsec'⟩⟩ := hsecond
  have htwo : ∀ {m n : Int}, m < 100 → n < 100 →
      (padded 2 m.toNat).length = (padded 2 n.toNat).length := by
    intro m n hm hn
    rw [length_padded_two hm, length_padded_two hn]
  unfold Tm.stamp Tm.Earlier Tm.fields
  rw [padded_append_lt_iff hyears, padded_append_lt_iff (htwo (by omega) (by omega)),
    padded_append_lt_iff (htwo (by omega) (by omega)),
    padded_append_lt_iff (htwo (by omega) (by omega)),
    padded_append_lt_iff (htwo (by omega) (by omega)), padded_lt_iff (htwo (by omega) (by omega))]
  simp only [List.cons_lt_cons_iff, List.not_lt_nil, and_false, or_false]
  unfold Tm.year at hyear hyear' ⊢
  omega

theorem stamp_inj (hfirst : first.InRange) (hsecond : second.InRange)
    (hwidth : first.SameWidth second) : first.stamp = second.stamp ↔ first = second := by
  have hforth := stamp_lt_iff hfirst hsecond hwidth
  have hback := stamp_lt_iff hsecond hfirst ⟨hwidth.2.1, hwidth.1, hwidth.2.2.symm⟩
  constructor
  · intro heq
    rw [heq] at hforth hback
    have hfields : first.fields = second.fields :=
      le_antisymm (not_lt.mp fun hlt => lt_irrefl _ (hback.mpr hlt))
        (not_lt.mp fun hlt => lt_irrefl _ (hforth.mpr hlt))
    cases first
    cases second
    simpa [Tm.fields] using hfields
  · rintro rfl
    rfl

end Stamps

/-- The suffix of a name is in the order of fractions. -/
theorem suffix_lt_iff {j k : Nat} : suffix j < suffix k ↔ FractionLt j k := by
  rw [String.lt_iff_toList_lt]
  cases j with
  | zero =>
      cases k with
      | zero => simp [FractionLt]
      | succ k => simp [suffix, FractionLt]
  | succ j =>
      cases k with
      | zero => simp [suffix, FractionLt]
      | succ k =>
          rw [← toDigits_lt_iff, suffix, suffix, String.toList_append, String.toList_append,
            append_lt_append_iff rfl, Nat.toList_repr, Nat.toList_repr]
          simp

/-- The order of names in terms of local times and numbers of collisions. -/
theorem later_iff {localtime : Int → Option Tm} {s t : Int} {first second : Tm} {j k : Nat}
    (hlocal : LocalTimes localtime) (hfirst : localtime s = some first)
    (hsecond : localtime t = some second) (hwidth : first.SameWidth second) :
    Later (formatTimestamp localtime s, j) (formatTimestamp localtime t, k) ↔
      first.Earlier second ∨ first = second ∧ FractionLt j k := by
  have hrange := hlocal s first hfirst
  have hrange' := hlocal t second hsecond
  have htext := toList_formatTimestamp hfirst hrange hwidth.1
  have htext' := toList_formatTimestamp hsecond hrange' hwidth.2.1
  have hlength : (formatTimestamp localtime s).length = (formatTimestamp localtime t).length := by
    rw [← String.length_toList, ← String.length_toList, htext, htext', hrange.length_stamp,
      hrange'.length_stamp, hwidth.2.2]
  have hsame : formatTimestamp localtime s = formatTimestamp localtime t ↔ first = second := by
    rw [← String.toList_inj, htext, htext', stamp_inj hrange hrange' hwidth]
  unfold Later
  dsimp only
  rw [String.lt_iff_toList_lt, htext, htext', stamp_lt_iff hrange hrange' hwidth, hsame,
    suffix_lt_iff, and_iff_left hlength]

/-! ## The condition -/

/-- The reading and the number of a name. -/
def Event.opening? : Event → Option (Int × Nat)
  | .named start _ index => some (start, index)
  | _ => none

/-- Newest first. -/
def openings (log : List Event) : List (Int × Nat) := log.filterMap Event.opening?

/-- The reading of the last slice was `start`, and it was the one of that number with its timestamp.
Now the local time at the later of the clock and the modification time is a later one. Or it is
the same, and that many names with this timestamp are taken that the number is greater as a
fraction. -/
def ClockMovedOn (localtime : Int → Option Tm) (clock : Int) (storage : Option Storage)
    (start : Int) (number : Nat) : Prop :=
  ∃ before now, localtime start = some before ∧ localtime (latest clock storage) = some now ∧
    before.SameWidth now ∧
      (before.Earlier now ∨ before = now ∧ ∃ collisions,
        FirstFree storage (formatTimestamp localtime (latest clock storage)) collisions ∧
          FractionLt number collisions)

/-- Whenever the callback names a slice, time has moved on since the last one. -/
def ClockMovesOn (localtime : Int → Option Tm) (node : BagRecorderNode) (label : Label) : Prop :=
  label.answers.SettlesName → ∀ opening ∈ openingState node label,
    ∀ last ∈ (openings node.log).head?,
      ClockMovedOn localtime label.answers.time opening.storage last.1 last.2

theorem exists_firstFree_iff {storage : Option Storage} {base : String} {number : Nat} :
    (∃ collisions, FirstFree storage base collisions ∧ FractionLt number collisions) ↔
      FractionLt number (freeIndex storage base) := by
  constructor
  · rintro ⟨collisions, hfirst, hless⟩
    rwa [hfirst.freeIndex_eq]
  · exact fun hless => ⟨_, firstFree_freeIndex storage base, hless⟩

instance (localtime : Int → Option Tm) (clock : Int) (storage : Option Storage) (start : Int)
    (number : Nat) : Decidable (ClockMovedOn localtime clock storage start number) :=
  match hbefore : localtime start, hnow : localtime (latest clock storage) with
  | some before, some now =>
      decidable_of_iff (before.SameWidth now ∧ (before.Earlier now ∨ before = now ∧
        FractionLt number
          (freeIndex storage (formatTimestamp localtime (latest clock storage))))) (by
        unfold ClockMovedOn
        simp [hbefore, hnow, exists_firstFree_iff])
  | none, _ => isFalse (by simp [ClockMovedOn, hbefore])
  | _, none => isFalse (by simp [ClockMovedOn, hnow])

instance (localtime : Int → Option Tm) (node : BagRecorderNode) (label : Label) :
    Decidable (ClockMovesOn localtime node label) :=
  inferInstanceAs (Decidable (_ → ∀ opening ∈ openingState node label,
    ∀ last ∈ (openings node.log).head?, _))

/-- Time has moved on exactly if the next name sorts after the last one, as far as both local times
can be printed in one width. -/
theorem clockMovedOn_iff {localtime : Int → Option Tm} {answers : Answers} {node : BagRecorderNode}
    {start : Int} {number : Nat} {before now : Tm} (hlocal : LocalTimes localtime)
    (hbefore : localtime start = some before)
    (hnow : localtime (latest answers.time node.storage) = some now)
    (hwidth : before.SameWidth now) :
    ClockMovedOn localtime answers.time node.storage start number ↔
      Later (formatTimestamp localtime start, number)
        (node.bagBase localtime answers, node.bagIndex localtime answers) := by
  unfold BagRecorderNode.bagIndex BagRecorderNode.bagBase
  rw [bagStart_eq, later_iff hlocal hbefore hnow hwidth]
  unfold ClockMovedOn
  simp [hbefore, hnow, hwidth, exists_firstFree_iff]

theorem ClockMovedOn.later {localtime : Int → Option Tm} {answers : Answers}
    {node : BagRecorderNode} {start : Int} {number : Nat} (hlocal : LocalTimes localtime)
    (hmoved : ClockMovedOn localtime answers.time node.storage start number) :
    Later (formatTimestamp localtime start, number)
      (node.bagBase localtime answers, node.bagIndex localtime answers) := by
  obtain ⟨before, now, hbefore, hnow, hwidth, _⟩ := id hmoved
  exact (clockMovedOn_iff hlocal hbefore hnow hwidth).mp hmoved

/-! ## Steps -/

section Steps

variable {localtime : Int → Option Tm} {node : BagRecorderNode} {label : Label}

/-- Every timestamp in the log is that of its reading. -/
def Stamped (localtime : Int → Option Tm) (node : BagRecorderNode) : Prop :=
  choices node.chronicle =
    (openings node.chronicle).map fun opening => (formatTimestamp localtime opening.1, opening.2)

theorem openings_filter (log : List Event) :
    openings (log.filter Event.isSliceEvent) = openings log := by
  unfold openings
  rw [List.filterMap_filter]
  apply List.filterMap_congr
  intro event _
  cases event <;> rfl

theorem step_stamped (hstamped : Stamped localtime node) :
    Stamped localtime (step localtime node label) := by
  obtain ⟨added, hadded, hchronicle⟩ := step_grows localtime node label
  unfold Stamped at hstamped ⊢
  rw [hchronicle]
  cases hadded with
  | nothing => exact hstamped
  | name opening hopening hsettles => exact congrArg (_ :: ·) hstamped
  | check found removed hsorted hsegment => exact hstamped

theorem step_ordered (hlocal : LocalTimes localtime) (hstamped : Stamped localtime node)
    (hordered : NamesOrdered node.chronicle) (hmoves : ClockMovesOn localtime node label) :
    NamesOrdered (step localtime node label).chronicle := by
  obtain ⟨added, hadded, hchronicle⟩ := step_grows localtime node label
  rw [hchronicle]
  cases hadded with
  | nothing => exact hordered
  | name opening hopening hsettles =>
      apply hordered.named
      intro last hlast
      unfold Stamped at hstamped
      rw [hstamped, List.head?_map] at hlast
      obtain ⟨reading, hreading, rfl⟩ := Option.map_eq_some_iff.mp hlast
      unfold BagRecorderNode.chronicle at hreading
      rw [openings_filter] at hreading
      exact (hmoves hsettles opening hopening reading hreading).later hlocal
  | check found removed hsorted hsegment => exact hordered.cleaned hsorted hsegment

end Steps

/-! ## What the log says of the storage directory -/

/-- A disk check writes down which inactive slices it has found, and which of them it removes. -/
structure Chronicled (localtime : Int → Option Tm) (node : BagRecorderNode) (label : Label) :
    Prop extends Sweeps localtime node label where
  checked : label.request = .diskCheck →
    deletions node label = [] ∧ step localtime node label = node ∨ ∃ found removed,
      (step localtime node label).chronicle = .cleaned found removed :: node.chronicle ∧
        (∀ name, .removeDir name ∈ deletions node label ↔ name ∈ removed) ∧
        (label.answers.opendirFails = false → found = node.inactiveSlices label.answers)

theorem step_chronicled (localtime : Int → Option Tm) (node : BagRecorderNode) (label : Label) :
    Chronicled localtime node label where
  toSweeps := step_sweeps localtime node label
  checked := by
    intro hrequest
    unfold step deletions
    rw [hrequest]
    show _ ∧ node.diskCheckCb label.answers = node ∨ ∃ found removed,
      (node.diskCheckCb label.answers).chronicle = _ ∧ _
    unfold BagRecorderNode.diskCheckCb BagRecorderNode.diskDeletions
    dsimp only
    split
    next => exact Or.inl ⟨rfl, rfl⟩
    next =>
      split
      next => exact Or.inl ⟨rfl, rfl⟩
      next =>
        split
        next => exact Or.inl ⟨rfl, rfl⟩
        next =>
          have hdirs : label.answers.opendirFails = false →
              (if label.answers.opendirFails then [] else node.inactiveSlices label.answers) =
                node.inactiveSlices label.answers := fun hopened => if_neg (by simp [hopened])
          generalize (if label.answers.opendirFails then []
            else node.inactiveSlices label.answers) = dirs at hdirs ⊢
          generalize (if label.answers.opendirFails then []
            else node.strayLinks label.answers) = links
          generalize node.selectOldest dirs label.answers.freeMb.tail = selected
          obtain ⟨removed, later⟩ := selected
          refine Or.inr ⟨dirs, removed, ?_, ?_, hdirs⟩
          · dsimp only
            split
            · exact BagRecorderNode.closeWriter_chronicle.trans
                (cleaned_chronicle label.answers _ dirs removed)
            · exact cleaned_chronicle label.answers _ dirs removed
          · intro name
            simp

/-! ## Runs -/

/-- Names and deletions are in order; the log tells what becomes of the storage directory, and a
writer writes to the path of the newest name. -/
structure OrdersSlices (localtime : Int → Option Tm) (start : BagRecorderNode)
    (labels : List Label) : Prop where
  ordered : NamesOrdered (run (step localtime) start labels).log
  chronicled : EveryStep (step localtime) (Chronicled localtime) start labels
  path : ∀ writer, (run (step localtime) start labels).writer = some writer →
    (run (step localtime) start labels).currentBagPath = writer.uri ∧
      IsNewest start.cfg.storagePath (run (step localtime) start labels).log writer.uri

/-- In every run in which time has moved on whenever a slice is named. -/
theorem run_namesOrdered (localtime : Int → Option Tm) (cfg : Config) (storage : Option Storage)
    (answers : Answers) (labels : List Label) (hlocal : LocalTimes localtime)
    (hlabels : EveryStep (step localtime) (ClockMovesOn localtime)
      (initial localtime cfg storage answers) labels) :
    OrdersSlices localtime (initial localtime cfg storage answers) labels where
  ordered := by
    have hinitial : Stamped localtime (step localtime { cfg, storage } ⟨.reboot, answers⟩) :=
      step_stamped rfl
    have hrun := run_keeps (step localtime)
      (fun node => Stamped localtime node ∧ NamesOrdered node.chronicle)
      (fun _ _ h hmoves => ⟨step_stamped h.1, step_ordered hlocal h.1 h.2 hmoves⟩)
      ⟨hinitial, initial_namesOrdered localtime cfg storage answers⟩ hlabels
    exact NamesOrdered.of_filter hrun.2
  chronicled :=
    everyStep_of_invariant (step localtime) (fun _ => True) (fun _ _ _ => trivial)
      (fun node label _ => step_chronicled localtime node label) labels trivial
  path := by
    intro writer hwriter
    have hstart : (initial localtime cfg storage answers).cfg.storagePath = cfg.storagePath :=
      (current_run localtime cfg storage answers []).storagePath
    refine ⟨(run_pathed localtime cfg storage answers labels writer hwriter).1, ?_⟩
    rw [hstart]
    exact (current_run localtime cfg storage answers labels).writer writer hwriter

theorem localTimes_epochDay : LocalTimes epochDay := by
  intro t tm htime
  unfold epochDay at htime
  split at htime
  next hday =>
    obtain rfl := Option.some.inj htime
    constructor <;> dsimp only <;> omega
  next => cases htime

/-- A flight whose second rotation finds the clock set back, and a disk check at its end. -/
def setBack (corrected : Int) : List Label :=
  [⟨.state true, { time := 1000, createdAt := 1000 }⟩,
    ⟨.rotate, { time := 1300, createdAt := 1300 }⟩,
    ⟨.rotate, { time := 900, createdAt := corrected }⟩,
    ⟨.rotate, { time := corrected + 5, createdAt := corrected + 5 }⟩,
    ⟨.rotate, { time := corrected + 305, createdAt := corrected + 305 }⟩,
    ⟨.diskCheck, { freeMb := [100, 100, 9000, 9000] }⟩]

set_option maxRecDepth 4000 in
/-- The clock is right again before the directory of the third slice is created. -/
theorem namesOrdered_setBack :
    OrdersSlices epochDay (initial epochDay {} none {}) (setBack 1600) :=
  run_namesOrdered epochDay {} none {} (setBack 1600) localTimes_epochDay
    ⟨by decide, by decide, by decide, by decide, by decide, by decide, trivial⟩

set_option maxRecDepth 4000 in
/-- The directory of the third slice, named after the second one, takes the storage directory
back to the clock that is behind; the fourth is named after that, and the disk check deletes it
first. -/
theorem not_namesOrdered_setBack :
    ¬ ∀ (localtime : Int → Option Tm) (cfg : Config) (storage : Option Storage)
        (answers : Answers) (labels : List Label), LocalTimes localtime →
      OrdersSlices localtime (initial localtime cfg storage answers) labels := by
  intro hall
  have hnames := (hall epochDay {} none {} (setBack 900) localTimes_epochDay).ordered.names
  exact absurd hnames (by decide)

end AcflyRos.BagLogd
