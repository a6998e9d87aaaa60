import AcflyRos.Foundation.Sequences
import AcflyRos.BagLogd.Recording

/-! # The order of slice names

`disk_check_cb` takes the order of names for the order of creation. A name is the
local time as text and the number of the collision. As long as every name sorts after
the one before, slices are deleted oldest first. When that is so is a matter of clocks
(`SliceOrder`).
-/

namespace AcflyRos.BagLogd

open AcflyRos.Transition AcflyRos.History AcflyRos.Sequences

/-! ## Choices in the log -/

/-- The timestamp and the number of a name that `open_new_bag` chose. -/
def Event.choice? : Event → Option (String × Nat)
  | .named _ base index => some (base, index)
  | _ => none

/-- Newest first. -/
def choices (log : List Event) : List (String × Nat) := log.filterMap Event.choice?

/-- Newest first. -/
def chosenNames (log : List Event) : List String :=
  (choices log).map fun choice => candidate choice.1 choice.2

/-- Of two slices that a disk check finds, it removes the newer one only together with
the older one. -/
def DeletionRule : Event → List Event → Prop
  | .cleaned found removed, earlier =>
      ∀ x ∈ removed, ∀ y ∈ found, y ∉ removed → x ∈ chosenNames earlier →
        y ∈ chosenNames earlier → [y, x].Sublist (chosenNames earlier)
  | _, _ => True

/-- The names increase, and so slices are deleted oldest first. -/
structure NamesOrdered (log : List Event) : Prop where
  names : (chosenNames log).Pairwise (· > ·)
  deletions : Justified DeletionRule log

/-- The second choice sorts after the first: later digits, or the same digits and a later
number as text. -/
def Later (first second : String × Nat) : Prop :=
  (first.1 < second.1 ∧ first.1.length = second.1.length) ∨
    (first.1 = second.1 ∧ suffix first.2 < suffix second.2)

instance (first second : String × Nat) : Decidable (Later first second) :=
  inferInstanceAs (Decidable (_ ∧ _ ∨ _ ∧ _))

theorem candidate_lt {first second : String × Nat} (hlater : Later first second) :
    candidate first.1 first.2 < candidate second.1 second.2 := by
  unfold candidate
  rw [String.lt_iff_toList_lt, String.toList_append, String.toList_append]
  rcases hlater with ⟨hlt, hlength⟩ | ⟨hbase, hlt⟩
  · rw [append_lt_append_iff (by rw [String.length_toList, String.length_toList, hlength])]
    exact Or.inl (String.lt_iff_toList_lt.mp hlt)
  · rw [hbase]
    exact List.append_left_lt (String.lt_iff_toList_lt.mp hlt)

namespace NamesOrdered

variable {log : List Event}

theorem nil : NamesOrdered [] := ⟨List.Pairwise.nil, trivial⟩

/-- A name that sorts after the last one sorts after all. -/
theorem named (hordered : NamesOrdered log) {start : Int} {base : String} {index : Nat}
    (hlater : ∀ last, (choices log).head? = some last → Later last (base, index)) :
    NamesOrdered (.named start base index :: log) where
  names := by
    have hnames := hordered.names
    show (candidate base index :: chosenNames log).Pairwise (· > ·)
    rw [List.pairwise_cons]
    constructor
    · intro name hname
      unfold chosenNames at hname hnames
      cases hchoices : choices log with
      | nil =>
          rw [hchoices] at hname
          cases hname
      | cons last older =>
          -- The last name is above all older ones.
          rw [hchoices, List.map_cons] at hname hnames
          have hlast := candidate_lt (hlater last (by rw [hchoices]; rfl))
          rcases List.mem_cons.mp hname with rfl | hname
          · exact hlast
          · exact lt_trans ((List.pairwise_cons.mp hnames).1 name hname) hlast
    · exact hnames
  deletions := ⟨trivial, hordered.deletions⟩

/-- Removing an initial segment of the sorted slices. -/
theorem cleaned (hordered : NamesOrdered log) {found removed : List String}
    (hsorted : found.Pairwise (· ≤ ·)) (hsegment : removed <+: found) :
    NamesOrdered (.cleaned found removed :: log) where
  names := hordered.names
  deletions := by
    refine ⟨?_, hordered.deletions⟩
    intro x hx y hy hkept hxchosen hychosen
    have hle := le_of_mem_prefix hsorted hsegment hx hy hkept
    have hne : x ≠ y := by
      rintro rfl
      exact hkept hx
    exact pair_sublist_of_lt hordered.names hxchosen hychosen (lt_of_le_of_ne hle hne)

end NamesOrdered

/-! ## What a callback adds to the chronicle of slices -/

/-- Names and disk checks. -/
def Event.isSliceEvent : Event → Bool
  | .named _ _ _ => true
  | .cleaned _ _ => true
  | _ => false

/-- The name is put together without an exception. -/
def Answers.SettlesName (answers : Answers) : Prop :=
  ∀ assigned, answers.fault ≠ some (.naming assigned)

instance (answers : Answers) : Decidable answers.SettlesName :=
  decidable_of_iff (answers.fault.all fun
    | .naming _ => false
    | _ => true) (by
      unfold Answers.SettlesName
      rcases answers.fault with _ | ⟨⟨⟩ | _ | _ | _⟩ <;> simp)

namespace BagRecorderNode

/-- The part of the log that is about names. -/
def chronicle (node : BagRecorderNode) : List Event := node.log.filter Event.isSliceEvent

variable {localtime : Int → Option Tm} {answers : Answers} {node : BagRecorderNode}

@[simp] theorem resetWriter_chronicle : node.resetWriter.chronicle = node.chronicle := by
  unfold resetWriter
  split <;> rfl

@[simp] theorem createWriter_chronicle : node.createWriter.chronicle = node.chronicle := by
  show node.resetWriter.chronicle = node.chronicle
  simp

@[simp] theorem closeWriter_chronicle : node.closeWriter.chronicle = node.chronicle := by
  unfold closeWriter
  split
  · rfl
  · show node.resetWriter.chronicle = node.chronicle
    simp

theorem OnlyStorage.chronicle_eq {before after : BagRecorderNode}
    (honly : OnlyStorage before after) : after.chronicle = before.chronicle := by
  obtain ⟨_, rfl⟩ := honly
  rfl

/-- The event of a name chosen in this state. -/
def namedEvent (localtime : Int → Option Tm) (answers : Answers) (node : BagRecorderNode) :
    Event :=
  .named (node.bagStart answers) (node.bagBase localtime answers) (node.bagIndex localtime answers)

/-- `open_new_bag` chooses one name, unless it is left before. -/
theorem openNewBag_chronicle (localtime : Int → Option Tm) (answers : Answers)
    (node : BagRecorderNode) :
    (node.openNewBag localtime answers).2.chronicle = node.chronicle ∨
      answers.SettlesName ∧ (node.openNewBag localtime answers).2.chronicle =
        node.namedEvent localtime answers :: node.chronicle := by
  have hchosen : (node.chooseName localtime answers).chronicle =
      node.namedEvent localtime answers :: node.chronicle := rfl
  have hcreated : (node.chooseName localtime answers).createWriter.chronicle =
      node.namedEvent localtime answers :: node.chronicle := by
    rw [createWriter_chronicle, hchosen]
  unfold openNewBag Answers.SettlesName
  dsimp only
  split
  next => exact Or.inl rfl
  next => exact Or.inl rfl
  next hfault => exact Or.inr ⟨by simp [hfault], hchosen⟩
  next hfault => exact Or.inr ⟨by simp [hfault], hcreated⟩
  next hfault => exact Or.inr ⟨by simp [hfault], hcreated⟩
  next hfault => exact Or.inr ⟨by simp [hfault], hcreated⟩
  next hfault => exact Or.inr ⟨by simp [hfault], hcreated⟩

end BagRecorderNode

theorem startRotationTimer_chronicle (answers : Answers) (node : BagRecorderNode) :
    (node.startRotationTimer answers).2.chronicle = node.chronicle := by
  rcases node.startRotationTimer_cases answers with ⟨_, hstart⟩ | ⟨hstart, _⟩
  · rw [hstart]
    rfl
  · rw [hstart]

/-! ## The condition -/

/-- The state in which the callback calls `open_new_bag`, if it does. -/
def openingState (node : BagRecorderNode) (label : Label) : Option BagRecorderNode :=
  match label.request with
  | .state true =>
      if node.cfg.armRecordEnabled ∧ node.armed = false then some (node.prepareArm label.answers)
      else none
  | .rotate =>
      if node.rotationTimer ∧ node.recording ∧ ¬ (node.writer = none ∨ node.currentBagPath = "") ∧
          node.closeWriter.ShouldRecord then some node.closeWriter
      else none
  | .retry =>
      if node.retryTimer ∧ node.recording = false ∧ node.ShouldRecord ∧
          HasSpace label.answers node then some node
      else none
  | .reboot =>
      if node.cfg.armRecordEnabled then none
      else some (node.restarted.prepareBoot label.answers)
  | _ => none

/-- The wall clock, or the modification time of the storage directory when that is later. -/
def latest (clock : Int) (storage : Option Storage) : Int :=
  storage.elim clock fun storage => max clock storage.mtime

/-- The candidates before this one are taken, and it is free. -/
def FirstFree (storage : Option Storage) (base : String) (i : Nat) : Prop :=
  isTaken storage (candidate base i) = false ∧
    ∀ j < i, isTaken storage (candidate base j) = true

/-- After a slice of that timestamp and number, the clock and the storage directory have moved
on to a time that prints later, or they are at one that prints the same and the first free
number is later as text. -/
def MovedOn (localtime : Int → Option Tm) (clock : Int) (storage : Option Storage)
    (last : String × Nat) : Prop :=
  let text := formatTimestamp localtime (latest clock storage)
  (last.1 < text ∧ last.1.length = text.length) ∨
    (last.1 = text ∧ ∃ i, FirstFree storage text i ∧ suffix last.2 < suffix i)

/-- Whenever the callback calls `open_new_bag`, the clock and the storage directory have moved
on since the last slice. -/
def OpensLater (localtime : Int → Option Tm) (node : BagRecorderNode) (label : Label) : Prop :=
  ∀ opening ∈ openingState node label, ∀ last ∈ (choices node.log).head?,
    MovedOn localtime label.answers.time opening.storage last

theorem FirstFree.freeIndex_eq {storage : Option Storage} {base : String} {i : Nat}
    (hfirst : FirstFree storage base i) : freeIndex storage base = i := by
  obtain ⟨hfree, htaken⟩ := hfirst
  rcases Nat.lt_trichotomy (freeIndex storage base) i with hlt | heq | hgt
  · have := htaken _ hlt
    rw [freeIndex_free] at this
    cases this
  · exact heq
  · have := freeIndex_taken hgt
    rw [hfree] at this
    cases this

theorem firstFree_freeIndex (storage : Option Storage) (base : String) :
    FirstFree storage base (freeIndex storage base) :=
  ⟨freeIndex_free storage base, fun _ hj => freeIndex_taken hj⟩

theorem movedOn_iff {localtime : Int → Option Tm} {clock : Int} {storage : Option Storage}
    {last : String × Nat} :
    MovedOn localtime clock storage last ↔
      Later last (formatTimestamp localtime (latest clock storage),
        freeIndex storage (formatTimestamp localtime (latest clock storage))) := by
  apply or_congr Iff.rfl
  apply and_congr_right
  intro _
  constructor
  · rintro ⟨i, hfirst, hsuffix⟩
    rw [hfirst.freeIndex_eq]
    exact hsuffix
  · intro hsuffix
    exact ⟨_, firstFree_freeIndex _ _, hsuffix⟩

instance (localtime : Int → Option Tm) (clock : Int) (storage : Option Storage)
    (last : String × Nat) : Decidable (MovedOn localtime clock storage last) :=
  decidable_of_iff _ movedOn_iff.symm

instance (localtime : Int → Option Tm) (node : BagRecorderNode) (label : Label) :
    Decidable (OpensLater localtime node label) :=
  inferInstanceAs (Decidable
    (∀ opening ∈ openingState node label, ∀ last ∈ (choices node.log).head?, _))

theorem bagStart_eq (answers : Answers) (node : BagRecorderNode) :
    node.bagStart answers = latest answers.time node.storage := by
  unfold BagRecorderNode.bagStart latest
  cases node.storage with
  | none => rfl
  | some storage =>
      by_cases hlt : answers.time < storage.mtime
      · simp [hlt, max_eq_right hlt.le]
      · simp [hlt, max_eq_left (not_lt.mp hlt)]

/-- The name of the slice sorts after the last one. -/
theorem MovedOn.later {localtime : Int → Option Tm} {answers : Answers} {node : BagRecorderNode}
    {last : String × Nat} (hmoved : MovedOn localtime answers.time node.storage last) :
    Later last (node.bagBase localtime answers, node.bagIndex localtime answers) := by
  have hlater := movedOn_iff.mp hmoved
  rw [← bagStart_eq] at hlater
  exact hlater

/-! ## Steps -/

/-- A callback leaves the chronicle alone, adds the name it opens or a disk check. -/
inductive Adds (localtime : Int → Option Tm) (node : BagRecorderNode) (label : Label) :
    List Event → Prop where
  | nothing : Adds localtime node label []
  | name (opening : BagRecorderNode) (hopening : openingState node label = some opening)
      (hsettles : label.answers.SettlesName) :
      Adds localtime node label [opening.namedEvent localtime label.answers]
  | check (found removed : List String) (hsorted : found.Pairwise (· ≤ ·))
      (hsegment : removed <+: found) : Adds localtime node label [.cleaned found removed]

/-- The chronicle of the node grows by what one callback may add. -/
def Grows (localtime : Int → Option Tm) (node : BagRecorderNode) (label : Label)
    (after : BagRecorderNode) : Prop :=
  ∃ added, Adds localtime node label added ∧ after.chronicle = added ++ node.chronicle

section Steps

variable {localtime : Int → Option Tm} {node after : BagRecorderNode} {label : Label}

theorem grows_of_same (hsame : after.chronicle = node.chronicle) :
    Grows localtime node label after :=
  ⟨[], .nothing, hsame⟩

/-- A `try` block that opens a bag and a handler that writes nothing about slices. -/
theorem grows_of_opening {opening : BagRecorderNode}
    (hopening : openingState node label = some opening)
    (hbefore : opening.chronicle = node.chronicle)
    (hafter : after.chronicle = (opening.openNewBag localtime label.answers).2.chronicle) :
    Grows localtime node label after := by
  rcases opening.openNewBag_chronicle localtime label.answers with hsame | ⟨hsettles, hnamed⟩
  · exact grows_of_same (by rw [hafter, hsame, hbefore])
  · exact ⟨_, .name opening hopening hsettles, by rw [hafter, hnamed, hbefore]; rfl⟩

theorem rotate_grows (hrequest : label.request = .rotate) (htimer : node.rotationTimer = true) :
    Grows localtime node label (node.rotateBag localtime label.answers) := by
  unfold BagRecorderNode.rotateBag
  split
  next => exact grows_of_same rfl
  next hrecording =>
    split
    next => exact grows_of_same rfl
    next hopen =>
      dsimp only
      split
      next => exact grows_of_same BagRecorderNode.closeWriter_chronicle
      next hallowed =>
        have hopening : openingState node label = some node.closeWriter := by
          simp only [openingState, hrequest]
          exact if_pos ⟨htimer, by simpa using hrecording, hopen, not_disarmed_iff.mp hallowed⟩
        apply grows_of_opening hopening BagRecorderNode.closeWriter_chronicle
        rw [tryCatch_keeps BagRecorderNode.chronicle,
          andThen_keeps BagRecorderNode.chronicle fun _ => rfl]
        exact fun _ => BagRecorderNode.resetWriter_chronicle

theorem retry_grows (hrequest : label.request = .retry) (htimer : node.retryTimer = true) :
    Grows localtime node label (node.retryOpenBag localtime label.answers) := by
  unfold BagRecorderNode.retryOpenBag
  split
  next => exact grows_of_same rfl
  next hidle =>
    split
    next => exact grows_of_same rfl
    next hallowed =>
      split
      next => exact grows_of_same rfl
      next hspace =>
        have hopening : openingState node label = some node := by
          simp only [openingState, hrequest]
          exact if_pos ⟨htimer, by simpa using hidle, not_disarmed_iff.mp hallowed, hspace⟩
        apply grows_of_opening hopening rfl
        rw [tryCatch_keeps BagRecorderNode.chronicle,
          andThen_keeps BagRecorderNode.chronicle fun _ => rfl,
          andThen_keeps BagRecorderNode.chronicle (startRotationTimer_chronicle label.answers),
          andThen_keeps BagRecorderNode.chronicle fun _ => rfl]
        exact fun _ => BagRecorderNode.resetWriter_chronicle

theorem arm_grows (hrequest : label.request = .state true)
    (hmode : node.cfg.armRecordEnabled = true) :
    Grows localtime node label (node.armStateCb localtime label.answers true) := by
  unfold BagRecorderNode.armStateCb
  rw [if_pos rfl]
  split
  next => exact grows_of_same rfl
  next hdisarmed =>
    have hprepared : (node.prepareArm label.answers).chronicle = node.chronicle := by
      unfold BagRecorderNode.prepareArm
      rw [(BagRecorderNode.cleanupOldBags_onlyStorage label.answers _).chronicle_eq,
        BagRecorderNode.closeWriter_chronicle,
        (BagRecorderNode.ensureStorageDir_onlyStorage label.answers _).chronicle_eq]
      rfl
    dsimp only
    split
    next => exact grows_of_same hprepared
    next =>
      have hopening : openingState node label = some (node.prepareArm label.answers) := by
        simp only [openingState, hrequest]
        exact if_pos ⟨hmode, by simpa using hdisarmed⟩
      apply grows_of_opening hopening hprepared
      rw [tryCatch_keeps BagRecorderNode.chronicle,
        andThen_keeps BagRecorderNode.chronicle (startRotationTimer_chronicle label.answers),
        andThen_keeps BagRecorderNode.chronicle fun _ => rfl]
      exact fun _ => BagRecorderNode.resetWriter_chronicle

theorem disarm_chronicle (answers : Answers) :
    (node.armStateCb localtime answers false).chronicle = node.chronicle := by
  unfold BagRecorderNode.armStateCb
  rw [if_neg Bool.false_ne_true]
  split
  next => rfl
  next =>
    dsimp only
    rw [BagRecorderNode.closeWriter_chronicle]
    split <;> rfl

theorem boot_grows (hrequest : label.request = .reboot) :
    Grows localtime node label (BagRecorderNode.boot localtime label.answers node) := by
  unfold BagRecorderNode.boot
  dsimp only
  split
  next =>
    exact grows_of_same
      (BagRecorderNode.ensureStorageDir_onlyStorage label.answers node.restarted).chronicle_eq
  next hmode =>
    have hprepared : (node.restarted.prepareBoot label.answers).chronicle = node.chronicle :=
      (node.restarted.prepareBoot_onlyStorage label.answers).chronicle_eq
    have hopening : openingState node label =
        some (node.restarted.prepareBoot label.answers) := by
      simp only [openingState, hrequest]
      exact if_neg hmode
    apply grows_of_opening hopening hprepared
    rw [(BagRecorderNode.ensureStorageDir_onlyStorage label.answers _).chronicle_eq,
      tryCatch_keeps BagRecorderNode.chronicle,
      andThen_keeps BagRecorderNode.chronicle (startRotationTimer_chronicle label.answers),
      andThen_keeps BagRecorderNode.chronicle fun _ => rfl]
    exact fun _ => BagRecorderNode.resetWriter_chronicle

/-- Since none of them is the active slice, the loop stops at the first one it keeps. -/
theorem selectOldest_prefix {dirs : List String}
    (hinactive : ∀ name ∈ dirs, node.fullPath name ≠ node.currentBagPath) (free : List Int) :
    (node.selectOldest dirs free).1 <+: dirs := by
  induction dirs generalizing free with
  | nil => exact List.prefix_rfl
  | cons name rest ih =>
      unfold BagRecorderNode.selectOldest
      by_cases henough : free.headD (-1) < 0 ∨ node.cfg.minRecordingFreeSpaceMb ≤ free.headD (-1)
      · rw [if_pos henough]
        exact List.nil_prefix
      · rw [if_neg henough, if_neg (hinactive name List.mem_cons_self)]
        have hrest := ih (fun later hlater => hinactive later (List.mem_cons_of_mem _ hlater))
          free.tail
        exact (List.prefix_cons_inj name).mpr hrest

theorem inactiveSlices_inactive {answers : Answers} {name : String}
    (hname : name ∈ node.inactiveSlices answers) :
    node.fullPath name ≠ node.currentBagPath := by
  unfold BagRecorderNode.inactiveSlices at hname
  rw [List.mem_insertionSort, List.mem_map] at hname
  obtain ⟨entry, hentry, rfl⟩ := hname
  have hvisible := (List.mem_filter.mp hentry).2
  simp only [BagRecorderNode.isVisible, Bool.and_eq_true, bne_iff_ne] at hvisible
  exact hvisible.1.1.2

theorem inactiveSlices_sorted (answers : Answers) :
    (node.inactiveSlices answers).Pairwise (· ≤ ·) :=
  List.pairwise_insertionSort (· ≤ ·) _

/-- What the scan lists is sorted and inactive, also when it fails. -/
theorem scanned_spec (node : BagRecorderNode) (answers : Answers) :
    ∃ dirs, (if answers.opendirFails then [] else node.inactiveSlices answers) = dirs ∧
      dirs.Pairwise (· ≤ ·) ∧ ∀ name ∈ dirs, node.fullPath name ≠ node.currentBagPath := by
  by_cases hfails : answers.opendirFails = true
  · exact ⟨[], if_pos hfails, List.Pairwise.nil, fun _ hname => absurd hname List.not_mem_nil⟩
  · exact ⟨_, if_neg hfails, inactiveSlices_sorted answers, fun _ => inactiveSlices_inactive⟩

theorem cleaned_chronicle (answers : Answers) (names dirs removed : List String) :
    (names.foldl (BagRecorderNode.removeDir answers)
        (node.record (.cleaned dirs removed))).chronicle =
      .cleaned dirs removed :: node.chronicle :=
  (BagRecorderNode.removeDirs_onlyStorage answers names _).chronicle_eq

theorem diskCheck_grows : Grows localtime node label (node.diskCheckCb label.answers) := by
  obtain ⟨scanned, hscanned, hsorted, hinactive⟩ := scanned_spec node label.answers
  rcases node.diskCheckCb_cases label.answers with
    hidle | ⟨dirs, links, removed, left, hdirs, _, hremoved, hleft, hchecked⟩
  · exact grows_of_same (by rw [hidle])
  · rw [hscanned] at hdirs
    subst hdirs hremoved hleft
    have hsegment := selectOldest_prefix hinactive label.answers.freeMb.tail
    -- Removing entries and an emergency stop are not about names.
    apply Exists.intro [_]
    constructor
    · exact .check dirs _ hsorted hsegment
    · rcases hchecked with hkept | hstopped
      · rw [hkept]
        exact cleaned_chronicle label.answers _ dirs _
      · rw [hstopped]
        exact BagRecorderNode.closeWriter_chronicle.trans
          (cleaned_chronicle label.answers _ dirs _)

theorem step_grows (localtime : Int → Option Tm) (node : BagRecorderNode) (label : Label) :
    Grows localtime node label (step localtime node label) := by
  unfold step
  split
  next armed hrequest =>
    by_cases hmode : node.cfg.armRecordEnabled = true
    · rw [if_pos hmode]
      cases armed with
      | true => exact arm_grows hrequest hmode
      | false => exact grows_of_same (disarm_chronicle label.answers)
    · rw [if_neg hmode]
      exact grows_of_same rfl
  next hrequest =>
    by_cases htimer : node.rotationTimer = true
    · rw [if_pos htimer]
      exact rotate_grows hrequest htimer
    · rw [if_neg htimer]
      exact grows_of_same rfl
  next hrequest =>
    by_cases htimer : node.retryTimer = true
    · rw [if_pos htimer]
      exact retry_grows hrequest htimer
    · rw [if_neg htimer]
      exact grows_of_same rfl
  next => exact diskCheck_grows
  next topic _ =>
    apply grows_of_same
    unfold BagRecorderNode.writeMessage
    split <;> rfl
  next hrequest => exact boot_grows hrequest
  next => exact grows_of_same rfl

end Steps

/-! ## Runs -/

theorem choices_filter (log : List Event) :
    choices (log.filter Event.isSliceEvent) = choices log := by
  unfold choices
  rw [List.filterMap_filter]
  apply List.filterMap_congr
  intro event _
  cases event <;> rfl

@[simp] theorem chosenNames_filter (log : List Event) :
    chosenNames (log.filter Event.isSliceEvent) = chosenNames log := by
  unfold chosenNames
  rw [choices_filter]

/-- The other events do not matter. -/
theorem NamesOrdered.of_filter {log : List Event}
    (hordered : NamesOrdered (log.filter Event.isSliceEvent)) : NamesOrdered log where
  names := by
    rw [← chosenNames_filter]
    exact hordered.names
  deletions := by
    have hdeletions := hordered.deletions
    clear hordered
    induction log with
    | nil => trivial
    | cons event earlier ih =>
        cases event with
        | cleaned found removed =>
            -- The rule speaks of the earlier names only, which the filter keeps.
            constructor
            · have hrule := hdeletions.1
              simp only [DeletionRule, chosenNames_filter] at hrule ⊢
              exact hrule
            · exact ih hdeletions.2
        | named start base index => exact ⟨trivial, ih hdeletions.2⟩
        | closed writer => exact ⟨trivial, ih hdeletions⟩
        | wrote writer uri topic => exact ⟨trivial, ih hdeletions⟩
        | dropped topic => exact ⟨trivial, ih hdeletions⟩

theorem step_namesOrdered {localtime : Int → Option Tm} {node : BagRecorderNode} {label : Label}
    (hordered : NamesOrdered node.chronicle) (hlater : OpensLater localtime node label) :
    NamesOrdered (step localtime node label).chronicle := by
  obtain ⟨added, hadded, hchronicle⟩ := step_grows localtime node label
  rw [hchronicle]
  cases hadded with
  | nothing => exact hordered
  | name opening hopening hsettles =>
      apply hordered.named
      intro last hlast
      unfold BagRecorderNode.chronicle at hlast
      rw [choices_filter] at hlast
      exact (hlater opening hopening last hlast).later
  | check found removed hsorted hsegment => exact hordered.cleaned hsorted hsegment

theorem initial_namesOrdered (localtime : Int → Option Tm) (cfg : Config)
    (storage : Option Storage) (answers : Answers) :
    NamesOrdered (initial localtime cfg storage answers).chronicle := by
  have hboot : initial localtime cfg storage answers =
      step localtime { cfg, storage } ⟨.reboot, answers⟩ := rfl
  rw [hboot]
  refine step_namesOrdered ?_ ?_
  · exact NamesOrdered.nil
  · intro _ _ last hlast
    cases hlast

end AcflyRos.BagLogd
