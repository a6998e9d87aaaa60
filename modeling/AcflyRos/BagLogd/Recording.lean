import AcflyRos.Foundation.History
import AcflyRos.Foundation.Transition
import AcflyRos.BagLogd.Node

/-! # When the recorder records

Between callbacks the flag `recording_` says whether there is a writer, and the
writer is that of the directory in `current_bag_path_`. One lemma for each function
says what it does to these; the callbacks follow by cases on how their `try` block
is left.
-/

namespace AcflyRos.BagLogd

open AcflyRos.Transition AcflyRos.History

/-- A message is passed to a writer that has not been closed. -/
def WroteRule : Event → List Event → Prop
  | .wrote writer _ _, earlier => .closed writer ∉ earlier
  | _, _ => True

/-- The log and the number of writers fit together. -/
structure LogSound (node : BagRecorderNode) : Prop where
  closed : ∀ writer, .closed writer ∈ node.log → writer < node.writers
  current : ∀ writer, node.writer = some writer →
    writer.id < node.writers ∧ .closed writer.id ∉ node.log
  wrote : Justified WroteRule node.log

namespace LogSound

variable {node next : BagRecorderNode}

theorem of_same (hsound : LogSound node) (hlog : next.log = node.log)
    (hwriters : next.writers = node.writers)
    (hwriter : next.writer.map (·.id) = node.writer.map (·.id)) : LogSound next where
  closed := by
    rw [hlog, hwriters]
    exact hsound.closed
  current := by
    intro writer hcurrent
    rw [hcurrent, Option.map_some, eq_comm, Option.map_eq_some_iff] at hwriter
    obtain ⟨before, hbefore, hid⟩ := hwriter
    rw [hlog, hwriters, ← hid]
    exact hsound.current before hbefore
  wrote := by
    rw [hlog]
    exact hsound.wrote

/-- An event that is neither a closing nor a message. -/
theorem record (hsound : LogSound node) {event : Event} (hclosed : ∀ writer, event ≠ .closed writer)
    (hwrote : WroteRule event node.log) : LogSound (node.record event) where
  closed := by
    intro writer hmem
    rcases List.mem_cons.mp hmem with hevent | hearlier
    · exact absurd hevent.symm (hclosed writer)
    · exact hsound.closed writer hearlier
  current := by
    intro writer hcurrent
    obtain ⟨hlt, hopen⟩ := hsound.current writer hcurrent
    constructor
    · exact hlt
    · intro hmem
      rcases List.mem_cons.mp hmem with hevent | hearlier
      · exact hclosed writer.id hevent.symm
      · exact hopen hearlier
  wrote := ⟨hwrote, hsound.wrote⟩

theorem resetWriter (hsound : LogSound node) : LogSound node.resetWriter := by
  unfold BagRecorderNode.resetWriter
  cases hwriter : node.writer with
  | none => exact hsound
  | some writer =>
      refine ⟨?_, fun _ hcurrent => (by cases hcurrent), trivial, hsound.wrote⟩
      intro closed hmem
      rcases List.mem_cons.mp hmem with hevent | hearlier
      · cases hevent
        exact (hsound.current writer hwriter).1
      · exact hsound.closed closed hearlier

theorem createWriter (hsound : LogSound node) : LogSound node.createWriter := by
  have hreset := hsound.resetWriter
  constructor
  · intro writer hmem
    exact Nat.lt_succ_of_lt (hreset.closed writer hmem)
  · intro writer hcurrent
    cases hcurrent
    constructor
    · exact Nat.lt_succ_self _
    · intro hmem
      exact absurd (hreset.closed _ hmem) (Nat.lt_irrefl _)
  · exact hreset.wrote

end LogSound

/-! ## What no piece of opening a bag touches -/

/-- The flags and timers of the node. -/
def BagRecorderNode.control (node : BagRecorderNode) : Config × Bool × Bool × Bool × Bool :=
  (node.cfg, node.armed, node.recording, node.rotationTimer, node.retryTimer)

namespace BagRecorderNode

variable {localtime : Int → Option Tm} {answers : Answers} {node : BagRecorderNode}

@[simp] theorem record_control (event : Event) : (node.record event).control = node.control := rfl

@[simp] theorem resetWriter_control : node.resetWriter.control = node.control := by
  unfold resetWriter
  split <;> rfl

@[simp] theorem closeWriter_control : node.closeWriter.control = node.control := by
  unfold closeWriter
  split
  · rfl
  · exact resetWriter_control

@[simp] theorem createWriter_control : node.createWriter.control = node.control := by
  show node.resetWriter.control = node.control
  simp

@[simp] theorem createSlice_control (name : String) :
    (node.createSlice answers name).control = node.control := rfl

@[simp] theorem markOpen_control : node.markOpen.control = node.control := rfl

@[simp] theorem chooseName_control :
    (node.chooseName localtime answers).control = node.control := rfl

theorem openNewBag_control :
    (node.openNewBag localtime answers).2.control = node.control := by
  unfold openNewBag
  dsimp only
  split <;> simp <;> rfl

@[simp] theorem resetWriter_path : node.resetWriter.currentBagPath = node.currentBagPath := by
  unfold resetWriter
  split <;> rfl

/-- Only the storage directory differs. -/
def OnlyStorage (before after : BagRecorderNode) : Prop :=
  ∃ storage, after = { before with storage }

theorem OnlyStorage.refl (node : BagRecorderNode) : OnlyStorage node node := ⟨node.storage, rfl⟩

theorem OnlyStorage.trans {first second third : BagRecorderNode}
    (hfirst : OnlyStorage first second) (hsecond : OnlyStorage second third) :
    OnlyStorage first third := by
  obtain ⟨_, rfl⟩ := hfirst
  obtain ⟨storage, rfl⟩ := hsecond
  exact ⟨storage, rfl⟩

theorem OnlyStorage.control_eq {before after : BagRecorderNode}
    (honly : OnlyStorage before after) : after.control = before.control := by
  obtain ⟨_, rfl⟩ := honly
  rfl

theorem ensureStorageDir_onlyStorage (answers : Answers) (node : BagRecorderNode) :
    OnlyStorage node (node.ensureStorageDir answers) := by
  unfold ensureStorageDir
  split
  next => exact OnlyStorage.refl node
  next =>
    split
    · exact ⟨_, rfl⟩
    · exact OnlyStorage.refl node

theorem removeDirs_onlyStorage (answers : Answers) (names : List String)
    (node : BagRecorderNode) : OnlyStorage node (names.foldl (removeDir answers) node) := by
  induction names generalizing node with
  | nil => exact OnlyStorage.refl node
  | cons name rest ih =>
      have hhead : OnlyStorage node (node.removeDir answers name) := by
        unfold removeDir
        split
        · exact OnlyStorage.refl node
        · exact ⟨_, rfl⟩
      exact hhead.trans (ih _)

theorem cleanupOldBags_onlyStorage (answers : Answers) (node : BagRecorderNode) :
    OnlyStorage node (node.cleanupOldBags answers) := by
  unfold cleanupOldBags
  split
  · exact OnlyStorage.refl node
  · dsimp only
    split
    · exact ensureStorageDir_onlyStorage answers node
    · exact (ensureStorageDir_onlyStorage answers node).trans (removeDirs_onlyStorage answers _ _)

/-- A check does nothing, or cleans up, after which it may stop the recording. -/
theorem diskCheckCb_cases (answers : Answers) (node : BagRecorderNode) :
    node.diskCheckCb answers = node ∨
      ∃ dirs links removed left,
        dirs = (if answers.opendirFails then [] else node.inactiveSlices answers) ∧
        links = (if answers.opendirFails then [] else node.strayLinks answers) ∧
        removed = (node.selectOldest dirs answers.freeMb.tail).1 ∧
        left = (links ++ removed).foldl (removeDir answers)
          (node.record (.cleaned dirs removed)) ∧
        (node.diskCheckCb answers = left ∨ node.diskCheckCb answers =
          { left with recording := false }.stopRotationTimer.closeWriter.scheduleRetry) := by
  unfold diskCheckCb
  dsimp only
  split
  next => exact Or.inl rfl
  next =>
    split
    next => exact Or.inl rfl
    next =>
      split
      next => exact Or.inl rfl
      next =>
        generalize (if answers.opendirFails then [] else node.inactiveSlices answers) = dirs
        generalize (if answers.opendirFails then [] else node.strayLinks answers) = links
        refine Or.inr ⟨dirs, links, _, _, rfl, rfl, rfl, rfl, ?_⟩
        split
        next => exact Or.inr rfl
        next => exact Or.inl rfl

theorem prepareBoot_onlyStorage (answers : Answers) (node : BagRecorderNode) :
    OnlyStorage node (node.prepareBoot answers) :=
  (ensureStorageDir_onlyStorage answers node).trans (cleanupOldBags_onlyStorage answers _)

end BagRecorderNode

/-! ## What a `try` block keeps -/

section Keeps

variable {α : Type} (read : BagRecorderNode → α) {result : Exit × BagRecorderNode}

theorem andThen_keeps {next : BagRecorderNode → Exit × BagRecorderNode}
    (hnext : ∀ node, read (next node).2 = read node) :
    read (andThen result next).2 = read result.2 := by
  obtain ⟨exit, node⟩ := result
  cases exit with
  | returned => exact hnext node
  | threw => rfl

theorem tryCatch_keeps {handler : BagRecorderNode → BagRecorderNode}
    (hhandler : ∀ node, read (handler node) = read node) :
    read (tryCatch result handler) = read result.2 := by
  obtain ⟨exit, node⟩ := result
  cases exit with
  | returned => rfl
  | threw => exact hhandler node

end Keeps

/-! ## Opening a bag -/

/-- `open_new_bag` has returned and `recording_` has been set. -/
structure Opened (before after : BagRecorderNode) : Prop where
  cfg : after.cfg = before.cfg
  armed : after.armed = before.armed
  recording : after.recording = true
  writer : ∃ writer, after.writer = some writer ∧ writer.isOpen = true ∧
    after.currentBagPath = writer.uri ∧ after.currentBagPath ≠ ""
  log : LogSound after

theorem BagRecorderNode.fullPath_ne_empty (node : BagRecorderNode) (name : String) :
    node.fullPath name ≠ "" := by
  intro hempty
  have hlength := congrArg (fun path => path.toList.length) hempty
  simp [fullPath] at hlength

section OpenAndRecord

variable {localtime : Int → Option Tm} {answers : Answers} {node : BagRecorderNode}

/-- The log stays sound up to any point of `open_new_bag`. -/
theorem LogSound.openNewBag (hsound : LogSound node) :
    LogSound (node.openNewBag localtime answers).2 := by
  have hchosen : LogSound (node.chooseName localtime answers) := by
    have hassigned : LogSound { node with
        currentBagStart := node.bagStart answers
        currentBagPath := node.fullPath (node.bagName localtime answers) } :=
      hsound.of_same rfl rfl rfl
    exact hassigned.record (fun _ hevent => by cases hevent) trivial
  unfold BagRecorderNode.openNewBag
  dsimp only
  split
  next => exact hsound.of_same rfl rfl rfl
  next => exact hsound.of_same rfl rfl rfl
  next => exact hchosen
  next => exact hchosen.createWriter
  next => exact hchosen.createWriter.of_same rfl rfl rfl
  next => exact hchosen.createWriter.of_same rfl rfl rfl
  next => exact hchosen.createWriter.of_same rfl rfl rfl

theorem openNewBag_returns_iff :
    (node.openNewBag localtime answers).1 = .returned ↔ answers.fault = none := by
  unfold BagRecorderNode.openNewBag
  dsimp only
  split <;> simp_all

/-- A bag that has been opened is at the path of its name. -/
theorem openNewBag_writer (localtime : Int → Option Tm) (node : BagRecorderNode)
    (hfault : answers.fault = none) :
    ∃ id, (node.openNewBag localtime answers).2.writer =
        some ⟨id, node.fullPath (node.bagName localtime answers), true⟩ ∧
      (node.openNewBag localtime answers).2.currentBagPath =
        node.fullPath (node.bagName localtime answers) := by
  have hpath : (node.chooseName localtime answers).createWriter.currentBagPath =
      node.fullPath (node.bagName localtime answers) :=
    BagRecorderNode.resetWriter_path
  -- The new writer is for the path just chosen, and `open` only marks it.
  have hwriter : ∃ id, (node.chooseName localtime answers).createWriter.writer =
      some ⟨id, (node.chooseName localtime answers).createWriter.currentBagPath, false⟩ :=
    ⟨_, rfl⟩
  obtain ⟨id, hwriter⟩ := hwriter
  unfold BagRecorderNode.openNewBag
  simp only [hfault]
  refine ⟨id, ?_, hpath⟩
  rw [hpath] at hwriter
  simp only [BagRecorderNode.markOpen, BagRecorderNode.createSlice, hwriter, Option.map_some]

/-- Without a fault the bag is open and recorded to. -/
theorem openAndRecord (localtime : Int → Option Tm) (hsound : LogSound node)
    (hfault : answers.fault = none) :
    ∃ after, andThen (node.openNewBag localtime answers) BagRecorderNode.startRecording =
      (.returned, after) ∧ Opened node after ∧ after.rotationTimer = node.rotationTimer := by
  obtain ⟨id, hwriter, hpath⟩ := openNewBag_writer localtime node hfault
  have hreturned : (node.openNewBag localtime answers).1 = .returned :=
    openNewBag_returns_iff.mpr hfault
  have hlog : LogSound (node.openNewBag localtime answers).2 := hsound.openNewBag
  have hcontrol : (node.openNewBag localtime answers).2.control = node.control :=
    BagRecorderNode.openNewBag_control
  generalize node.openNewBag localtime answers = result at *
  obtain ⟨exit, opened⟩ := result
  obtain rfl : exit = .returned := hreturned
  simp only [BagRecorderNode.control, Prod.mk.injEq] at hcontrol
  refine ⟨_, rfl, ⟨hcontrol.1, hcontrol.2.1, rfl, ⟨_, hwriter, rfl, hpath, ?_⟩,
    hlog.of_same rfl rfl rfl⟩, hcontrol.2.2.2.1⟩
  show opened.currentBagPath ≠ ""
  rw [hpath]
  exact node.fullPath_ne_empty _

/-- With a fault the block is left before `recording_` is set. -/
theorem openAndRecord_throws (localtime : Int → Option Tm) (hsound : LogSound node)
    (hfault : answers.fault ≠ none) :
    ∃ after, andThen (node.openNewBag localtime answers) BagRecorderNode.startRecording =
      (.threw, after) ∧ after.control = node.control ∧ LogSound after := by
  refine ⟨(node.openNewBag localtime answers).2, ?_, BagRecorderNode.openNewBag_control,
    hsound.openNewBag⟩
  unfold BagRecorderNode.openNewBag
  dsimp only
  split
  next => rfl
  next => rfl
  next => rfl
  next => rfl
  next => rfl
  next => rfl
  next hnone => exact absurd hnone hfault

end OpenAndRecord

/-! ## Closing a bag -/

namespace BagRecorderNode

variable {node : BagRecorderNode}

@[simp] theorem resetWriter_writer : node.resetWriter.writer = none := by
  unfold resetWriter
  split
  next hnone => exact hnone
  next => rfl

/-- The writer has gone, and nothing else has changed. -/
structure Closed (before after : BagRecorderNode) : Prop where
  control : after.control = before.control
  writer : after.writer = none
  path : after.currentBagPath = ""
  log : LogSound after

section Closed

variable {before after : BagRecorderNode} (h : Closed before after)

include h

theorem Closed.cfg : after.cfg = before.cfg := congrArg (·.1) h.control

theorem Closed.armed : after.armed = before.armed := congrArg (·.2.1) h.control

theorem Closed.recording : after.recording = before.recording := congrArg (·.2.2.1) h.control

end Closed

theorem closed_resetWriter (hlog : LogSound node) :
    Closed node { node.resetWriter with currentBagPath := "" } where
  control := resetWriter_control
  writer := resetWriter_writer
  path := rfl
  log := hlog.resetWriter.of_same rfl rfl rfl

theorem closed_closeWriter (hlog : LogSound node)
    (habsent : node.writer = none → node.currentBagPath = "") : Closed node node.closeWriter := by
  unfold closeWriter
  split
  next hnone => exact ⟨rfl, hnone, habsent hnone, hlog⟩
  next => exact closed_resetWriter hlog

/-- Closing keeps what the log says, and says whose writer it was. -/
theorem closeWriter_closes (node : BagRecorderNode) :
    node.closeWriter.writer = none ∧ node.log <:+ node.closeWriter.log ∧
      ∀ writer, node.writer = some writer → .closed writer.id ∈ node.closeWriter.log := by
  unfold closeWriter resetWriter
  cases hwriter : node.writer with
  | none =>
      rw [if_pos rfl]
      exact ⟨hwriter, List.suffix_rfl, fun _ hsome => (by cases hsome)⟩
  | some writer =>
      rw [if_neg (Option.some_ne_none writer)]
      refine ⟨rfl, List.suffix_cons _ _, ?_⟩
      intro other hother
      cases hother
      exact List.mem_cons_self

/-- The creation of the rotation timer would throw. -/
def TimerThrows (answers : Answers) (node : BagRecorderNode) : Prop :=
  0 < node.cfg.rotationIntervalSec ∧ node.rotationTimer = false ∧
    answers.rotationTimerThrows = true

instance (answers : Answers) (node : BagRecorderNode) : Decidable (node.TimerThrows answers) :=
  inferInstanceAs (Decidable (_ ∧ _ ∧ _))

theorem startRotationTimer_cases (answers : Answers) (node : BagRecorderNode) :
    (∃ rotationTimer, startRotationTimer answers node =
        (.returned, { node with rotationTimer })) ∨
      startRotationTimer answers node = (.threw, node) ∧ node.TimerThrows answers := by
  unfold startRotationTimer
  split
  next => exact Or.inl ⟨node.rotationTimer, rfl⟩
  next hinterval =>
    split
    next => exact Or.inl ⟨node.rotationTimer, rfl⟩
    next hunset =>
      split
      next hthrows => exact Or.inr ⟨rfl, Int.not_le.mp hinterval, by simpa using hunset, hthrows⟩
      next => exact Or.inl ⟨true, rfl⟩

/-- The node is meant to record. -/
def ShouldRecord (node : BagRecorderNode) : Prop :=
  node.cfg.armRecordEnabled = false ∨ node.armed = true

instance (node : BagRecorderNode) : Decidable node.ShouldRecord :=
  inferInstanceAs (Decidable (_ ∨ _))

end BagRecorderNode

/-! ## The invariant -/

/-- Between callbacks. -/
structure Consistent (node : BagRecorderNode) : Prop where
  idle : node.recording = false → node.writer = none ∧ node.currentBagPath = ""
  active : node.recording = true → ∃ writer, node.writer = some writer ∧ writer.isOpen = true ∧
    node.currentBagPath = writer.uri ∧ node.currentBagPath ≠ ""
  allowed : node.recording = true → node.ShouldRecord
  pending : node.recording = false → node.ShouldRecord → node.retryTimer = true
  log : LogSound node

namespace Consistent

variable {node before after : BagRecorderNode}

theorem absent (h : Consistent node) (hnone : node.writer = none) : node.currentBagPath = "" := by
  cases hrecording : node.recording with
  | false => exact (h.idle hrecording).2
  | true =>
      obtain ⟨writer, hwriter, _⟩ := h.active hrecording
      rw [hnone] at hwriter
      cases hwriter

/-- A bag has been opened, and timers may have been set or cancelled since. -/
theorem of_opened (hopened : Opened before after) (hallowed : before.ShouldRecord)
    (rotationTimer retryTimer : Bool) :
    Consistent { after with rotationTimer, retryTimer } where
  idle hidle := absurd (hidle.symm.trans hopened.recording) Bool.false_ne_true
  active _ := hopened.writer
  allowed _ := by
    unfold BagRecorderNode.ShouldRecord at hallowed ⊢
    rwa [hopened.cfg, hopened.armed]
  pending hidle := absurd (hidle.symm.trans hopened.recording) Bool.false_ne_true
  log := hopened.log.of_same rfl rfl rfl

theorem of_onlyStorage (h : Consistent before)
    (honly : BagRecorderNode.OnlyStorage before after) : Consistent after := by
  obtain ⟨storage, rfl⟩ := honly
  exact ⟨h.idle, h.active, h.allowed, h.pending, h.log.of_same rfl rfl rfl⟩

/-- The writer has gone and the flag with it. -/
theorem of_closed (hwriter : node.writer = none) (hpath : node.currentBagPath = "")
    (hrecording : node.recording = false) (hpending : node.ShouldRecord → node.retryTimer = true)
    (hlog : LogSound node) : Consistent node where
  idle _ := ⟨hwriter, hpath⟩
  active hactive := by
    rw [hrecording] at hactive
    cases hactive
  allowed hactive := by
    rw [hrecording] at hactive
    cases hactive
  pending _ := hpending
  log := hlog

end Consistent

/-! ## Callbacks -/

section Callbacks

variable {localtime : Int → Option Tm} {answers : Answers} {node : BagRecorderNode}

/-- Restarting after a failed opening is left to the retry timer. -/
theorem consistent_of_failed (hlog : LogSound node) :
    Consistent { node.resetWriter with currentBagPath := "", recording := false }.scheduleRetry :=
  have hclosed := BagRecorderNode.closed_resetWriter hlog
  Consistent.of_closed hclosed.writer rfl rfl (fun _ => rfl) (hclosed.log.of_same rfl rfl rfl)

/-- A `try` block that opens a bag, records to it and sets the rotation timer, under a handler
that copes with a failure at any point. -/
theorem tryRecording_consistent (hlog : LogSound node) (hshould : node.ShouldRecord)
    {handler : BagRecorderNode → BagRecorderNode}
    (hhandler : ∀ failed, LogSound failed → Consistent (handler failed)) :
    Consistent (tryCatch (andThen (andThen (node.openNewBag localtime answers)
      BagRecorderNode.startRecording) (BagRecorderNode.startRotationTimer answers)) handler) := by
  by_cases hfault : answers.fault = none
  · obtain ⟨after, hblock, hopened, _⟩ := openAndRecord localtime hlog hfault
    rw [hblock]
    rcases after.startRotationTimer_cases answers with ⟨set, hstart⟩ | ⟨hstart, _⟩
    · rw [show andThen (.returned, after) (BagRecorderNode.startRotationTimer answers) =
        (.returned, { after with rotationTimer := set }) from hstart]
      exact Consistent.of_opened hopened hshould set after.retryTimer
    · rw [show andThen (.returned, after) (BagRecorderNode.startRotationTimer answers) =
        (.threw, after) from hstart]
      exact hhandler after hopened.log
  · obtain ⟨after, hblock, _, hafter⟩ := openAndRecord_throws localtime hlog hfault
    rw [hblock]
    exact hhandler after hafter

theorem rotateBag_consistent (h : Consistent node) :
    Consistent (node.rotateBag localtime answers) := by
  unfold BagRecorderNode.rotateBag
  split
  next => exact h
  next hactive =>
    have hrecording : node.recording = true := by simpa using hactive
    split
    next => exact h
    next =>
      have hclosed := BagRecorderNode.closed_closeWriter h.log h.absent
      have hallowed : node.closeWriter.ShouldRecord := by
        have hnode := h.allowed hrecording
        unfold BagRecorderNode.ShouldRecord at hnode ⊢
        rwa [hclosed.cfg, hclosed.armed]
      dsimp only
      split
      next hdisarmed =>
        -- A callback runs alone, so nobody has disarmed meanwhile.
        rcases hallowed with hmode | harmed
        · rw [hmode] at hdisarmed
          cases hdisarmed.1
        · rw [harmed] at hdisarmed
          cases hdisarmed.2
      next =>
        by_cases hfault : answers.fault = none
        · obtain ⟨after, hblock, hopened, _⟩ := openAndRecord localtime hclosed.log hfault
          rw [hblock]
          exact Consistent.of_opened hopened hallowed after.rotationTimer after.retryTimer
        · obtain ⟨after, hblock, _, hlog⟩ := openAndRecord_throws localtime hclosed.log hfault
          rw [hblock]
          exact consistent_of_failed hlog

/-- The disk query of `retry_open_bag` does not defer the retry. -/
def HasSpace (answers : Answers) (node : BagRecorderNode) : Prop :=
  ¬ (0 ≤ answers.freeMb.headD (-1) ∧
    answers.freeMb.headD (-1) < node.cfg.minRecordingFreeSpaceMb)

instance (answers : Answers) (node : BagRecorderNode) : Decidable (HasSpace answers node) :=
  inferInstanceAs (Decidable (¬ _))

/-- A firing of the retry timer that would open a bag and then fail to set the rotation
timer. -/
def RetryThrows (answers : Answers) (node : BagRecorderNode) : Prop :=
  node.recording = false ∧ node.ShouldRecord ∧ answers.fault = none ∧ HasSpace answers node ∧
    node.TimerThrows answers

instance (answers : Answers) (node : BagRecorderNode) : Decidable (RetryThrows answers node) :=
  inferInstanceAs (Decidable (_ ∧ _ ∧ _ ∧ _ ∧ _))

theorem not_disarmed_iff :
    ¬ (node.cfg.armRecordEnabled = true ∧ node.armed = false) ↔ node.ShouldRecord := by
  unfold BagRecorderNode.ShouldRecord
  cases node.cfg.armRecordEnabled <;> cases node.armed <;> simp

/-- A retry that finds nothing in its way opens a bag. -/
theorem retryOpenBag_opens (localtime : Int → Option Tm) (hlog : LogSound node)
    (hidle : node.recording = false) (hshould : node.ShouldRecord)
    (hfault : answers.fault = none) (hspace : HasSpace answers node)
    (hset : ¬ node.TimerThrows answers) :
    ∃ after set, node.retryOpenBag localtime answers =
      { after with rotationTimer := set, retryTimer := false } ∧ Opened node after := by
  obtain ⟨after, hblock, hopened, htimer⟩ := openAndRecord localtime hlog hfault
  unfold BagRecorderNode.retryOpenBag
  rw [if_neg (by simp [hidle]), if_neg (not_disarmed_iff.mpr hshould), if_neg hspace, hblock]
  rcases after.startRotationTimer_cases answers with ⟨set, hstart⟩ | ⟨_, hthrows⟩
  · rw [show andThen (.returned, after) (BagRecorderNode.startRotationTimer answers) =
      (.returned, { after with rotationTimer := set }) from hstart]
    exact ⟨after, set, rfl, hopened⟩
  · unfold BagRecorderNode.TimerThrows at hthrows
    rw [hopened.cfg, htimer] at hthrows
    exact absurd hthrows hset

theorem retryOpenBag_consistent (h : Consistent node) (hretry : node.retryTimer = true)
    (hset : ¬ RetryThrows answers node) : Consistent (node.retryOpenBag localtime answers) := by
  cases hrecording : node.recording with
  | true =>
      -- Somebody else has recovered the recording, and the timer is cancelled.
      unfold BagRecorderNode.retryOpenBag
      rw [if_pos hrecording]
      exact {
        idle := h.idle
        active := h.active
        allowed := h.allowed
        pending := fun hidle => absurd (hidle.symm.trans hrecording) Bool.false_ne_true
        log := h.log.of_same rfl rfl rfl }
  | false =>
      obtain ⟨hwriter, hpath⟩ := h.idle hrecording
      by_cases hshould : node.ShouldRecord
      · by_cases hspace : HasSpace answers node
        · by_cases hfault : answers.fault = none
          · obtain ⟨after, set, hopens, hopened⟩ := retryOpenBag_opens localtime h.log hrecording
              hshould hfault hspace fun hthrows =>
                hset ⟨hrecording, hshould, hfault, hspace, hthrows⟩
            rw [hopens]
            exact Consistent.of_opened hopened hshould set false
          · -- The handler keeps the retry timer, and the flag was not yet set.
            obtain ⟨after, hblock, hcontrol, hlog⟩ := openAndRecord_throws localtime h.log hfault
            unfold BagRecorderNode.retryOpenBag
            rw [if_neg (by simp [hrecording]), if_neg (not_disarmed_iff.mpr hshould),
              if_neg hspace, hblock]
            have hclosed := BagRecorderNode.closed_resetWriter hlog
            have hkept := hclosed.control.trans hcontrol
            simp only [BagRecorderNode.control, Prod.mk.injEq] at hkept
            exact Consistent.of_closed hclosed.writer rfl (hkept.2.2.1.trans hrecording)
              (fun _ => hkept.2.2.2.2.trans hretry) hclosed.log
        · -- The retry is deferred, with its timer set.
          unfold BagRecorderNode.retryOpenBag
          rw [if_neg (by simp [hrecording]), if_neg (not_disarmed_iff.mpr hshould),
            if_pos (not_not.mp hspace)]
          exact h
      · unfold BagRecorderNode.retryOpenBag
        rw [if_neg (by simp [hrecording]),
          if_pos (not_not.mp fun hnot => hshould (not_disarmed_iff.mp hnot))]
        exact Consistent.of_closed hwriter hpath hrecording
          (fun hshould' => absurd hshould' hshould)
          (h.log.of_same rfl rfl rfl)

theorem prepareArm_onlyStorage (answers : Answers) (hwriter : node.writer = none) :
    BagRecorderNode.OnlyStorage { node with armed := true } (node.prepareArm answers) := by
  unfold BagRecorderNode.prepareArm
  obtain ⟨storage, hensured⟩ :=
    BagRecorderNode.ensureStorageDir_onlyStorage answers { node with armed := true }
  have hclosed : BagRecorderNode.closeWriter { node with armed := true, storage } =
      { node with armed := true, storage } := by
    unfold BagRecorderNode.closeWriter
    rw [if_pos hwriter]
  rw [hensured, hclosed]
  have hopen : BagRecorderNode.OnlyStorage { node with armed := true }
      { node with armed := true, storage } := ⟨storage, rfl⟩
  exact hopen.trans (BagRecorderNode.cleanupOldBags_onlyStorage answers _)

theorem prepareArm_control :
    (node.prepareArm answers).control =
      BagRecorderNode.control { node with armed := true } := by
  unfold BagRecorderNode.prepareArm
  rw [(BagRecorderNode.cleanupOldBags_onlyStorage answers _).control_eq,
    BagRecorderNode.closeWriter_control,
    (BagRecorderNode.ensureStorageDir_onlyStorage answers _).control_eq]

/-- Arming: an exception takes back the flag `armed_` as well. -/
theorem arm_consistent (h : Consistent node) (hmode : node.cfg.armRecordEnabled = true) :
    Consistent (node.armStateCb localtime answers true) := by
  unfold BagRecorderNode.armStateCb
  rw [if_pos rfl]
  split
  next => exact h
  next hdisarmed =>
    have hidle : node.recording = false := by
      by_contra hactive
      rcases h.allowed (by simpa using hactive) with halways | harmed
      · rw [hmode] at halways
        cases halways
      · exact hdisarmed harmed
    obtain ⟨storage, hprepared⟩ := prepareArm_onlyStorage answers (h.idle hidle).1
    dsimp only
    rw [hprepared]
    have hlog : LogSound { node with armed := true, storage } := h.log.of_same rfl rfl rfl
    have harmed : ({ node with armed := true, storage } : BagRecorderNode).armed = true := rfl
    generalize ({ node with armed := true, storage } : BagRecorderNode) = prepared at *
    split
    next hunarmed => exact absurd (hunarmed.symm.trans harmed) Bool.false_ne_true
    next =>
      apply tryRecording_consistent hlog (Or.inr harmed)
      intro failed hfailed
      have hclosed := BagRecorderNode.closed_resetWriter hfailed
      exact Consistent.of_closed hclosed.writer rfl rfl (fun _ => rfl)
        (hclosed.log.of_same rfl rfl rfl)

theorem disarm_consistent (h : Consistent node) (hmode : node.cfg.armRecordEnabled = true) :
    Consistent (node.armStateCb localtime answers false) := by
  unfold BagRecorderNode.armStateCb
  rw [if_neg Bool.false_ne_true]
  split
  next => exact h
  next =>
    dsimp only
    rw [if_pos hmode]
    have hlog : LogSound (BagRecorderNode.stopRotationTimer
        { node with armed := false, recording := false }) := h.log.of_same rfl rfl rfl
    have hclosed := BagRecorderNode.closed_closeWriter hlog h.absent
    apply Consistent.of_closed hclosed.writer hclosed.path hclosed.recording ?_ hclosed.log
    intro hshould
    unfold BagRecorderNode.ShouldRecord at hshould
    rw [hclosed.cfg, hclosed.armed] at hshould
    rcases hshould with halways | harmed
    · exact absurd (halways.symm.trans hmode) Bool.false_ne_true
    · cases harmed

theorem diskCheckCb_consistent (h : Consistent node) :
    Consistent (node.diskCheckCb answers) := by
  rcases node.diskCheckCb_cases answers with
    hidle | ⟨dirs, links, removed, left, _, _, _, hleft, hchecked⟩
  · rwa [hidle]
  · have hcleaned : Consistent (node.record (.cleaned dirs removed)) :=
      ⟨h.idle, h.active, h.allowed, h.pending,
        h.log.record (fun _ hevent => by cases hevent) trivial⟩
    have hremoved := hcleaned.of_onlyStorage
      (BagRecorderNode.removeDirs_onlyStorage answers (links ++ removed) _)
    rw [← hleft] at hremoved
    rcases hchecked with hkept | hstopped
    · rwa [hkept]
    · have hlog : LogSound (BagRecorderNode.stopRotationTimer
          { left with recording := false }) := hremoved.log.of_same rfl rfl rfl
      have hclosed := BagRecorderNode.closed_closeWriter hlog hremoved.absent
      rw [hstopped]
      exact Consistent.of_closed hclosed.writer hclosed.path hclosed.recording (fun _ => rfl)
        (hclosed.log.of_same rfl rfl rfl)

theorem writeMessage_consistent (h : Consistent node) (topic : String) :
    Consistent (node.writeMessage topic) := by
  unfold BagRecorderNode.writeMessage
  split
  next =>
    exact ⟨h.idle, h.active, h.allowed, h.pending,
      h.log.record (fun _ hevent => by cases hevent) trivial⟩
  next writer hwriter =>
    exact ⟨h.idle, h.active, h.allowed, h.pending,
      h.log.record (fun _ hevent => by cases hevent) (h.log.current writer hwriter).2⟩

theorem boot_consistent (hlog : LogSound node) :
    Consistent (BagRecorderNode.boot localtime answers node) := by
  unfold BagRecorderNode.boot
  apply Consistent.of_onlyStorage ?_ (BagRecorderNode.ensureStorageDir_onlyStorage answers _)
  have hfresh : LogSound node.restarted :=
    ⟨hlog.closed, fun _ hcurrent => (by cases hcurrent), hlog.wrote⟩
  dsimp only
  split
  next hmode =>
    apply Consistent.of_closed rfl rfl rfl ?_ hfresh
    intro hshould
    rcases hshould with halways | harmed
    · exact absurd (halways.symm.trans hmode) Bool.false_ne_true
    · cases harmed
  next hmode =>
    obtain ⟨storage, hprepared⟩ := node.restarted.prepareBoot_onlyStorage answers
    rw [hprepared]
    have hlog : LogSound { node.restarted with storage } := hfresh.of_same rfl rfl rfl
    have hshould : BagRecorderNode.ShouldRecord { node.restarted with storage } :=
      Or.inl (by simpa using hmode)
    exact tryRecording_consistent hlog hshould fun _ => consistent_of_failed

end Callbacks

/-! ## Runs -/

/-- The step fires the retry timer, which opens a bag and then fails to set the rotation
timer. -/
def RetryThrowsAt (node : BagRecorderNode) (label : Label) : Prop :=
  label.request = .retry ∧ node.retryTimer = true ∧ RetryThrows label.answers node

instance (node : BagRecorderNode) (label : Label) : Decidable (RetryThrowsAt node label) :=
  inferInstanceAs (Decidable (_ ∧ _ ∧ _))

theorem step_consistent {localtime : Int → Option Tm} {node : BagRecorderNode} {label : Label}
    (h : Consistent node) (hset : ¬ RetryThrowsAt node label) :
    Consistent (step localtime node label) := by
  unfold step
  cases hrequest : label.request with
  | state armed =>
      dsimp only
      split
      next hmode =>
        cases armed with
        | true => exact arm_consistent h hmode
        | false => exact disarm_consistent h hmode
      next => exact h
  | rotate =>
      dsimp only
      split
      next => exact rotateBag_consistent h
      next => exact h
  | retry =>
      dsimp only
      split
      next hretry =>
        exact retryOpenBag_consistent h hretry fun hthrows => hset ⟨hrequest, hretry, hthrows⟩
      next => exact h
  | diskCheck => exact diskCheckCb_consistent h
  | message topic => exact writeMessage_consistent h topic
  | reboot => exact boot_consistent h.log
  | outside storage => exact h.of_onlyStorage ⟨storage, rfl⟩

theorem run_consistent (localtime : Int → Option Tm) (cfg : Config) (storage : Option Storage)
    (answers : Answers) (labels : List Label)
    (hlabels : EveryStep (step localtime) (fun node label => ¬ RetryThrowsAt node label)
      (initial localtime cfg storage answers) labels) :
    Consistent (run (step localtime) (initial localtime cfg storage answers) labels) := by
  apply run_keeps (step localtime) Consistent (fun _ _ => step_consistent) ?_ hlabels
  apply boot_consistent
  exact ⟨fun _ hclosed => absurd hclosed List.not_mem_nil, fun _ hcurrent => (by cases hcurrent),
    trivial⟩

/-- What the flag `recording_` stands for, and where messages go. -/
structure RecordsConsistently (localtime : Int → Option Tm) (node : BagRecorderNode) : Prop where
  recording : node.recording = true ↔ ∃ writer, node.writer = some writer ∧
    writer.isOpen = true ∧ node.currentBagPath = writer.uri ∧ node.currentBagPath ≠ ""
  armed : node.cfg.armRecordEnabled = true → node.recording = true → node.armed = true
  absent : node.writer = none → node.currentBagPath = ""
  passed : node.recording = true → ∀ topic answers, ∃ writer, node.writer = some writer ∧
    writer.uri = node.currentBagPath ∧
    (step localtime node ⟨.message topic, answers⟩).log =
      .wrote writer.id writer.uri topic :: node.log
  unclosed : ∀ later writer uri topic earlier,
    node.log = later ++ .wrote writer uri topic :: earlier → .closed writer ∉ earlier

theorem Consistent.recordsConsistently {node : BagRecorderNode} (h : Consistent node)
    (localtime : Int → Option Tm) : RecordsConsistently localtime node where
  recording := by
    constructor
    · exact h.active
    · rintro ⟨writer, hwriter, _⟩
      by_contra hidle
      rw [(h.idle (by simpa using hidle)).1] at hwriter
      cases hwriter
  armed hmode hactive := by
    rcases h.allowed hactive with halways | harmed
    · exact absurd (halways.symm.trans hmode) Bool.false_ne_true
    · exact harmed
  absent := h.absent
  passed hactive topic answers := by
    obtain ⟨writer, hwriter, _, huri, _⟩ := h.active hactive
    refine ⟨writer, hwriter, huri.symm, ?_⟩
    simp only [step, BagRecorderNode.writeMessage, hwriter, BagRecorderNode.record]
  unclosed later writer uri topic earlier hlog := by
    have hwrote := h.log.wrote
    rw [hlog] at hwrote
    exact hwrote.at

/-- In every run in which nothing but `open_new_bag` throws in `retry_open_bag`. -/
theorem run_recordsConsistently (localtime : Int → Option Tm) (cfg : Config)
    (storage : Option Storage) (answers : Answers) (labels : List Label)
    (hlabels : ∀ label ∈ labels, label.request = .retry →
      label.answers.rotationTimerThrows = false) :
    RecordsConsistently localtime
      (run (step localtime) (initial localtime cfg storage answers) labels) := by
  apply Consistent.recordsConsistently
  apply run_consistent
  have hset := everyStep_of_forall (step localtime) hlabels (initial localtime cfg storage answers)
  apply hset.mono
  rintro node label hlabel ⟨hretry, _, _, _, _, _, _, _, hthrows⟩
  rw [hlabel hretry] at hthrows
  cases hthrows

/-- `localtime_r` in UTC on the first day of the epoch. -/
def epochDay (t : Int) : Option Tm :=
  if 0 ≤ t ∧ t < 86400 then
    some ⟨70, 0, 1, t / 3600, t / 60 % 60, t % 60⟩
  else none

/-- A flight with a rotation that fails to open the next slice and a retry that succeeds. -/
def flight : List Label :=
  [⟨.state true, { time := 1000, createdAt := 1000 }⟩, ⟨.message "/odin1/imu", {}⟩,
    ⟨.rotate, { time := 1300, fault := some (.opening false) }⟩, ⟨.message "/odin1/imu", {}⟩,
    ⟨.retry, { time := 1305, createdAt := 1305, freeMb := [9000] }⟩,
    ⟨.message "/odin1/imu", {}⟩, ⟨.state false, {}⟩]

theorem recordsConsistently_flight :
    RecordsConsistently epochDay (run (step epochDay) (initial epochDay {} none {}) flight) :=
  run_recordsConsistently epochDay {} none {} flight (by decide)

end AcflyRos.BagLogd
