import AcflyRos.BagLogd.Sweep

/-! # The active slice is never deleted

Whenever there is a writer, `current_bag_path_` is its path and a slice of the storage
directory. The scans compare that path with those of the entries, which are names, so
what they delete is neither the active slice nor inside it nor around it.
-/

namespace AcflyRos.BagLogd

open AcflyRos.Transition AcflyRos.Paths

theorem IsSlice.isName {name : String} (hname : IsSlice name) : IsName name where
  unslashed hslash := by
    rcases hname.isSliceChar hslash with hdigit | hminus | hscore
    · exact absurd hdigit (by decide)
    · cases hminus
    · cases hscore
  nonempty := hname.ne_empty
  notSelf := by
    rintro rfl
    have hdot : IsSliceChar '.' := hname.isSliceChar (by decide)
    unfold IsSliceChar at hdot
    revert hdot
    decide

/-- A writer writes to the current slice. -/
def Pathed (node : BagRecorderNode) : Prop :=
  ∀ writer, node.writer = some writer →
    node.currentBagPath = writer.uri ∧ ∃ name, IsSlice name ∧ writer.uri = node.fullPath name

namespace Pathed

variable {localtime : Int → Option Tm} {answers : Answers} {node after : BagRecorderNode}

theorem of_absent (hwriter : node.writer = none) : Pathed node := by
  intro writer hsome
  rw [hwriter] at hsome
  cases hsome

theorem of_same (h : Pathed node) (hcfg : after.cfg = node.cfg)
    (hwriter : after.writer = node.writer) (hpath : after.currentBagPath = node.currentBagPath) :
    Pathed after := by
  intro writer hsome
  rw [hwriter] at hsome
  rw [hpath, show after.fullPath = node.fullPath by unfold BagRecorderNode.fullPath; rw [hcfg]]
  exact h writer hsome

theorem of_onlyStorage (h : Pathed node) (honly : BagRecorderNode.OnlyStorage node after) :
    Pathed after := by
  obtain ⟨storage, rfl⟩ := honly
  exact h.of_same rfl rfl rfl

theorem closeWriter (node : BagRecorderNode) : Pathed node.closeWriter := by
  apply of_absent
  unfold BagRecorderNode.closeWriter
  split
  next hnone => exact hnone
  next => exact BagRecorderNode.resetWriter_writer

/-- A bag that has been opened. -/
theorem openNewBag (hreturned : (node.openNewBag localtime answers).1 = .returned) :
    Pathed (node.openNewBag localtime answers).2 := by
  obtain ⟨id, hwriter, hpath⟩ :=
    openNewBag_writer localtime node (openNewBag_returns_iff.mp hreturned)
  have hcontrol : (node.openNewBag localtime answers).2.control = node.control :=
    BagRecorderNode.openNewBag_control
  simp only [BagRecorderNode.control, Prod.mk.injEq] at hcontrol
  intro writer hsome
  obtain rfl := Option.some_inj.mp (hwriter.symm.trans hsome)
  refine ⟨hpath, node.bagName localtime answers, ⟨localtime, _, _, rfl⟩, ?_⟩
  unfold BagRecorderNode.fullPath
  rw [hcontrol.1]

/-- The rest of a `try` block touches neither the writer nor its path. -/
theorem andThen {result : Exit × BagRecorderNode}
    {next : BagRecorderNode → Exit × BagRecorderNode}
    (hresult : result.1 = .returned → Pathed result.2)
    (hnext : ∀ node, Pathed node → Pathed (next node).2)
    (hreturned : (BagLogd.andThen result next).1 = .returned) :
    Pathed (BagLogd.andThen result next).2 := by
  obtain ⟨exit, node⟩ := result
  cases exit with
  | returned => exact hnext node (hresult rfl)
  | threw => cases hreturned

/-- A handler that has let go of the writer. -/
theorem tryCatch {result : Exit × BagRecorderNode} {handler : BagRecorderNode → BagRecorderNode}
    (hresult : result.1 = .returned → Pathed result.2)
    (hhandler : ∀ failed, (handler failed).writer = none) :
    Pathed (BagLogd.tryCatch result handler) := by
  obtain ⟨exit, node⟩ := result
  cases exit with
  | returned => exact hresult rfl
  | threw => exact of_absent (hhandler node)

theorem startRotationTimer (answers : Answers) (h : Pathed node) :
    Pathed (node.startRotationTimer answers).2 := by
  rcases node.startRotationTimer_cases answers with ⟨_, hstart⟩ | ⟨hstart, _⟩
  · rw [hstart]
    exact h.of_same rfl rfl rfl
  · rw [hstart]
    exact h

/-- Opening a bag and recording to it. -/
theorem recording (hreturned : (BagLogd.andThen (node.openNewBag localtime answers)
    BagRecorderNode.startRecording).1 = .returned) :
    Pathed (BagLogd.andThen (node.openNewBag localtime answers)
      BagRecorderNode.startRecording).2 :=
  andThen openNewBag (fun _ h => h.of_same rfl rfl rfl) hreturned

/-- The same with a rotation timer. -/
theorem rotating (hreturned : (BagLogd.andThen (BagLogd.andThen (node.openNewBag localtime answers)
    BagRecorderNode.startRecording) (BagRecorderNode.startRotationTimer answers)).1 = .returned) :
    Pathed (BagLogd.andThen (BagLogd.andThen (node.openNewBag localtime answers)
      BagRecorderNode.startRecording) (BagRecorderNode.startRotationTimer answers)).2 :=
  andThen recording (fun _ h => h.startRotationTimer answers) hreturned

end Pathed

/-! ## Callbacks -/

section Callbacks

variable {localtime : Int → Option Tm} {answers : Answers} {node : BagRecorderNode}

theorem rotateBag_pathed (h : Pathed node) : Pathed (node.rotateBag localtime answers) := by
  unfold BagRecorderNode.rotateBag
  split
  next => exact h
  next =>
    split
    next => exact h
    next =>
      dsimp only
      split
      next => exact Pathed.closeWriter node
      next =>
        exact Pathed.tryCatch Pathed.recording fun _ => BagRecorderNode.resetWriter_writer

theorem retryOpenBag_pathed (h : Pathed node) : Pathed (node.retryOpenBag localtime answers) := by
  unfold BagRecorderNode.retryOpenBag
  split
  next => exact h.of_same rfl rfl rfl
  next =>
    split
    next => exact h.of_same rfl rfl rfl
    next =>
      split
      next => exact h
      next =>
        apply Pathed.tryCatch
        · exact Pathed.andThen Pathed.rotating fun _ h => h.of_same rfl rfl rfl
        · exact fun _ => BagRecorderNode.resetWriter_writer

theorem armStateCb_pathed (h : Pathed node) (armed : Bool) :
    Pathed (node.armStateCb localtime answers armed) := by
  unfold BagRecorderNode.armStateCb
  split
  next =>
    split
    next => exact h
    next =>
      dsimp only
      split
      next =>
        unfold BagRecorderNode.prepareArm
        exact (Pathed.closeWriter _).of_onlyStorage
          (BagRecorderNode.cleanupOldBags_onlyStorage answers _)
      next => exact Pathed.tryCatch Pathed.rotating fun _ => BagRecorderNode.resetWriter_writer
  next =>
    split
    next => exact h
    next => exact Pathed.closeWriter _

theorem diskCheckCb_pathed (h : Pathed node) : Pathed (node.diskCheckCb answers) := by
  rcases node.diskCheckCb_cases answers with
    hidle | ⟨dirs, links, removed, left, _, _, _, hleft, hkept | hstopped⟩
  · rwa [hidle]
  · rw [hkept, hleft]
    have hrecorded : Pathed (node.record (.cleaned dirs removed)) := h.of_same rfl rfl rfl
    exact hrecorded.of_onlyStorage (BagRecorderNode.removeDirs_onlyStorage answers _ _)
  · rw [hstopped]
    exact (Pathed.closeWriter _).of_same rfl rfl rfl

theorem boot_pathed (localtime : Int → Option Tm) (answers : Answers) (node : BagRecorderNode) :
    Pathed (BagRecorderNode.boot localtime answers node) := by
  unfold BagRecorderNode.boot
  apply Pathed.of_onlyStorage ?_ (BagRecorderNode.ensureStorageDir_onlyStorage answers _)
  dsimp only
  split
  next => exact Pathed.of_absent rfl
  next => exact Pathed.tryCatch Pathed.rotating fun _ => BagRecorderNode.resetWriter_writer

end Callbacks

theorem step_pathed (localtime : Int → Option Tm) {node : BagRecorderNode} (label : Label)
    (h : Pathed node) : Pathed (step localtime node label) := by
  unfold step
  cases label.request with
  | state armed =>
      dsimp only
      split
      · exact armStateCb_pathed h armed
      · exact h
  | rotate =>
      dsimp only
      split
      · exact rotateBag_pathed h
      · exact h
  | retry =>
      dsimp only
      split
      · exact retryOpenBag_pathed h
      · exact h
  | diskCheck => exact diskCheckCb_pathed h
  | message topic =>
      dsimp only
      unfold BagRecorderNode.writeMessage
      split <;> exact h.of_same rfl rfl rfl
  | reboot => exact boot_pathed localtime label.answers node
  | outside storage => exact h.of_onlyStorage ⟨storage, rfl⟩

theorem run_pathed (localtime : Int → Option Tm) (cfg : Config) (storage : Option Storage)
    (answers : Answers) (labels : List Label) :
    Pathed (run (step localtime) (initial localtime cfg storage answers) labels) :=
  run_invariant (step localtime) Pathed (fun _ label => step_pathed localtime label) labels
    (boot_pathed localtime answers _)

/-- Also in the middle of a callback, when the scan is made. -/
theorem Pathed.scanState {node : BagRecorderNode} (h : Pathed node) (label : Label) :
    Pathed (BagLogd.scanState node label) := by
  unfold BagLogd.scanState
  split
  next =>
    split
    · exact Pathed.closeWriter _
    · exact h
  next =>
    split
    · exact h
    · have hrestarted : Pathed node.restarted := of_absent rfl
      exact hrestarted.of_onlyStorage
        (BagRecorderNode.ensureStorageDir_onlyStorage label.answers node.restarted)
  next => exact h

/-! ## Deletions -/

/-- If there is a writer, neither scan deletes its directory, anything inside it or a directory
around it. -/
def SparesActive (fails : Call → Bool) (contents : String → List (String × Content))
    (answers : Answers) (node : BagRecorderNode) : Prop :=
  ∀ writer, node.writer = some writer → ∀ deletion,
    deletion ∈ node.cleanupDeletions answers ∨ deletion ∈ node.diskDeletions answers →
      ∀ call ∈ deletion.calls fails contents node,
        ¬ AtOrBelow call.path writer.uri ∧ ¬ AtOrBelow writer.uri call.path

theorem Pathed.sparesActive {node : BagRecorderNode} (h : Pathed node) (fails : Call → Bool)
    (contents : String → List (String × Content)) (answers : Answers)
    (hnames : ∀ entry ∈ node.entries, IsName entry.name) :
    SparesActive fails contents answers node := by
  intro writer hwriter deletion hdeletion call hcall
  obtain ⟨hpath, name, hname, huri⟩ := h writer hwriter
  have htargets : node.Targets deletion := by
    rcases hdeletion with hcleanup | hdisk
    · exact BagRecorderNode.cleanupDeletions_targets hcleanup
    · exact BagRecorderNode.diskDeletions_targets hdisk
  obtain ⟨entry, hentry, _, hinactive, hfound⟩ := htargets.calls hcall
  have hother : entry.name ≠ name := by
    rintro rfl
    exact hinactive (huri.symm.trans hpath.symm)
  have hbelow : AtOrBelow call.path (node.fullPath entry.name) := by
    rcases hfound with ⟨_, hfinds⟩ | ⟨_, _, rfl⟩
    · exact hfinds.atOrBelow
    · exact AtOrBelow.refl _
  rw [huri]
  exact AtOrBelow.not_sibling (hnames entry hentry) hname.isName hother hbelow

/-- In every reachable state, between callbacks and when a scan is made, whatever the storage
directory contains and whatever the disk queries answer; and nothing but what the scans delete
leaves the storage directory. -/
theorem run_sparesActive (localtime : Int → Option Tm) (cfg : Config) (storage : Option Storage)
    (answers : Answers) (labels : List Label) (label : Label) (fails : Call → Bool)
    (contents : String → List (String × Content)) (scan : Answers)
    (hnames : ∀ entry ∈ (scanState (run (step localtime) (initial localtime cfg storage answers)
      labels) label).entries, IsName entry.name) :
    SparesActive fails contents scan
        (scanState (run (step localtime) (initial localtime cfg storage answers) labels) label) ∧
      Sweeps localtime (run (step localtime) (initial localtime cfg storage answers) labels)
        label := by
  have hpathed := (run_pathed localtime cfg storage answers labels).scanState label
  exact ⟨hpathed.sparesActive fails contents scan hnames, step_sweeps localtime _ label⟩

/-- A flight with two slices over an older one. -/
def twoSlices : List Label :=
  [⟨.state true, { time := 1000, createdAt := 1000 }⟩,
    ⟨.rotate, { time := 1300, createdAt := 1300 }⟩]

/-- The node that records the second slice. -/
def overOlder : BagRecorderNode :=
  run (step epochDay) (initial epochDay { cleanupMode := "retain" }
    (some ⟨0, [⟨"19691231235959", .directory⟩]⟩) {}) twoSlices

set_option maxRecDepth 4000 in
theorem sparesActive_twoSlices :
    SparesActive (fun _ => false) (fun _ => [("metadata.yaml", .file)])
        { freeMb := [100, 100, 9000] }
        (scanState overOlder ⟨.diskCheck, { freeMb := [100, 100, 9000] }⟩) ∧
      Sweeps epochDay overOlder ⟨.diskCheck, { freeMb := [100, 100, 9000] }⟩ :=
  run_sparesActive epochDay { cleanupMode := "retain" }
    (some ⟨0, [⟨"19691231235959", .directory⟩]⟩) {} twoSlices
    ⟨.diskCheck, { freeMb := [100, 100, 9000] }⟩ (fun _ => false)
    (fun _ => [("metadata.yaml", .file)]) { freeMb := [100, 100, 9000] } (by decide)

end AcflyRos.BagLogd
