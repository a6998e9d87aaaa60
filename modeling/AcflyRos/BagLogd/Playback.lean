import AcflyRos.BagLogd.SliceNames

/-! # Playing a recording back

A flight is recorded in slices, one directory after the other, and played back slice by slice in
the order of their names. Every message is in the slice whose name was chosen last before it came,
so that the messages come in the order in which they were recorded as long as the names increase.
-/

namespace AcflyRos.BagLogd

open AcflyRos.Transition AcflyRos.History AcflyRos.Sequences

/-- The path is that of the name that was chosen last. -/
def IsNewest (storagePath : String) (log : List Event) (path : String) : Prop :=
  ∃ name, (chosenNames log).head? = some name ∧ path = storagePath ++ ("/" ++ name)

/-- A message goes to the slice whose name was chosen last. -/
def NewestRule (storagePath : String) : Event → List Event → Prop
  | .wrote _ uri _, earlier => IsNewest storagePath earlier uri
  | _, _ => True

/-! ## The slice of the writer -/

/-- What holds also within a callback. -/
structure Routed (path : String) (node : BagRecorderNode) : Prop where
  storagePath : node.cfg.storagePath = path
  wrote : Justified (NewestRule path) node.log

/-- What holds between callbacks. -/
structure Current (path : String) (node : BagRecorderNode) : Prop extends Routed path node where
  writer : ∀ writer, node.writer = some writer → IsNewest path node.log writer.uri

section Pieces

variable {path : String} {node next : BagRecorderNode}

theorem Routed.of_same (h : Routed path node) (hcfg : next.cfg = node.cfg)
    (hlog : next.log = node.log) : Routed path next where
  storagePath := by rw [hcfg, h.storagePath]
  wrote := by rw [hlog]; exact h.wrote

theorem Routed.record (h : Routed path node) {event : Event}
    (hrule : NewestRule path event node.log) : Routed path (node.record event) where
  storagePath := h.storagePath
  wrote := ⟨hrule, h.wrote⟩

theorem Routed.resetWriter (h : Routed path node) : Routed path node.resetWriter := by
  unfold BagRecorderNode.resetWriter
  cases node.writer with
  | none => exact h
  | some writer => exact ⟨h.storagePath, trivial, h.wrote⟩

theorem resetWriter_writer (node : BagRecorderNode) : node.resetWriter.writer = none := by
  unfold BagRecorderNode.resetWriter
  cases hwriter : node.writer with
  | none => exact hwriter
  | some writer => rfl

theorem Current.of_none (h : Routed path node) (hwriter : node.writer = none) :
    Current path node where
  toRouted := h
  writer := fun _ hsome => by rw [hwriter] at hsome; cases hsome

theorem Current.of_same (h : Current path node) (hcfg : next.cfg = node.cfg)
    (hlog : next.log = node.log) (hwriter : next.writer = node.writer) : Current path next where
  toRouted := h.toRouted.of_same hcfg hlog
  writer := by rw [hlog, hwriter]; exact h.writer

theorem Current.onlyStorage (h : Current path node)
    (honly : BagRecorderNode.OnlyStorage node next) : Current path next := by
  obtain ⟨_, rfl⟩ := honly
  exact h.of_same rfl rfl rfl

theorem Routed.closed (h : Routed path node) : Current path node.resetWriter :=
  Current.of_none h.resetWriter (resetWriter_writer node)

theorem Current.closeWriter (h : Current path node) : Current path node.closeWriter := by
  unfold BagRecorderNode.closeWriter
  split
  next => exact h
  next => exact h.toRouted.closed.of_same rfl rfl rfl

end Pieces

/-! ## Callbacks -/

/-- After a piece of a `try` block: once it returns, the writer is that of the newest name. -/
def Passes (path : String) (result : Exit × BagRecorderNode) : Prop :=
  Routed path result.2 ∧ (result.1 = .returned → Current path result.2)

section Callbacks

variable {path : String} {localtime : Int → Option Tm} {answers : Answers}
  {node : BagRecorderNode}

theorem Passes.andThen {result : Exit × BagRecorderNode}
    {next : BagRecorderNode → Exit × BagRecorderNode} (h : Passes path result)
    (hnext : ∀ node, Current path node → Passes path (next node)) :
    Passes path (andThen result next) := by
  obtain ⟨exit, node⟩ := result
  cases exit with
  | returned => exact hnext node (h.2 rfl)
  | threw => exact h

theorem Passes.tryCatch {result : Exit × BagRecorderNode}
    {handler : BagRecorderNode → BagRecorderNode} (h : Passes path result)
    (hhandler : ∀ node, Routed path node → Current path (handler node)) :
    Current path (tryCatch result handler) := by
  obtain ⟨exit, node⟩ := result
  cases exit with
  | returned => exact h.2 rfl
  | threw => exact hhandler node h.1

theorem Routed.chooseName (h : Routed path node) (localtime : Int → Option Tm)
    (answers : Answers) : Routed path (node.chooseName localtime answers) where
  storagePath := h.storagePath
  wrote := ⟨trivial, h.wrote⟩

theorem Routed.createWriter (h : Routed path node) : Routed path node.createWriter :=
  h.resetWriter.of_same rfl rfl

/-- Writers are closed while a name is chosen, and nothing else is logged. -/
theorem chosenNames_createWriter (node : BagRecorderNode) :
    chosenNames node.createWriter.log = chosenNames node.log := by
  show chosenNames node.resetWriter.log = chosenNames node.log
  unfold BagRecorderNode.resetWriter
  split <;> rfl

theorem Routed.openNewBag (h : Routed path node) :
    Passes path (node.openNewBag localtime answers) := by
  have hcreated := (h.chooseName localtime answers).createWriter
  have hopened : Current path ((((node.chooseName localtime answers).createWriter).createSlice
      answers (node.bagName localtime answers)).markOpen) := by
    refine ⟨hcreated.of_same rfl rfl, ?_⟩
    rintro writer hwriter
    obtain rfl := Option.some.inj hwriter
    refine ⟨node.bagName localtime answers, ?_, ?_⟩
    · show (chosenNames (node.chooseName localtime answers).createWriter.log).head? = _
      rw [chosenNames_createWriter]
      rfl
    · show (node.chooseName localtime answers).resetWriter.currentBagPath = _
      rw [BagRecorderNode.resetWriter_path, ← h.storagePath]
      rfl
  unfold BagRecorderNode.openNewBag
  dsimp only
  split
  next => exact ⟨h.of_same rfl rfl, by simp⟩
  next => exact ⟨h.of_same rfl rfl, by simp⟩
  next => exact ⟨h.chooseName localtime answers, by simp⟩
  next => exact ⟨hcreated, by simp⟩
  next => exact ⟨hcreated.of_same rfl rfl, by simp⟩
  next => exact ⟨hcreated.of_same rfl rfl, by simp⟩
  next => exact ⟨hopened.toRouted, fun _ => hopened⟩

theorem Current.startRecording (h : Current path node) : Passes path node.startRecording :=
  ⟨h.toRouted.of_same rfl rfl, fun _ => h.of_same rfl rfl rfl⟩

theorem Current.startRotationTimer (h : Current path node) :
    Passes path (node.startRotationTimer answers) := by
  unfold BagRecorderNode.startRotationTimer
  split
  next => exact ⟨h.toRouted, fun _ => h⟩
  next =>
    split
    next => exact ⟨h.toRouted, fun _ => h⟩
    next =>
      split
      next => exact ⟨h.toRouted, by simp⟩
      next => exact ⟨h.toRouted.of_same rfl rfl, fun _ => h.of_same rfl rfl rfl⟩

theorem Routed.openAndRecord (h : Routed path node) :
    Passes path (BagLogd.andThen (node.openNewBag localtime answers)
      BagRecorderNode.startRecording) :=
  h.openNewBag.andThen fun _ => Current.startRecording

theorem Routed.openRecordAndTime (h : Routed path node) :
    Passes path (BagLogd.andThen (BagLogd.andThen (node.openNewBag localtime answers)
      BagRecorderNode.startRecording) (BagRecorderNode.startRotationTimer answers)) :=
  h.openAndRecord.andThen fun _ => Current.startRotationTimer

theorem Current.rotateBag (h : Current path node) :
    Current path (node.rotateBag localtime answers) := by
  unfold BagRecorderNode.rotateBag
  split
  next => exact h
  next =>
    split
    next => exact h
    next =>
      dsimp only
      split
      next => exact h.closeWriter
      next =>
        exact h.closeWriter.toRouted.openAndRecord.tryCatch fun _ hrouted =>
          hrouted.closed.of_same rfl rfl rfl

theorem Current.retryOpenBag (h : Current path node) :
    Current path (node.retryOpenBag localtime answers) := by
  unfold BagRecorderNode.retryOpenBag
  split
  next => exact h.of_same rfl rfl rfl
  next =>
    split
    next => exact h.of_same rfl rfl rfl
    next =>
      split
      next => exact h
      next =>
        refine (h.toRouted.openRecordAndTime.andThen fun _ hcurrent => ?_).tryCatch
          fun _ hrouted => hrouted.closed.of_same rfl rfl rfl
        exact ⟨hcurrent.toRouted.of_same rfl rfl, fun _ => hcurrent.of_same rfl rfl rfl⟩

theorem Current.prepareArm (h : Current path node) : Current path (node.prepareArm answers) := by
  have harmed : Current path { node with armed := true } := h.of_same rfl rfl rfl
  have hensured := harmed.onlyStorage (BagRecorderNode.ensureStorageDir_onlyStorage answers _)
  exact hensured.closeWriter.onlyStorage (BagRecorderNode.cleanupOldBags_onlyStorage answers _)

theorem Current.armStateCb (h : Current path node) (armed : Bool) :
    Current path (node.armStateCb localtime answers armed) := by
  unfold BagRecorderNode.armStateCb
  split
  next =>
    split
    next => exact h
    next =>
      dsimp only
      split
      next => exact h.prepareArm
      next =>
        exact h.prepareArm.toRouted.openRecordAndTime.tryCatch fun _ hrouted =>
          hrouted.closed.of_same rfl rfl rfl
  next =>
    split
    next => exact h
    next =>
      have hdisarmed : Current path { node with armed := false, recording := false } :=
        h.of_same rfl rfl rfl
      dsimp only
      split
      next =>
        have hstopped : Current path
            { node with armed := false, recording := false }.stopRotationTimer :=
          hdisarmed.of_same rfl rfl rfl
        exact hstopped.closeWriter
      next => exact hdisarmed.closeWriter

theorem Current.diskCheckCb (h : Current path node) : Current path (node.diskCheckCb answers) := by
  rcases node.diskCheckCb_cases answers with
    hidle | ⟨dirs, links, removed, left, -, -, -, hleft, hchecked⟩
  · rwa [hidle]
  · have hcleaned : Current path (node.record (.cleaned dirs removed)) :=
      ⟨h.toRouted.record trivial, h.writer⟩
    have hkept : Current path left :=
      hleft ▸ hcleaned.onlyStorage (BagRecorderNode.removeDirs_onlyStorage answers _ _)
    rcases hchecked with hsame | hstopped
    · rwa [hsame]
    · have hquiet : Current path { left with recording := false }.stopRotationTimer :=
        hkept.of_same rfl rfl rfl
      rw [hstopped]
      exact hquiet.closeWriter.of_same rfl rfl rfl

theorem Current.writeMessage (h : Current path node) (topic : String) :
    Current path (node.writeMessage topic) := by
  unfold BagRecorderNode.writeMessage
  split
  next => exact ⟨h.toRouted.record trivial, h.writer⟩
  next writer hwriter => exact ⟨h.toRouted.record (h.writer writer hwriter), h.writer⟩

theorem Routed.boot (h : Routed path node) :
    Current path (BagRecorderNode.boot localtime answers node) := by
  have hrestarted : Current path node.restarted := Current.of_none (h.of_same rfl rfl) rfl
  unfold BagRecorderNode.boot
  dsimp only
  refine Current.onlyStorage ?_ (BagRecorderNode.ensureStorageDir_onlyStorage answers _)
  split
  next => exact hrestarted
  next =>
    have hprepared := hrestarted.onlyStorage (node.restarted.prepareBoot_onlyStorage answers)
    exact hprepared.toRouted.openRecordAndTime.tryCatch fun _ hrouted =>
      hrouted.closed.of_same rfl rfl rfl

theorem Current.step (h : Current path node) (label : Label) :
    Current path (step localtime node label) := by
  unfold BagLogd.step
  split
  next =>
    split
    next => exact h.armStateCb _
    next => exact h
  next =>
    split
    next => exact h.rotateBag
    next => exact h
  next =>
    split
    next => exact h.retryOpenBag
    next => exact h
  next => exact h.diskCheckCb
  next => exact h.writeMessage _
  next => exact h.toRouted.boot
  next => exact h.of_same rfl rfl rfl

end Callbacks

theorem current_run (localtime : Int → Option Tm) (cfg : Config) (storage : Option Storage)
    (answers : Answers) (labels : List Label) :
    Current cfg.storagePath
      (run (step localtime) (initial localtime cfg storage answers) labels) :=
  have hfresh : Routed cfg.storagePath { cfg, storage } := ⟨rfl, trivial⟩
  run_invariant (step localtime) (Current cfg.storagePath) (fun _ label h => h.step label)
    labels hfresh.boot

/-! ## Slice by slice -/

/-- The path of the slice and the topic of a message. -/
def Event.message? : Event → Option (String × String)
  | .wrote _ uri topic => some (uri, topic)
  | _ => none

/-- The messages with their slices, numbered in the order in which they were recorded. -/
def recorded (log : List Event) : List ((String × String) × Nat) :=
  (log.reverse.filterMap Event.message?).zipIdx

/-- What is in one slice after the other. -/
def playback (paths : List String) (log : List Event) : List ((String × String) × Nat) :=
  paths.flatMap fun path => (recorded log).filter fun message => message.1.1 == path

/-- What is in any of the slices, as it was recorded. -/
def recordedIn (paths : List String) (log : List Event) : List ((String × String) × Nat) :=
  (recorded log).filter fun message => paths.contains message.1.1

theorem path_mono {storagePath first second : String} (hle : first ≤ second) :
    storagePath ++ ("/" ++ first) ≤ storagePath ++ ("/" ++ second) := by
  rcases hle.lt_or_eq with hlt | rfl
  · refine le_of_lt ?_
    simp only [String.lt_iff_toList_lt, String.toList_append] at hlt ⊢
    exact List.append_left_lt (List.append_left_lt hlt)
  · exact le_refl _

/-- The messages of a log are in slices whose names were chosen. -/
theorem chosen_of_message {storagePath : String} {log : List Event}
    (hwrote : Justified (NewestRule storagePath) log) {message : String × String}
    (hmessage : message ∈ log.filterMap Event.message?) :
    ∃ name ∈ chosenNames log, message.1 = storagePath ++ ("/" ++ name) := by
  induction log with
  | nil => cases hmessage
  | cons event earlier ih =>
      obtain ⟨hrule, hearlier⟩ := hwrote
      have hmore : ∀ name ∈ chosenNames earlier, name ∈ chosenNames (event :: earlier) :=
        (((List.sublist_cons_self event earlier).filterMap _).map _).subset
      rw [List.filterMap_cons] at hmessage
      cases event with
      | wrote writer uri topic =>
          rcases List.mem_cons.mp hmessage with rfl | hmessage
          · obtain ⟨name, hname, huri⟩ := hrule
            exact ⟨name, hmore name (List.mem_of_head? hname), huri⟩
          · obtain ⟨name, hname, huri⟩ := ih hearlier hmessage
            exact ⟨name, hmore name hname, huri⟩
      | named | closed | dropped | cleaned =>
          obtain ⟨name, hname, huri⟩ := ih hearlier hmessage
          exact ⟨name, hmore name hname, huri⟩

/-- While the names increase, so do the paths that messages go to. -/
theorem messages_ordered {storagePath : String} {log : List Event}
    (hwrote : Justified (NewestRule storagePath) log)
    (hnames : (chosenNames log).Pairwise (· > ·)) :
    (log.filterMap Event.message?).Pairwise fun later earlier => earlier.1 ≤ later.1 := by
  induction log with
  | nil => exact List.Pairwise.nil
  | cons event earlier ih =>
      obtain ⟨hrule, hearlier⟩ := hwrote
      have hfewer : (chosenNames earlier).Sublist (chosenNames (event :: earlier)) :=
        ((List.sublist_cons_self event earlier).filterMap _).map _
      have hrest := ih hearlier (hnames.sublist hfewer)
      rw [List.filterMap_cons]
      cases event with
      | wrote writer uri topic =>
          refine List.pairwise_cons.mpr ⟨fun message hmessage => ?_, hrest⟩
          obtain ⟨newest, hnewest, huri⟩ := hrule
          obtain ⟨name, hname, hpath⟩ := chosen_of_message hearlier hmessage
          rw [hpath, show (uri, topic).1 = uri from rfl, huri]
          apply path_mono
          -- The newest name is the greatest.
          obtain ⟨older, holder⟩ := List.head?_eq_some_iff.mp hnewest
          rw [holder] at hname
          rcases List.mem_cons.mp hname with rfl | hname
          · exact le_refl _
          · have hdecreasing := hnames.sublist hfewer
            rw [holder] at hdecreasing
            exact le_of_lt ((List.pairwise_cons.mp hdecreasing).1 name hname)
      | named | closed | dropped | cleaned => exact hrest

theorem recorded_ordered {storagePath : String} {log : List Event}
    (hwrote : Justified (NewestRule storagePath) log)
    (hnames : (chosenNames log).Pairwise (· > ·)) :
    (recorded log).Pairwise fun first second => first.1.1 ≤ second.1.1 := by
  have hmessages : (log.reverse.filterMap Event.message?).Pairwise
      fun first second => first.1 ≤ second.1 := by
    rw [List.filterMap_reverse, List.pairwise_reverse]
    exact messages_ordered hwrote hnames
  rw [← List.zipIdx_map_fst 0 (log.reverse.filterMap Event.message?), List.pairwise_map]
    at hmessages
  exact hmessages

/-- As long as the clock and the storage directory have moved on whenever a slice is opened, slices
that are read in the order of their names, whichever are left, give their messages in the order in
which they were recorded, also across restarts of the node. -/
theorem playback_in_order (localtime : Int → Option Tm) (cfg : Config) (storage : Option Storage)
    (answers : Answers) (labels : List Label) (left : List String)
    (hlabels : EveryStep (step localtime) (OpensLater localtime)
      (initial localtime cfg storage answers) labels)
    (hleft : left.Pairwise (· < ·)) :
    playback left (run (step localtime) (initial localtime cfg storage answers) labels).log =
      recordedIn left
        (run (step localtime) (initial localtime cfg storage answers) labels).log := by
  have hwrote := (current_run localtime cfg storage answers labels).wrote
  have hordered : NamesOrdered
      (run (step localtime) (initial localtime cfg storage answers) labels).log :=
    NamesOrdered.of_filter (run_keeps (step localtime)
      (fun node => NamesOrdered node.chronicle) (fun _ _ => step_namesOrdered)
      (initial_namesOrdered localtime cfg storage answers) hlabels)
  exact flatMap_filter_of_sorted (recorded_ordered hwrote hordered.names) hleft

/-- Two flights with a restart between them; the clock is behind from the rotation on. -/
def flights : List Label :=
  [⟨.state true, { time := 1000, createdAt := 1000 }⟩, ⟨.message "/odin1/imu", {}⟩,
    ⟨.rotate, { time := 900, createdAt := 1300 }⟩, ⟨.message "/odin1/odometry", {}⟩,
    ⟨.reboot, {}⟩, ⟨.state true, { time := 200, createdAt := 1301 }⟩,
    ⟨.message "/odin1/imu", {}⟩]

set_option maxRecDepth 4000 in
theorem playback_in_order_flights :
    let log := (run (step epochDay) (initial epochDay { cleanupMode := "off" } none {}) flights).log
    playback ["/data/bags/19700101001640_1", "/data/bags/19700101002140"] log =
      recordedIn ["/data/bags/19700101001640_1", "/data/bags/19700101002140"] log :=
  playback_in_order epochDay { cleanupMode := "off" } none {} flights
    ["/data/bags/19700101001640_1", "/data/bags/19700101002140"] (by decide) (by decide)

end AcflyRos.BagLogd
