import AcflyRos.BagLogd.Sweep

/-! # Arming

The flight controller reports over and over whether it is armed, and only a change does
anything. A failed arming takes back the flag `armed_`, so that the next report tries again
and cleans up again. By then nothing has been recorded of this flight: without the flag
there is no writer, and neither a rotation nor a retry opens one.
-/

namespace AcflyRos.BagLogd

open AcflyRos.Transition

/-- A node next to what is known of the flight from outside. -/
structure Flight where
  node : BagRecorderNode
  /-- The last report of the flight controller. -/
  reported : Bool := false
  /-- The slices with messages of this flight, the newest first. -/
  written : List String := []
  deriving DecidableEq, Repr

namespace Flight

/-- The report begins a flight. -/
def Begins (flight : Flight) (label : Label) : Prop :=
  label.request = .state true ∧ flight.reported = false

instance (flight : Flight) (label : Label) : Decidable (flight.Begins label) :=
  inferInstanceAs (Decidable (_ ∧ _))

def reports (flight : Flight) (label : Label) : Bool :=
  match label.request with
  | .state armed => armed
  | _ => flight.reported

def writes (flight : Flight) (label : Label) : List String :=
  match label.request with
  | .state true => if flight.reported then flight.written else []
  | .message _ => (flight.node.writer.map (·.uri)).toList ++ flight.written
  | _ => flight.written

def step (localtime : Int → Option Tm) (flight : Flight) (label : Label) : Flight :=
  ⟨BagLogd.step localtime flight.node label, flight.reports label, flight.writes label⟩

/-- A node that has not been armed has recorded nothing of a flight that has begun. -/
def Fresh (flight : Flight) : Prop :=
  flight.node.cfg.armRecordEnabled = true → flight.node.armed = false →
    flight.node.writer = none ∧ (flight.reported = true → flight.written = [])

end Flight

/-- What a message of the flight controller must not do, and what a scan other than that of
`disk_check_cb` must not delete: the slices of this flight stay in the storage directory. -/
structure EdgeTriggered (localtime : Int → Option Tm) (flight : Flight) (label : Label) : Prop where
  unchanged : label.request = .state flight.node.armed →
    step localtime flight.node label = flight.node
  midFlight : label.request = .state true → flight.reported = true → flight.written ≠ [] →
    step localtime flight.node label = flight.node
  spared : label.request ≠ .diskCheck → ¬ flight.Begins label →
    ∀ deletion ∈ deletions flight.node label,
      flight.node.fullPath deletion.name ∉ flight.written
  kept : label.request ≠ .diskCheck → ¬ flight.Begins label →
    (∀ storage, label.request ≠ .outside storage) → ∀ entry ∈ flight.node.entries,
      flight.node.fullPath entry.name ∈ flight.written →
        entry ∈ (step localtime flight.node label).entries

/-! ## What no timer changes -/

/-- The mode the node works in, and the flag `armed_`. -/
def BagRecorderNode.mode (node : BagRecorderNode) : Config × Bool := (node.cfg, node.armed)

section Mode

variable {localtime : Int → Option Tm} {answers : Answers} {node after : BagRecorderNode}

theorem mode_of_control (hcontrol : after.control = node.control) : after.mode = node.mode := by
  simp only [BagRecorderNode.control, Prod.mk.injEq] at hcontrol
  exact Prod.ext hcontrol.1 hcontrol.2.1

theorem startRotationTimer_mode (answers : Answers) (node : BagRecorderNode) :
    (node.startRotationTimer answers).2.mode = node.mode := by
  rcases node.startRotationTimer_cases answers with ⟨_, hstart⟩ | ⟨hstart, _⟩
  · rw [hstart]
    rfl
  · rw [hstart]

theorem resetWriter_mode (node : BagRecorderNode) : node.resetWriter.mode = node.mode :=
  mode_of_control BagRecorderNode.resetWriter_control

theorem closeWriter_mode (node : BagRecorderNode) : node.closeWriter.mode = node.mode :=
  mode_of_control BagRecorderNode.closeWriter_control

theorem rotateBag_mode : (node.rotateBag localtime answers).mode = node.mode := by
  unfold BagRecorderNode.rotateBag
  split
  · rfl
  · split
    · rfl
    · dsimp only
      split
      · exact closeWriter_mode node
      · rw [tryCatch_keeps BagRecorderNode.mode, andThen_keeps BagRecorderNode.mode fun _ => rfl,
          mode_of_control BagRecorderNode.openNewBag_control, closeWriter_mode]
        exact resetWriter_mode

theorem retryOpenBag_mode : (node.retryOpenBag localtime answers).mode = node.mode := by
  unfold BagRecorderNode.retryOpenBag
  split
  · rfl
  · split
    · rfl
    · split
      · rfl
      · rw [tryCatch_keeps BagRecorderNode.mode, andThen_keeps BagRecorderNode.mode fun _ => rfl,
          andThen_keeps BagRecorderNode.mode (startRotationTimer_mode answers),
          andThen_keeps BagRecorderNode.mode fun _ => rfl,
          mode_of_control BagRecorderNode.openNewBag_control]
        exact resetWriter_mode

theorem diskCheckCb_mode : (node.diskCheckCb answers).mode = node.mode := by
  rcases node.diskCheckCb_cases answers with
    hidle | ⟨dirs, links, removed, left, _, _, _, hleft, hchecked⟩
  · rw [hidle]
  · have hcleaned : left.mode = node.mode := by
      rw [hleft]
      exact mode_of_control
        (BagRecorderNode.removeDirs_onlyStorage answers (links ++ removed) _).control_eq
    rcases hchecked with hkept | hstopped
    · rw [hkept, hcleaned]
    · rw [hstopped, ← hcleaned]
      exact closeWriter_mode (BagRecorderNode.stopRotationTimer { left with recording := false })

end Mode

/-! ## What a node without a writer does -/

section Fresh

variable {localtime : Int → Option Tm} {answers : Answers} {node : BagRecorderNode}

/-- An arming that fails leaves no writer behind. -/
theorem armStateCb_fails (hbefore : node.armed = false)
    (hafter : (node.armStateCb localtime answers true).armed = false) :
    (node.armStateCb localtime answers true).writer = none := by
  unfold BagRecorderNode.armStateCb at hafter ⊢
  rw [if_pos rfl, if_neg (by simp [hbefore])] at hafter ⊢
  dsimp only at hafter ⊢
  have hprepared : (node.prepareArm answers).armed = true :=
    congrArg (·.2.1) prepareArm_control
  rw [if_neg (by simp [hprepared])] at hafter ⊢
  have hmode : (andThen (andThen ((node.prepareArm answers).openNewBag localtime answers)
      BagRecorderNode.startRecording) (BagRecorderNode.startRotationTimer answers)).2.mode =
        (node.prepareArm answers).mode := by
    rw [andThen_keeps BagRecorderNode.mode (startRotationTimer_mode answers),
      andThen_keeps BagRecorderNode.mode fun _ => rfl,
      mode_of_control BagRecorderNode.openNewBag_control]
  generalize andThen (andThen ((node.prepareArm answers).openNewBag localtime answers)
    BagRecorderNode.startRecording) (BagRecorderNode.startRotationTimer answers) = result
    at hmode hafter ⊢
  obtain ⟨exit, opened⟩ := result
  cases exit with
  | threw => exact BagRecorderNode.resetWriter_writer
  | returned =>
      have harmed : opened.armed = true := (congrArg (·.2) hmode).trans hprepared
      exact absurd (hafter.symm.trans harmed) Bool.false_ne_true

theorem rotateBag_writerless (hwriter : node.writer = none) :
    node.rotateBag localtime answers = node := by
  unfold BagRecorderNode.rotateBag
  rw [if_pos (Or.inl hwriter), ite_self]

theorem retryOpenBag_disarmed (hmode : node.cfg.armRecordEnabled = true)
    (hdisarmed : node.armed = false) : node.retryOpenBag localtime answers = node.cancelRetry := by
  unfold BagRecorderNode.retryOpenBag
  split
  · rfl
  · exact if_pos ⟨hmode, hdisarmed⟩

theorem diskCheckCb_writerless (hwriter : node.writer = none) :
    (node.diskCheckCb answers).writer = none := by
  rcases node.diskCheckCb_cases answers with
    hidle | ⟨dirs, links, removed, left, _, _, _, hleft, hkept | hstopped⟩
  · rw [hidle, hwriter]
  · obtain ⟨storage, honly⟩ := BagRecorderNode.removeDirs_onlyStorage answers (links ++ removed)
      (node.record (.cleaned dirs removed))
    rw [hkept, hleft, honly]
    exact hwriter
  · rw [hstopped]
    exact (BagRecorderNode.closeWriter_closes _).1

theorem disarm_closes (hclosed : node.armed = false → node.writer = none) :
    (node.armStateCb localtime answers false).writer = none := by
  unfold BagRecorderNode.armStateCb
  rw [if_neg Bool.false_ne_true]
  split
  next hdisarmed => exact hclosed hdisarmed
  next => exact (BagRecorderNode.closeWriter_closes _).1

theorem armStateCb_same : node.armStateCb localtime answers node.armed = node := by
  unfold BagRecorderNode.armStateCb
  by_cases harmed : node.armed = true
  · rw [if_pos harmed, if_pos harmed]
  · rw [if_neg harmed, if_pos (by simpa using harmed)]

/-- Without arming, what is closed stays closed. -/
theorem step_quiet {label : Label} (hstate : ∀ armed, label.request ≠ .state armed)
    (hreboot : label.request ≠ .reboot) :
    (step localtime node label).mode = node.mode ∧
      (node.cfg.armRecordEnabled = true → node.armed = false → node.writer = none →
        (step localtime node label).writer = none) := by
  obtain ⟨request, answers⟩ := label
  unfold step
  cases request with
  | state armed => exact absurd rfl (hstate armed)
  | rotate =>
      dsimp only
      split
      · refine ⟨rotateBag_mode, fun _ _ hwriter => ?_⟩
        rw [rotateBag_writerless hwriter, hwriter]
      · exact ⟨rfl, fun _ _ hwriter => hwriter⟩
  | retry =>
      dsimp only
      split
      · refine ⟨retryOpenBag_mode, fun hmode hdisarmed hwriter => ?_⟩
        rw [retryOpenBag_disarmed hmode hdisarmed]
        exact hwriter
      · exact ⟨rfl, fun _ _ hwriter => hwriter⟩
  | diskCheck => exact ⟨diskCheckCb_mode, fun _ _ hwriter => diskCheckCb_writerless hwriter⟩
  | message topic =>
      dsimp only
      unfold BagRecorderNode.writeMessage
      split <;> exact ⟨rfl, fun _ _ hwriter => hwriter⟩
  | reboot => exact absurd rfl hreboot
  | outside storage => exact ⟨rfl, fun _ _ hwriter => hwriter⟩

end Fresh

namespace Flight

variable {localtime : Int → Option Tm} {flight : Flight} {label : Label}

/-- A flight that has begun with a failed arming has still nothing recorded. -/
theorem Fresh.arms (h : flight.Fresh) (answers : Answers) (armed : Bool) :
    (flight.step localtime ⟨.state armed, answers⟩).Fresh := by
  intro hmode hdisarmed
  by_cases hbefore : flight.node.cfg.armRecordEnabled = true
  · have hstep : (flight.step localtime ⟨.state armed, answers⟩).node =
        flight.node.armStateCb localtime answers armed := if_pos hbefore
    rw [hstep] at hdisarmed ⊢
    cases armed with
    | true =>
        have hwas : flight.node.armed = false := by
          by_contra harmed
          have hsame : flight.node.armStateCb localtime answers true = flight.node := by
            rw [← show flight.node.armed = true by simpa using harmed]
            exact armStateCb_same
          rw [hsame] at hdisarmed
          exact harmed hdisarmed
        refine ⟨armStateCb_fails hwas hdisarmed, fun _ => ?_⟩
        show (if flight.reported then flight.written else []) = []
        split
        next hreported => exact (h hbefore hwas).2 hreported
        next => rfl
    | false =>
        exact ⟨disarm_closes fun hwas => (h hbefore hwas).1,
          fun hreported => absurd hreported Bool.false_ne_true⟩
  · have hstep : (flight.step localtime ⟨.state armed, answers⟩).node = flight.node :=
      if_neg hbefore
    rw [hstep] at hmode
    exact absurd hmode hbefore

theorem writes_quiet (hstate : ∀ armed, label.request ≠ .state armed)
    (hwriter : flight.node.writer = none) :
    flight.writes label = flight.written ∧ flight.reports label = flight.reported := by
  obtain ⟨request, answers⟩ := label
  cases request with
  | state armed => exact absurd rfl (hstate armed)
  | message topic =>
      refine ⟨?_, rfl⟩
      show (flight.node.writer.map (·.uri)).toList ++ flight.written = flight.written
      rw [hwriter]
      rfl
  | rotate | retry | diskCheck | reboot | outside => exact ⟨rfl, rfl⟩

theorem Fresh.step (h : flight.Fresh) (hreboot : label.request ≠ .reboot) :
    (flight.step localtime label).Fresh := by
  by_cases hstate : ∃ armed, label.request = .state armed
  · obtain ⟨request, answers⟩ := label
    obtain ⟨armed, rfl⟩ := hstate
    exact h.arms answers armed
  · have hquiet : ∀ armed, label.request ≠ .state armed := not_exists.mp hstate
    obtain ⟨hkept, hwriterless⟩ := @step_quiet localtime flight.node label hquiet hreboot
    intro hmode hdisarmed
    have hbefore : flight.node.cfg.armRecordEnabled = true :=
      (congrArg (·.1.armRecordEnabled) hkept).symm.trans hmode
    have hwas : flight.node.armed = false := (congrArg (·.2) hkept).symm.trans hdisarmed
    obtain ⟨hwriter, hwritten⟩ := h hbefore hwas
    obtain ⟨hwrites, hreports⟩ := writes_quiet hquiet hwriter
    refine ⟨hwriterless hbefore hwas hwriter, fun hreported => ?_⟩
    exact hwrites.trans (hwritten (hreports.symm.trans hreported))

/-- Nothing has been recorded of a flight under way when a report of it finds the node not
armed. -/
theorem Fresh.nothingWritten (h : flight.Fresh) (hreported : flight.reported = true)
    (hmode : flight.node.cfg.armRecordEnabled = true) (hdisarmed : flight.node.armed = false) :
    flight.written = [] :=
  (h hmode hdisarmed).2 hreported

/-- The clean-up of an arming spares what has been recorded of this flight. -/
theorem Fresh.spared (h : flight.Fresh) (hreboot : label.request ≠ .reboot)
    (hcheck : label.request ≠ .diskCheck) (hunderway : ¬ flight.Begins label) :
    ∀ deletion ∈ deletions flight.node label,
      flight.node.fullPath deletion.name ∉ flight.written := by
  intro deletion hdeletion
  unfold deletions at hdeletion
  cases hrequest : label.request with
  | state armed =>
      simp only [hrequest] at hdeletion
      cases armed with
      | false => cases hdeletion
      | true =>
          dsimp only at hdeletion
          split at hdeletion
          next hfalls =>
            have hreported : flight.reported = true := by
              by_contra hnew
              exact hunderway ⟨hrequest, by simpa using hnew⟩
            rw [h.nothingWritten hreported hfalls.1 hfalls.2]
            exact List.not_mem_nil
          next => cases hdeletion
  | diskCheck => exact absurd hrequest hcheck
  | reboot => exact absurd hrequest hreboot
  | rotate | retry | message | outside =>
      simp only [hrequest] at hdeletion
      cases hdeletion

theorem Fresh.edgeTriggered (h : flight.Fresh) (hreboot : label.request ≠ .reboot) :
    EdgeTriggered localtime flight label := by
  have hsame : label.request = .state flight.node.armed →
      BagLogd.step localtime flight.node label = flight.node := by
    intro hrequest
    unfold BagLogd.step
    rw [hrequest]
    dsimp only
    rw [armStateCb_same, ite_self]
  refine ⟨hsame, ?_, h.spared hreboot, ?_⟩
  · intro hrequest hreported hwritten
    by_cases harmed : flight.node.armed = true
    · exact hsame (by rw [harmed, hrequest])
    · by_cases hmode : flight.node.cfg.armRecordEnabled = true
      · exact absurd (h.nothingWritten hreported hmode (by simpa using harmed)) hwritten
      · unfold BagLogd.step
        rw [hrequest]
        exact if_neg hmode
  · intro hcheck hunderway hown entry hentry hwritten
    apply ((step_sweeps localtime flight.node label).holds hown).mem
    refine List.mem_filter.mpr ⟨hentry, decide_eq_true fun hdeleted => ?_⟩
    obtain ⟨deletion, hdeletion, hname⟩ := List.mem_map.mp hdeleted
    have hspared := h.spared hreboot hcheck hunderway deletion hdeletion
    rw [hname] at hspared
    exact absurd hwritten hspared

end Flight

/-- For every sequence of reports among rotations, retries, disk checks, messages and changes from
outside, whatever fails. -/
theorem run_edgeTriggered (localtime : Int → Option Tm) (cfg : Config) (storage : Option Storage)
    (answers : Answers) (labels : List Label)
    (hlabels : ∀ label ∈ labels, label.request ≠ .reboot) :
    EveryStep (Flight.step localtime) (EdgeTriggered localtime)
      ⟨initial localtime cfg storage answers, false, []⟩ labels := by
  refine EveryStep.promises (Flight.step localtime) Flight.Fresh
    (fun _ _ hfresh hreboot => ⟨hfresh.step hreboot, hfresh.edgeTriggered hreboot⟩) ?_
    (everyStep_of_forall (Flight.step localtime) hlabels _)
  intro hmode hdisarmed
  refine ⟨?_, fun hreported => absurd hreported Bool.false_ne_true⟩
  have hconsistent : Consistent (initial localtime cfg storage answers) :=
    run_consistent localtime cfg storage answers [] trivial
  have hidle : (initial localtime cfg storage answers).recording = false := by
    by_contra hrecording
    rcases hconsistent.allowed (by simpa using hrecording) with halways | harmed
    · exact absurd (halways.symm.trans hmode) Bool.false_ne_true
    · exact absurd (hdisarmed.symm.trans harmed) Bool.false_ne_true
  exact (hconsistent.idle hidle).1

/-- The first arming fails, the second succeeds, and the disk fills up before the next report. -/
def restless : List Label :=
  [⟨.state true, { time := 1000, fault := some (.opening false) }⟩, ⟨.message "/odin1/imu", {}⟩,
    ⟨.retry, { time := 1005, freeMb := [9000] }⟩,
    ⟨.state true, { time := 1010, createdAt := 1010 }⟩, ⟨.message "/odin1/imu", {}⟩,
    ⟨.diskCheck, { freeMb := [100, 100] }⟩, ⟨.state true, {}⟩, ⟨.state false, {}⟩,
    ⟨.state true, { time := 2000, createdAt := 2000 }⟩]

theorem edgeTriggered_restless :
    EveryStep (Flight.step epochDay) (EdgeTriggered epochDay)
      ⟨initial epochDay {} none {}, false, []⟩ restless :=
  run_edgeTriggered epochDay {} none {} restless (by decide)

end AcflyRos.BagLogd
