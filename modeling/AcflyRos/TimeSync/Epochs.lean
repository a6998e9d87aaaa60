import AcflyRos.Foundation.Transition
import AcflyRos.TimeSync.Jumps

/-! # References in flight while the clock is set

A time reference is stamped by `mavros` when it arrives from the flight controller, and
reaches `time_ref_cb` later, in any order or not at all. The clock may be set in between,
and `do_bootstrap` empties the window but not the subscription. Epochs count the jumps:
a stamp belongs to the epoch in which it was read.
-/

namespace AcflyRos.TimeSync

open AcflyRos.Transition

/-- How often the clock has been set. -/
def TimeSyncNode.epoch (node : TimeSyncNode) : Nat := (jumpTimes node.log).length

/-- The message form of a time. -/
def Stamp.ofNs (ns : Int) : Stamp where
  sec := Int32.ofInt (ns / 1000000000)
  nanosec := UInt32.ofNat (ns % 1000000000).toNat

/-- A reference in flight, and the epoch of its stamp. -/
structure Mail where
  msg : TimeReference
  epoch : Nat
  deriving DecidableEq, Repr

/-- An offset in the window, and the epoch of the stamp it was computed from. -/
structure Sample where
  offset : Int
  epoch : Nat
  deriving DecidableEq, Repr

/-- The node with what is in flight to it. -/
structure Host where
  node : TimeSyncNode
  inFlight : List Mail := []
  /-- Where the offsets of the window are from. Oldest first, like the window. -/
  samples : List Sample := []
  deriving DecidableEq, Repr

inductive Signal where
  /-- `mavros` receives a GPS time, and stamps it. -/
  | receive (timeRef : Stamp)
  /-- A reference in flight reaches the node. -/
  | deliver (index : Nat) (settimeFails : Bool)
  | lose (index : Nat)
  | timesyncStatus (roundTripTimeMs : ℚ)
  | monitor
  deriving DecidableEq, Repr

structure Move where
  signal : Signal
  /-- How long after the last move it happens. -/
  wait : Nat := 0
  deriving DecidableEq, Repr

namespace Host

/-- The samples behind the window that `time_ref_cb` computes its estimates from. -/
def taken (host : Host) (mail : Mail) : List Sample :=
  let samples := host.samples ++ [⟨host.node.offsetOf mail.msg, mail.epoch⟩]
  if host.node.cfg.windowSize < samples.length then samples.tail else samples

/-- The samples behind the window after that callback. -/
def kept (host : Host) (settimeFails : Bool) (mail : Mail) : List Sample :=
  if ¬ host.node.accepts mail.msg then host.samples
  else if host.node.Jumps settimeFails mail.msg then []
  else host.taken mail

def advance (host : Host) (wait : Nat) : Host := { host with node := host.node.advance wait }

def receive (timeRef : Stamp) (host : Host) : Host :=
  let mail := ⟨⟨Stamp.ofNs host.node.system, timeRef⟩, host.node.epoch⟩
  { host with inFlight := host.inFlight ++ [mail] }

def lose (index : Nat) (host : Host) : Host :=
  { host with inFlight := host.inFlight.eraseIdx index }

def deliver (settimeFails : Bool) (index : Nat) (host : Host) : Host :=
  match host.inFlight[index]? with
  | none => host
  | some mail =>
      { node := host.node.timeRefCb settimeFails mail.msg
        inFlight := host.inFlight.eraseIdx index
        samples := host.kept settimeFails mail }

def step (host : Host) (move : Move) : Host :=
  match move.signal with
  | .receive timeRef => (host.advance move.wait).receive timeRef
  | .deliver index settimeFails => (host.advance move.wait).deliver settimeFails index
  | .lose index => (host.advance move.wait).lose index
  | .timesyncStatus rtt => { host with node := (host.node.advance move.wait).tsyncCb rtt }
  | .monitor => { host with node := host.node.tick.monitorCb }

/-- The samples from which the next callback computes its estimates, smoothed or median. -/
def estimated (host : Host) (move : Move) : List Sample :=
  match move.signal with
  | .deliver index _ =>
      match host.inFlight[index]? with
      | some mail => if host.node.accepts mail.msg then host.taken mail else []
      | none => []
  | .monitor => host.samples
  | _ => []

end Host

/-- Neither the window nor the estimates of the next callback use an offset from before the
last jump. -/
structure Unmixed (host : Host) (move : Move) : Prop where
  window : ∀ sample ∈ host.samples, sample.epoch = host.node.epoch
  estimates : ∀ sample ∈ host.estimated move, sample.epoch = host.node.epoch

/-- When a reference sets the clock, no other valid one is in flight. -/
def Alone (host : Host) (move : Move) : Prop :=
  ∀ index settimeFails, move.signal = .deliver index settimeFails →
    ∀ mail ∈ host.inFlight[index]?,
      (host.node.advance move.wait).Jumps settimeFails mail.msg →
        ∀ other ∈ host.inFlight.eraseIdx index, ¬ host.node.accepts other.msg

/-! ## What holds of every host -/

/-- Samples and mail are no newer than the clock, and the samples are those of the window. -/
structure Sampled (host : Host) : Prop where
  window : host.samples.map Sample.offset = host.node.offsetWindow
  size : (host.samples.length : Int) ≤ max host.node.cfg.windowSize 0
  mail : ∀ mail ∈ host.inFlight, mail.epoch ≤ host.node.epoch

/-- Nothing from before the last jump is left that could get into the window. -/
structure Current (host : Host) : Prop where
  samples : ∀ sample ∈ host.samples, sample.epoch = host.node.epoch
  mail : ∀ mail ∈ host.inFlight, host.node.accepts mail.msg → mail.epoch = host.node.epoch

theorem Host.taken_map {host : Host} (h : host.samples.map Sample.offset = host.node.offsetWindow)
    (mail : Mail) :
    (host.taken mail).map Sample.offset = (host.node.takeReference mail.msg).offsetWindow := by
  rw [TimeSyncNode.takeReference_offsetWindow, ← h]
  unfold Host.taken pushOffset
  simp only [List.length_append, List.length_map, List.length_singleton]
  split <;> simp

theorem Host.taken_length {host : Host} (mail : Mail)
    (hsize : (host.samples.length : Int) ≤ max host.node.cfg.windowSize 0) :
    ((host.taken mail).length : Int) ≤ max host.node.cfg.windowSize 0 := by
  unfold Host.taken
  dsimp only
  split
  next =>
    rw [List.length_tail, List.length_append, List.length_singleton, Nat.add_sub_cancel]
    exact hsize
  next hroom =>
    rw [not_lt] at hroom
    exact hroom.trans (le_max_left _ _)

theorem Host.mem_taken {host : Host} {mail : Mail} {sample : Sample}
    (h : sample ∈ host.taken mail) : sample ∈ host.samples ∨ sample.epoch = mail.epoch := by
  have hmem : sample ∈ host.samples ++ [⟨host.node.offsetOf mail.msg, mail.epoch⟩] := by
    unfold Host.taken at h
    dsimp only at h
    split at h
    · exact List.mem_of_mem_tail h
    · exact h
  rcases List.mem_append.mp hmem with hold | hnew
  · exact Or.inl hold
  · rw [List.mem_singleton.mp hnew]
    exact Or.inr rfl

section Nodes

variable {host : Host} {node : TimeSyncNode}

theorem Stays.epoch {before after : TimeSyncNode} (hstays : Stays before after) :
    after.epoch = before.epoch := congrArg List.length hstays.jumpTimes

/-- Callbacks that leave the window alone. -/
theorem Sampled.of_node (h : Sampled host) (hcfg : node.cfg = host.node.cfg)
    (hwindow : node.offsetWindow = host.node.offsetWindow) (hepoch : node.epoch = host.node.epoch) :
    Sampled { host with node } where
  window := h.window.trans hwindow.symm
  size := by
    rw [hcfg]
    exact h.size
  mail := by
    rw [hepoch]
    exact h.mail

theorem Current.of_node (h : Current host) (hcfg : node.cfg = host.node.cfg)
    (hepoch : node.epoch = host.node.epoch) : Current { host with node } where
  samples := by
    rw [hepoch]
    exact h.samples
  mail := by
    unfold TimeSyncNode.accepts
    rw [hepoch, hcfg]
    exact h.mail

theorem Sampled.lose (h : Sampled host) (index : Nat) : Sampled (host.lose index) :=
  ⟨h.window, h.size, fun mail hmail => h.mail mail (List.mem_of_mem_eraseIdx hmail)⟩

theorem Current.lose (h : Current host) (index : Nat) : Current (host.lose index) :=
  ⟨h.samples, fun mail hmail => h.mail mail (List.mem_of_mem_eraseIdx hmail)⟩

theorem Sampled.receive (h : Sampled host) (timeRef : Stamp) : Sampled (host.receive timeRef) where
  window := h.window
  size := h.size
  mail := by
    intro mail hmail
    rcases List.mem_append.mp hmail with hold | hnew
    · exact h.mail mail hold
    · rw [List.mem_singleton.mp hnew]
      exact le_refl _

theorem Current.receive (h : Current host) (timeRef : Stamp) : Current (host.receive timeRef) where
  samples := h.samples
  mail := by
    intro mail hmail haccepted
    rcases List.mem_append.mp hmail with hold | hnew
    · exact h.mail mail hold haccepted
    · rw [List.mem_singleton.mp hnew]
      rfl

end Nodes

/-! ## Deliveries -/

section Deliveries

variable {host : Host} {index : Nat} {mail : Mail} {settimeFails : Bool}

theorem Host.deliver_eq (hmail : host.inFlight[index]? = some mail) :
    host.deliver settimeFails index =
      { node := host.node.timeRefCb settimeFails mail.msg
        inFlight := host.inFlight.eraseIdx index
        samples := host.kept settimeFails mail } := by
  unfold Host.deliver
  rw [hmail]

theorem Host.deliver_sets (hmail : host.inFlight[index]? = some mail)
    (hjumps : host.node.Jumps settimeFails mail.msg) :
    ∃ node, Sets (host.node.takeReference mail.msg) node ∧
      host.deliver settimeFails index =
        { node, inFlight := host.inFlight.eraseIdx index, samples := [] } := by
  rw [Host.deliver_eq hmail]
  unfold Host.kept
  rw [if_neg (not_not_intro hjumps.1), if_pos hjumps]
  exact ⟨_, TimeSyncNode.timeRefCb_sets hjumps, rfl⟩

theorem Host.deliver_stays (hmail : host.inFlight[index]? = some mail)
    (haccepted : host.node.accepts mail.msg) (hjumps : ¬ host.node.Jumps settimeFails mail.msg) :
    ∃ node, Stays (host.node.takeReference mail.msg) node ∧
      host.deliver settimeFails index =
        { node, inFlight := host.inFlight.eraseIdx index, samples := host.taken mail } := by
  rw [Host.deliver_eq hmail]
  unfold Host.kept
  rw [if_neg (not_not_intro haccepted), if_neg hjumps]
  exact ⟨_, TimeSyncNode.timeRefCb_stays haccepted hjumps, rfl⟩

theorem Host.deliver_rejected (hmail : host.inFlight[index]? = some mail)
    (haccepted : ¬ host.node.accepts mail.msg) :
    host.deliver settimeFails index = host.lose index := by
  have hrejected : host.node.timeRefCb settimeFails mail.msg = host.node := if_pos haccepted
  rw [Host.deliver_eq hmail]
  unfold Host.kept
  rw [if_pos haccepted, hrejected]
  rfl

/-- A delivered reference is rejected, or joins the window, or sets the clock. -/
theorem Host.deliver_cases (settimeFails : Bool) (hmail : host.inFlight[index]? = some mail) :
    (host.deliver settimeFails index = host.lose index) ∨
      (∃ node, Stays (host.node.takeReference mail.msg) node ∧ host.node.accepts mail.msg ∧
        host.deliver settimeFails index =
          { node, inFlight := host.inFlight.eraseIdx index, samples := host.taken mail }) ∨
      ∃ node, Sets (host.node.takeReference mail.msg) node ∧
        host.node.Jumps settimeFails mail.msg ∧
        host.deliver settimeFails index =
          { node, inFlight := host.inFlight.eraseIdx index, samples := [] } := by
  by_cases haccepted : host.node.accepts mail.msg
  · by_cases hjumps : host.node.Jumps settimeFails mail.msg
    · obtain ⟨node, hsets, hset⟩ := Host.deliver_sets hmail hjumps
      exact Or.inr (Or.inr ⟨node, hsets, hjumps, hset⟩)
    · obtain ⟨node, hstays, htaken⟩ := Host.deliver_stays hmail haccepted hjumps
      exact Or.inr (Or.inl ⟨node, hstays, haccepted, htaken⟩)
  · exact Or.inl (Host.deliver_rejected hmail haccepted)

theorem epoch_of_sets {node : TimeSyncNode}
    (hsets : Sets (host.node.takeReference mail.msg) node) : node.epoch = host.node.epoch + 1 := by
  unfold TimeSyncNode.epoch
  rw [hsets.jumpTimes, List.length_cons]
  rfl

theorem Sampled.deliver (h : Sampled host) (settimeFails : Bool) (index : Nat) :
    Sampled (host.deliver settimeFails index) := by
  cases hmail : host.inFlight[index]? with
  | none =>
      unfold Host.deliver
      rw [hmail]
      exact h
  | some mail =>
      rcases Host.deliver_cases settimeFails hmail with
        hrejected | ⟨node, hstays, _, htaken⟩ | ⟨node, hsets, _, hset⟩
      · rw [hrejected]
        exact h.lose index
      · have htook : Sampled { host with
            node := host.node.takeReference mail.msg, samples := host.taken mail } :=
          ⟨Host.taken_map h.window mail, Host.taken_length mail h.size, h.mail⟩
        rw [htaken]
        exact (htook.of_node hstays.cfg hstays.offsetWindow hstays.epoch).lose index
      · rw [hset]
        constructor
        · exact hsets.offsetWindow.symm
        · exact le_max_right _ _
        · intro other hother
          rw [epoch_of_sets hsets]
          exact (h.mail other (List.mem_of_mem_eraseIdx hother)).trans (Nat.le_succ _)

theorem Current.taken (h : Current host) (hmail : host.inFlight[index]? = some mail)
    (haccepted : host.node.accepts mail.msg) :
    ∀ sample ∈ host.taken mail, sample.epoch = host.node.epoch := by
  intro sample hsample
  rcases Host.mem_taken hsample with hold | hnew
  · exact h.samples sample hold
  · rw [hnew]
    exact h.mail mail (List.mem_of_getElem? hmail) haccepted

/-- A jump leaves no valid reference behind, if there is none. -/
theorem Current.deliver (h : Current host)
    (halone : ∀ mail ∈ host.inFlight[index]?, host.node.Jumps settimeFails mail.msg →
      ∀ other ∈ host.inFlight.eraseIdx index, ¬ host.node.accepts other.msg) :
    Current (host.deliver settimeFails index) := by
  cases hmail : host.inFlight[index]? with
  | none =>
      unfold Host.deliver
      rw [hmail]
      exact h
  | some mail =>
      rcases Host.deliver_cases settimeFails hmail with
        hrejected | ⟨node, hstays, haccepted, htaken⟩ | ⟨node, hsets, hjumps, hset⟩
      · rw [hrejected]
        exact h.lose index
      · have htook : Current { host with
            node := host.node.takeReference mail.msg, samples := host.taken mail } :=
          ⟨h.taken hmail haccepted, h.mail⟩
        rw [htaken]
        exact (htook.of_node hstays.cfg hstays.epoch).lose index
      · rw [hset]
        constructor
        · exact fun _ hsample => absurd hsample List.not_mem_nil
        · intro other hother haccepted
          unfold TimeSyncNode.accepts at haccepted
          rw [hsets.cfg] at haccepted
          exact absurd haccepted (halone mail hmail hjumps other hother)

/-- A window that is never empty after a push has room for a sample. -/
theorem Sampled.room (h : Sampled host) (hjumps : host.node.Jumps settimeFails mail.msg) :
    1 ≤ host.node.cfg.windowSize := by
  have hmedian := hjumps.2.2.1
  rw [← Host.taken_map h.window mail] at hmedian
  have hsize := Host.taken_length mail h.size
  cases htaken : host.taken mail with
  | nil =>
      rw [htaken] at hmedian
      exact absurd rfl hmedian
  | cons sample rest =>
      rw [htaken, List.length_cons] at hsize
      omega

/-- Otherwise the one left behind is next, and gets into the empty window. -/
theorem Sampled.mixes (h : Sampled host) (hmail : host.inFlight[index]? = some mail)
    (hjumps : host.node.Jumps settimeFails mail.msg) {other : Mail}
    (hother : other ∈ host.inFlight.eraseIdx index) (haccepted : host.node.accepts other.msg) :
    ∃ next, ¬ Unmixed (host.deliver settimeFails index) next := by
  obtain ⟨later, hlater⟩ := List.mem_iff_getElem?.mp hother
  obtain ⟨node, hsets, hset⟩ := Host.deliver_sets hmail hjumps
  have hroom := h.room hjumps
  have hcfg : node.cfg = host.node.cfg := hsets.cfg
  have haccepted' : node.accepts other.msg := by
    unfold TimeSyncNode.accepts
    rw [hcfg]
    exact haccepted
  refine ⟨⟨.deliver later false, 0⟩, fun hunmixed => ?_⟩
  have hestimates := hunmixed.estimates ⟨node.offsetOf other.msg, other.epoch⟩
  rw [hset] at hestimates
  -- Its offset stays in the window, with the epoch before the jump.
  have hsmall : ¬ host.node.cfg.windowSize < 1 := not_lt.mpr hroom
  simp [Host.estimated, hlater, haccepted', Host.taken, hcfg, hsmall, epoch_of_sets hsets]
    at hestimates
  have hold := h.mail other (List.mem_of_mem_eraseIdx hother)
  omega

end Deliveries

/-! ## Runs -/

theorem Sampled.advance {host : Host} (h : Sampled host) (wait : Nat) :
    Sampled (host.advance wait) := h.of_node rfl rfl rfl

theorem Current.advance {host : Host} (h : Current host) (wait : Nat) :
    Current (host.advance wait) := h.of_node rfl rfl

theorem Sampled.step {host : Host} (h : Sampled host) (move : Move) : Sampled (host.step move) := by
  unfold Host.step
  cases move.signal with
  | receive timeRef => exact (h.advance move.wait).receive timeRef
  | deliver index settimeFails => exact (h.advance move.wait).deliver settimeFails index
  | lose index => exact (h.advance move.wait).lose index
  | timesyncStatus rtt => exact h.of_node rfl rfl rfl
  | monitor =>
      have hstays := TimeSyncNode.monitorCb_stays host.node.tick
      exact h.of_node hstays.cfg hstays.offsetWindow (hstays.epoch.trans rfl)

theorem Current.step {host : Host} (h : Current host) {move : Move} (halone : Alone host move) :
    Current (host.step move) := by
  unfold Host.step
  cases hsignal : move.signal with
  | receive timeRef => exact (h.advance move.wait).receive timeRef
  | deliver index settimeFails =>
      exact (h.advance move.wait).deliver (halone index settimeFails hsignal)
  | lose index => exact (h.advance move.wait).lose index
  | timesyncStatus rtt => exact h.of_node rfl rfl
  | monitor =>
      have hstays := TimeSyncNode.monitorCb_stays host.node.tick
      exact h.of_node hstays.cfg (hstays.epoch.trans rfl)

theorem Current.unmixed {host : Host} (h : Current host) (next : Move) : Unmixed host next where
  window := h.samples
  estimates := by
    unfold Host.estimated
    cases next.signal with
    | deliver index settimeFails =>
        dsimp only
        cases hmail : host.inFlight[index]? with
        | none => simp
        | some mail =>
            dsimp only
            split
            next haccepted => exact h.taken hmail haccepted
            next => simp
    | monitor => exact h.samples
    | receive | lose | timesyncStatus => simp

theorem Sampled.mixes_of_not_alone {host : Host} (h : Sampled host) {move : Move}
    (halone : ¬ Alone host move) : ¬ ∀ next, Unmixed (host.step move) next := by
  unfold Alone at halone
  push Not at halone
  obtain ⟨index, settimeFails, hsignal, mail, hmail, hjumps, other, hother, haccepted⟩ := halone
  unfold Host.step
  rw [hsignal, not_forall]
  exact (h.advance move.wait).mixes hmail hjumps hother haccepted

/-- The node and its surroundings at the start: nothing is in flight. -/
def Host.initial (cfg : Config) (monotonic system : Int) : Host :=
  { node := TimeSync.initial cfg monotonic system }

/-- Whatever comes next at any point of a run is free of old offsets if and only if every jump
of the run finds no other valid reference in flight. -/
theorem run_unmixed_iff (cfg : Config) (monotonic system : Int) (moves : List Move) :
    (∀ early, early <+: moves → ∀ next,
        Unmixed (run Host.step (Host.initial cfg monotonic system) early) next) ↔
      EveryStep Host.step Alone (Host.initial cfg monotonic system) moves := by
  have hsampled : Sampled (Host.initial cfg monotonic system) :=
    ⟨rfl, le_max_right _ _, by simp [Host.initial]⟩
  have hcurrent : Current (Host.initial cfg monotonic system) :=
    ⟨by simp [Host.initial], by simp [Host.initial]⟩
  exact forall_prefix_iff_everyStep Host.step Sampled Current
    (fun host => ∀ next, Unmixed host next)
    (fun _ move h => h.step move) (fun _ _ h halone => h.step halone) (fun _ h => h.unmixed)
    (fun _ _ h halone => h.mixes_of_not_alone halone) moves hsampled hcurrent

/-- Two references are stamped before the first of them sets the clock. -/
def queuedFix : List Move :=
  [⟨.receive ⟨1790000000, 0⟩, 0⟩, ⟨.receive ⟨1790000000, 50000000⟩, 50000000⟩,
    ⟨.deliver 0 false, 10000000⟩, ⟨.deliver 0 false, 10000000⟩]

/-- The second one is then in the window, with the offset of decades that the first has made up
for. -/
theorem not_unmixed_queuedFix :
    ¬ ∀ (cfg : Config) (monotonic system : Int) (moves : List Move) (next : Move),
      Unmixed (run Host.step (Host.initial cfg monotonic system) moves) next := by
  intro hall
  have hwindow := (hall {} 0 0 queuedFix ⟨.monitor, 0⟩).window
  exact absurd hwindow (by decide +kernel)

end AcflyRos.TimeSync
