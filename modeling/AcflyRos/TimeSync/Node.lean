import AcflyRos.TimeSync.Window

/-! # Synchronisation of the system clock with GPS time

`TimeSyncNode` (`time_sync_node.cpp`) next to the clocks it reads and sets. The system
clock is the monotonic clock plus a shift, which only `clock_settime` changes:
`adjtimex` slews both alike. The monitor timer fires every 100 ms of monotonic time;
callbacks run one at a time and take no time themselves.
-/

namespace AcflyRos.TimeSync

structure Config where
  windowSize : Int := 300
  bootstrapThresholdMs : ℚ := 500
  gpsTimeoutSec : ℚ := 5
  minGpsYear : Int := 2020
  postBootstrapGraceSec : ℚ := 3
  printIntervalSec : ℚ := 5
  rttMaxMs : ℚ := 50
  deriving DecidableEq, Repr

def Config.rttMaxNs (cfg : Config) : Int := truncate (cfg.rttMaxMs * 1000000)

inductive State where
  | init
  | bootstrap
  | tracking
  | hold
  deriving DecidableEq, Repr

/-- `sensor_msgs::msg::TimeReference`. -/
structure TimeReference where
  stamp : Stamp
  timeRef : Stamp
  deriving DecidableEq, Repr

inductive Event where
  /-- A time reference passes the filter at that reading of the system clock. -/
  | reference (system : Int)
  /-- `clock_settime` is called. -/
  | settime (target : Int) (succeeded : Bool)
  /-- `reset_kernel_clock_discipline`. -/
  | resetDiscipline
  /-- `adjtimex` is asked for a single shot of so many microseconds. -/
  | slew (offsetUs : Int)
  | publishedOffset (offsetMs : ℚ)
  | publishedSynced (synced : Bool)
  /-- A status text is a format and what it prints. -/
  | publishedStatus (format : String) (values : List ℚ)
  /-- `print_sync_accuracy`. -/
  | printed (offsetMs : ℚ) (samples : Nat) (label : String) (rttMs : ℚ)
  deriving DecidableEq, Repr

/-- An event and when it happens, on the monotonic clock. -/
structure Entry where
  time : Int
  event : Event
  deriving DecidableEq, Repr

structure TimeSyncNode where
  cfg : Config
  state : State := .init
  synced : Bool := false
  gpsLostCount : Nat := 0
  /-- On the system clock, like the other times of the node. -/
  lastGpsTime : Option Int := none
  offsetWindow : List Int := []
  rttNs : Int := 0
  bootstrapTime : Option Int := none
  lastPrintTime : Int
  monotonic : Int
  /-- By how much the system clock is ahead of the monotonic clock. -/
  shift : Int
  /-- When the monitor timer fires next, on the monotonic clock. -/
  nextTick : Int
  /-- Newest first. -/
  log : List Entry := []
  deriving DecidableEq, Repr

/-- 100 ms. -/
def monitorPeriod : Int := 100000000

namespace TimeSyncNode

/-- `get_clock()->now()` and `CLOCK_REALTIME`. -/
def system (node : TimeSyncNode) : Int := node.monotonic + node.shift

def record (node : TimeSyncNode) (event : Event) : TimeSyncNode :=
  { node with log := ⟨node.monotonic, event⟩ :: node.log }

def publishStatus (node : TimeSyncNode) (format : String) (values : List ℚ) : TimeSyncNode :=
  node.record (.publishedStatus format values)

/-! ## Correcting the clock -/

/-- Whether the clock has been set, and the node afterwards. -/
def doBootstrap (settimeFails : Bool) (node : TimeSyncNode) : Bool × TimeSyncNode :=
  let offset := medianOffsetNs node.offsetWindow
  if offset = 0 then (false, node)
  else
    let target := node.system + offset
    if settimeFails then (false, node.record (.settime target false))
    else
      let node := node.record (.settime target true)
      let node := { node with shift := target - node.monotonic }
      (true, { node.record .resetDiscipline with offsetWindow := [] })

/-- A twentieth of the offset, at most 100 ms. -/
def slewUs (offsetMs : ℚ) : Int := max (-100000) (min 100000 (truncate (offsetMs * 1000 / 20)))

def applySlew (offsetMs : ℚ) (node : TimeSyncNode) : TimeSyncNode :=
  node.record (.slew (slewUs offsetMs))

/-! ## Time references -/

section TimeReferences

variable (settimeFails : Bool) (smoothedMs : ℚ) (node : TimeSyncNode)

def handleInit : TimeSyncNode :=
  match node.doBootstrap settimeFails with
  | (false, node) => node
  | (true, node) =>
      let node := { node with state := .tracking, synced := true }.record (.publishedSynced true)
      { node with bootstrapTime := some node.system }.publishStatus
        "TRACKING: clock synced, slew mode" []

def handleTracking : TimeSyncNode :=
  if node.bootstrapTime.any fun start =>
      seconds (node.system - start) < node.cfg.postBootstrapGraceSec then
    node.applySlew smoothedMs
  else
    let node := { node with bootstrapTime := none }
    if node.cfg.bootstrapThresholdMs < |smoothedMs| then
      match node.doBootstrap settimeFails with
      | (false, node) => node.applySlew smoothedMs
      | (true, node) =>
          { node with bootstrapTime := some node.system }.publishStatus
            "TRACKING: re-bootstrapped (large offset)" []
    else
      let node := node.applySlew smoothedMs
      if |smoothedMs| < 10 then node.publishStatus "TRACKING: offset %.2fms" [smoothedMs] else node

def handleHold : TimeSyncNode :=
  let node :=
    if node.cfg.bootstrapThresholdMs < |smoothedMs| then
      match node.doBootstrap settimeFails with
      | (false, node) => node.applySlew smoothedMs
      | (true, node) => { node with bootstrapTime := some node.system }
    else node.applySlew smoothedMs
  let node := { node with state := .tracking, synced := true }.record (.publishedSynced true)
  node.publishStatus "TRACKING: GPS restored" []

end TimeReferences

/-- GPS time minus host time, and half of a round trip that is short enough. -/
def offsetOf (node : TimeSyncNode) (msg : TimeReference) : Int :=
  let offset := msg.timeRef.toNs - msg.stamp.toNs
  if 0 < node.rttNs ∧ node.rttNs < node.cfg.rttMaxNs then offset + node.rttNs.tdiv 2 else offset

/-- The filter on the GPS year. -/
def accepts (node : TimeSyncNode) (msg : TimeReference) : Prop :=
  minGpsYearToEpoch node.cfg.minGpsYear ≤ msg.timeRef.sec.toInt

instance (node : TimeSyncNode) (msg : TimeReference) : Decidable (node.accepts msg) :=
  inferInstanceAs (Decidable (_ ≤ _))

/-- `time_ref_cb` up to the dispatch on the state. -/
def takeReference (node : TimeSyncNode) (msg : TimeReference) : TimeSyncNode :=
  let node := node.record (.reference node.system)
  { node with
    lastGpsTime := some node.system
    gpsLostCount := 0
    offsetWindow := pushOffset node.cfg.windowSize node.offsetWindow (node.offsetOf msg) }

def timeRefCb (settimeFails : Bool) (msg : TimeReference) (node : TimeSyncNode) : TimeSyncNode :=
  if ¬ node.accepts msg then node
  else
    let node := node.takeReference msg
    let smoothedMs := smoothedOffsetMs node.offsetWindow
    let node := match node.state with
      | .init => node.handleInit settimeFails
      | .tracking => node.handleTracking settimeFails smoothedMs
      | .hold => node.handleHold settimeFails smoothedMs
      | .bootstrap => node
    node.record (.publishedOffset smoothedMs)

def tsyncCb (roundTripTimeMs : ℚ) (node : TimeSyncNode) : TimeSyncNode :=
  { node with rttNs := truncate (roundTripTimeMs * 1000000) }

/-! ## Monitoring -/

def printSyncAccuracy (node : TimeSyncNode) : TimeSyncNode :=
  let inGrace := node.bootstrapTime.any fun start =>
    seconds (node.system - start) < node.cfg.postBootstrapGraceSec
  node.record (.printed (smoothedOffsetMs node.offsetWindow) node.offsetWindow.length
    (if inGrace then "GRACE" else "TRACK") (node.rttNs / 1000000))

/-- The time-out check of `monitor_cb`. -/
def checkGps (last : Int) (node : TimeSyncNode) : TimeSyncNode :=
  if node.cfg.gpsTimeoutSec < seconds (node.system - last) then
    let node := { node with gpsLostCount := node.gpsLostCount + 1 }
    if 3 ≤ node.gpsLostCount ∧ node.state = .tracking then
      ({ node with state := .hold, synced := false }.record (.publishedSynced false)).publishStatus
        "HOLD: GPS lost, holding last freq" []
    else node
  else node

def monitorCb (node : TimeSyncNode) : TimeSyncNode :=
  if node.state = .init ∨ node.state = .hold then node
  else
    match node.lastGpsTime with
    | none => node
    | some last =>
        let node := node.checkGps last
        if node.cfg.printIntervalSec ≤ seconds (node.system - node.lastPrintTime) then
          { node.printSyncAccuracy with lastPrintTime := node.system }
        else node

end TimeSyncNode

/-! ## Runs -/

inductive Request where
  | timeReference (msg : TimeReference)
  | timesyncStatus (roundTripTimeMs : ℚ)
  | monitor
  deriving DecidableEq, Repr

structure Label where
  request : Request
  /-- How long after the last callback a message is delivered. -/
  wait : Nat := 0
  /-- `clock_settime` fails during this callback. -/
  settimeFails : Bool := false
  deriving DecidableEq, Repr

/-- A message is delivered before the monitor timer is due. -/
def TimeSyncNode.advance (node : TimeSyncNode) (wait : Nat) : TimeSyncNode :=
  { node with monotonic := min (node.monotonic + wait) node.nextTick }

def TimeSyncNode.tick (node : TimeSyncNode) : TimeSyncNode :=
  { node with monotonic := node.nextTick, nextTick := node.nextTick + monitorPeriod }

def step (node : TimeSyncNode) (label : Label) : TimeSyncNode :=
  match label.request with
  | .timeReference msg => (node.advance label.wait).timeRefCb label.settimeFails msg
  | .timesyncStatus rtt => (node.advance label.wait).tsyncCb rtt
  | .monitor => node.tick.monitorCb

/-- The constructor, at those readings of the clocks. -/
def initial (cfg : Config) (monotonic system : Int) : TimeSyncNode :=
  (({ cfg, monotonic, shift := system - monotonic, nextTick := monotonic + monitorPeriod,
      lastPrintTime := system } : TimeSyncNode).record .resetDiscipline).publishStatus
    "INIT: waiting for GPS time reference" []

end AcflyRos.TimeSync
