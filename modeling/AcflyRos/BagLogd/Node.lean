import AcflyRos.BagLogd.Storage

/-! # The flight data recorder

`BagRecorderNode` (`bag_logd_node.cpp`) next to its storage directory and a log of
what it did. Each callback takes the answers its surroundings give while it runs:
the readings of the wall clock, the outcome of file operations and the points at
which an exception is thrown. Callbacks run one at a time.
-/

namespace AcflyRos.BagLogd

structure Config where
  storagePath : String := "/data/bags"
  rotationIntervalSec : Int := 300
  cleanupMode : String := "auto"
  armRecordEnabled : Bool := true
  minRecordingFreeSpaceMb : Int := 2048
  deriving DecidableEq, Repr

/-- `rosbag2_cpp::Writer`. The number of writers created before tells them apart. -/
structure Writer where
  id : Nat
  uri : String
  isOpen : Bool
  deriving DecidableEq, Repr

inductive Event where
  /-- `open_new_bag` settled on a name: a timestamp as text and the number of the candidate. -/
  | named (start : Int) (base : String) (index : Nat)
  /-- A writer is closed or destroyed. -/
  | closed (writer : Nat)
  /-- A message is passed to a writer. -/
  | wrote (writer : Nat) (uri : String) (topic : String)
  | dropped (topic : String)
  /-- `disk_check_cb` called `remove_dir` on some of the inactive slices it found. -/
  | cleaned (found removed : List String)
  deriving DecidableEq, Repr

/-- Where an exception leaves `open_new_bag`. -/
inductive OpenFault where
  /-- While a name is put together: the last candidate assigned stays, if there is one. -/
  | naming (assigned : Option Nat)
  | creating
  /-- In `writer_->open`, before or after the directory is created. -/
  | opening (created : Bool)
  | logging
  deriving DecidableEq, Repr

/-- The answers of the surroundings during one callback. -/
structure Answers where
  /-- `std::time(nullptr)` in `open_new_bag`. -/
  time : Int := 0
  /-- The wall clock when directories are made or removed before that. -/
  preparedAt : Int := 0
  /-- The wall clock when rosbag2 creates the directory of the slice. -/
  createdAt : Int := 0
  fault : Option OpenFault := none
  /-- The timer creation in `start_rotation_timer` throws. -/
  rotationTimerThrows : Bool := false
  /-- What `ensure_storage_dir` makes elsewhere is found at the storage path through links. -/
  linked : Bool := false
  opendirFails : Bool := false
  /-- The file system does not report `d_type`. -/
  typesUnknown : Bool := false
  /-- Names for which `lstat` fails. -/
  unreadable : List String := []
  /-- Names that removal leaves in place. -/
  unremovable : List String := []
  /-- What `disk_free_mb` returns, one call after the other. -/
  freeMb : List Int := []
  deriving DecidableEq, Repr

structure BagRecorderNode where
  cfg : Config
  currentBagStart : Int := 0
  currentBagPath : String := ""
  armed : Bool := false
  recording : Bool := false
  writer : Option Writer := none
  rotationTimer : Bool := false
  retryTimer : Bool := false
  storage : Option Storage := none
  /-- Number of writers created so far. -/
  writers : Nat := 0
  /-- Newest first. -/
  log : List Event := []
  deriving DecidableEq, Repr

/-- How a piece of a `try` block is left. -/
inductive Exit where
  | returned
  | threw
  deriving DecidableEq, Repr

/-- The next statement of a `try` block. -/
def andThen (result : Exit × BagRecorderNode)
    (next : BagRecorderNode → Exit × BagRecorderNode) : Exit × BagRecorderNode :=
  match result with
  | (.returned, node) => next node
  | (.threw, node) => (.threw, node)

/-- `try` with a handler. -/
def tryCatch (result : Exit × BagRecorderNode)
    (handler : BagRecorderNode → BagRecorderNode) : BagRecorderNode :=
  match result with
  | (.returned, node) => node
  | (.threw, node) => handler node

namespace BagRecorderNode

def record (node : BagRecorderNode) (event : Event) : BagRecorderNode :=
  { node with log := event :: node.log }

def fullPath (node : BagRecorderNode) (name : String) : String :=
  node.cfg.storagePath ++ ("/" ++ name)

def entries (node : BagRecorderNode) : List Entry :=
  node.storage.elim [] (·.entries)

/-! ## The storage directory -/

/-- The loop makes other directories than the missing one; `MakeDirs` has it in full. -/
def ensureStorageDir (answers : Answers) (node : BagRecorderNode) : BagRecorderNode :=
  match node.storage with
  | some _ => node
  | none =>
      if answers.linked then
        { node with storage := some { mtime := answers.preparedAt, entries := [] } }
      else node

/-- `remove_dir` of a slice, or `unlink` of a link. -/
def removeDir (answers : Answers) (node : BagRecorderNode) (name : String) : BagRecorderNode :=
  if name ∈ answers.unremovable then node
  else { node with storage := node.storage.map (·.remove answers.preparedAt name) }

/-- The tests that both scans make on an entry, other than on its kind. -/
def isVisible (answers : Answers) (node : BagRecorderNode) (entry : Entry) : Bool :=
  entry.name.toList.head? != some '.' && node.fullPath entry.name != node.currentBagPath &&
    !answers.unreadable.contains entry.name

/-- All directories but the active slice go, and so do stray links. -/
def cleanupOldBags (answers : Answers) (node : BagRecorderNode) : BagRecorderNode :=
  if node.cfg.cleanupMode ≠ "auto" then node
  else
    let node := ensureStorageDir answers node
    if answers.opendirFails then node
    else
      let old := node.entries.filter fun entry =>
        node.isVisible answers entry && entry.kind != .file
      (old.map (·.name)).foldl (removeDir answers) node

/-! ## Writers and timers -/

/-- `writer_.reset()`. -/
def resetWriter (node : BagRecorderNode) : BagRecorderNode :=
  match node.writer with
  | none => node
  | some writer => { node with writer := none }.record (.closed writer.id)

/-- An exception of `close` is caught. -/
def closeWriter (node : BagRecorderNode) : BagRecorderNode :=
  if node.writer = none then node
  else { node.resetWriter with currentBagPath := "" }

/-- `writer_ = std::make_unique<rosbag2_cpp::Writer>()`. -/
def createWriter (node : BagRecorderNode) : BagRecorderNode :=
  let node := node.resetWriter
  { node with
    writer := some ⟨node.writers, node.currentBagPath, false⟩
    writers := node.writers + 1 }

/-- rosbag2 creates the directory of the slice, and missing parents. -/
def createSlice (answers : Answers) (name : String) (node : BagRecorderNode) : BagRecorderNode :=
  let storage := node.storage.getD ⟨answers.createdAt, []⟩
  { node with storage := some (storage.create answers.createdAt name) }

def markOpen (node : BagRecorderNode) : BagRecorderNode :=
  { node with writer := node.writer.map fun writer => { writer with isOpen := true } }

/-- The timestamp of a slice: the wall clock, or the modification time of the storage
directory when that is later. -/
def bagStart (answers : Answers) (node : BagRecorderNode) : Int :=
  match node.storage with
  | none => answers.time
  | some storage => if answers.time < storage.mtime then storage.mtime else answers.time

/-- The timestamp as text. -/
def bagBase (localtime : Int → Option Tm) (answers : Answers) (node : BagRecorderNode) : String :=
  formatTimestamp localtime (node.bagStart answers)

/-- The number of the first free candidate. -/
def bagIndex (localtime : Int → Option Tm) (answers : Answers) (node : BagRecorderNode) : Nat :=
  freeIndex node.storage (node.bagBase localtime answers)

/-- The name of the next slice. -/
def bagName (localtime : Int → Option Tm) (answers : Answers) (node : BagRecorderNode) : String :=
  candidate (node.bagBase localtime answers) (node.bagIndex localtime answers)

/-- `open_new_bag` up to the creation of the writer. -/
def chooseName (localtime : Int → Option Tm) (answers : Answers) (node : BagRecorderNode) :
    BagRecorderNode :=
  { node with
    currentBagStart := node.bagStart answers
    currentBagPath := node.fullPath (node.bagName localtime answers) }.record
      (.named (node.bagStart answers) (node.bagBase localtime answers)
        (node.bagIndex localtime answers))

def openNewBag (localtime : Int → Option Tm) (answers : Answers) (node : BagRecorderNode) :
    Exit × BagRecorderNode :=
  let chosen := node.chooseName localtime answers
  let name := node.bagName localtime answers
  match answers.fault with
  | some (.naming none) => (.threw, { node with currentBagStart := node.bagStart answers })
  | some (.naming (some assigned)) =>
      (.threw, { node with
        currentBagStart := node.bagStart answers
        currentBagPath := node.fullPath (candidate (node.bagBase localtime answers) assigned) })
  | some .creating => (.threw, chosen)
  | some (.opening false) => (.threw, chosen.createWriter)
  | some (.opening true) => (.threw, chosen.createWriter.createSlice answers name)
  | some .logging => (.threw, (chosen.createWriter.createSlice answers name).markOpen)
  | none => (.returned, (chosen.createWriter.createSlice answers name).markOpen)

def startRotationTimer (answers : Answers) (node : BagRecorderNode) : Exit × BagRecorderNode :=
  if node.cfg.rotationIntervalSec ≤ 0 then (.returned, node)
  else if node.rotationTimer then (.returned, node)
  else if answers.rotationTimerThrows then (.threw, node)
  else (.returned, { node with rotationTimer := true })

def stopRotationTimer (node : BagRecorderNode) : BagRecorderNode :=
  { node with rotationTimer := false }

def scheduleRetry (node : BagRecorderNode) : BagRecorderNode := { node with retryTimer := true }

def cancelRetry (node : BagRecorderNode) : BagRecorderNode := { node with retryTimer := false }

/-- `recording_ = true` as a statement. -/
def startRecording (node : BagRecorderNode) : Exit × BagRecorderNode :=
  (.returned, { node with recording := true })

/-! ## Callbacks -/

section Callbacks

variable (localtime : Int → Option Tm) (answers : Answers)

/-- The subscriptions of the recorded topics. -/
def writeMessage (topic : String) (node : BagRecorderNode) : BagRecorderNode :=
  match node.writer with
  | none => node.record (.dropped topic)
  | some writer => node.record (.wrote writer.id writer.uri topic)

def rotateBag (node : BagRecorderNode) : BagRecorderNode :=
  if node.recording = false then node
  else if node.writer = none ∨ node.currentBagPath = "" then node
  else
    let node := node.closeWriter
    if node.cfg.armRecordEnabled ∧ node.armed = false then node
    else
      tryCatch (andThen (node.openNewBag localtime answers) startRecording) fun node =>
        { node.resetWriter with currentBagPath := "", recording := false }.scheduleRetry

/-- The handler leaves `recording_` as the block has set it. -/
def retryOpenBag (node : BagRecorderNode) : BagRecorderNode :=
  if node.recording then node.cancelRetry
  else if node.cfg.armRecordEnabled ∧ node.armed = false then node.cancelRetry
  else if 0 ≤ answers.freeMb.headD (-1) ∧
      answers.freeMb.headD (-1) < node.cfg.minRecordingFreeSpaceMb then node
  else
    tryCatch (andThen (andThen (andThen (node.openNewBag localtime answers) startRecording)
        (startRotationTimer answers)) fun node => (.returned, node.cancelRetry)) fun node =>
      { node.resetWriter with currentBagPath := "" }

/-- What `arm_state_cb` does before its `try` block. -/
def prepareArm (node : BagRecorderNode) : BagRecorderNode :=
  ((({ node with armed := true }.ensureStorageDir answers).closeWriter).cleanupOldBags answers)

def armStateCb (armed : Bool) (node : BagRecorderNode) : BagRecorderNode :=
  if armed then
    if node.armed then node
    else
      let node := node.prepareArm answers
      if node.armed = false then node
      else
        tryCatch (andThen (andThen (node.openNewBag localtime answers) startRecording)
            (startRotationTimer answers)) fun node =>
          { node.resetWriter with
            currentBagPath := ""
            recording := false
            armed := false }.scheduleRetry
  else if node.armed = false then node
  else
    let node := { node with armed := false, recording := false }
    let node := if node.cfg.armRecordEnabled then node.stopRotationTimer else node
    node.closeWriter

/-- The slices on which `disk_check_cb` calls `remove_dir`, and the answers left. -/
def selectOldest (node : BagRecorderNode) : List String → List Int → List String × List Int
  | [], free => ([], free)
  | name :: rest, free =>
      if free.headD (-1) < 0 ∨ node.cfg.minRecordingFreeSpaceMb ≤ free.headD (-1) then
        ([], free.tail)
      else if node.fullPath name = node.currentBagPath then selectOldest node rest free.tail
      else
        let (removed, free) := selectOldest node rest free.tail
        (name :: removed, free)

/-- The inactive slices that the scan finds, sorted. -/
def inactiveSlices (node : BagRecorderNode) : List String :=
  let dirs := node.entries.filter fun entry =>
    node.isVisible answers entry && entry.kind == .directory
  (dirs.map (·.name)).insertionSort (· ≤ ·)

/-- Links in the storage directory that the scan removes. They are seen only where the
file system does not report types. -/
def strayLinks (node : BagRecorderNode) : List String :=
  (node.entries.filter fun entry => node.isVisible answers entry && answers.typesUnknown &&
    entry.kind != .directory && entry.kind != .file).map (·.name)

def diskCheckCb (node : BagRecorderNode) : BagRecorderNode :=
  let free := answers.freeMb.headD (-1)
  if node.recording = false then node
  else if free < 0 then node
  else if node.cfg.minRecordingFreeSpaceMb ≤ free then node
  else
    let dirs := if answers.opendirFails then [] else node.inactiveSlices answers
    let links := if answers.opendirFails then [] else node.strayLinks answers
    let (removed, later) := node.selectOldest dirs answers.freeMb.tail
    let node := (links ++ removed).foldl (removeDir answers) (node.record (.cleaned dirs removed))
    if 0 ≤ later.headD (-1) ∧ later.headD (-1) < node.cfg.minRecordingFreeSpaceMb then
      { node with recording := false }.stopRotationTimer.closeWriter.scheduleRetry
    else node

/-- What the constructor does before its `try` block when it records at once. -/
def prepareBoot (node : BagRecorderNode) : BagRecorderNode :=
  (node.ensureStorageDir answers).cleanupOldBags answers

/-- The members before the constructor runs, in surroundings that earlier nodes have left. -/
def restarted (earlier : BagRecorderNode) : BagRecorderNode :=
  { cfg := earlier.cfg, storage := earlier.storage, writers := earlier.writers
    log := earlier.log }

/-- The constructor. -/
def boot (earlier : BagRecorderNode) : BagRecorderNode :=
  let node := earlier.restarted
  let node :=
    if node.cfg.armRecordEnabled then node
    else
      tryCatch (andThen (andThen ((node.prepareBoot answers).openNewBag localtime answers)
          startRecording) (startRotationTimer answers)) fun node =>
        { node.resetWriter with currentBagPath := "", recording := false }.scheduleRetry
  node.ensureStorageDir answers

end Callbacks

end BagRecorderNode

/-! ## Runs -/

/-- What makes the node act. -/
inductive Request where
  /-- A message of the flight controller. -/
  | state (armed : Bool)
  | rotate
  | retry
  | diskCheck
  /-- A message of a recorded topic. -/
  | message (topic : String)
  /-- The node is started again, without having been shut down. -/
  | reboot
  /-- Somebody else changes the storage directory. -/
  | outside (storage : Option Storage)
  deriving DecidableEq, Repr

structure Label where
  request : Request
  answers : Answers := {}
  deriving DecidableEq, Repr

/-- Only a node that waits for arming subscribes to the state of the flight controller,
and a timer fires only while it is set. -/
def step (localtime : Int → Option Tm) (node : BagRecorderNode) (label : Label) :
    BagRecorderNode :=
  match label.request with
  | .state armed =>
      if node.cfg.armRecordEnabled then node.armStateCb localtime label.answers armed else node
  | .rotate => if node.rotationTimer then node.rotateBag localtime label.answers else node
  | .retry => if node.retryTimer then node.retryOpenBag localtime label.answers else node
  | .diskCheck => node.diskCheckCb label.answers
  | .message topic => node.writeMessage topic
  | .reboot => BagRecorderNode.boot localtime label.answers node
  | .outside storage => { node with storage }

/-- The first start, with whatever is in the storage directory. -/
def initial (localtime : Int → Option Tm) (cfg : Config) (storage : Option Storage)
    (answers : Answers) : BagRecorderNode :=
  BagRecorderNode.boot localtime answers { cfg, storage }

end AcflyRos.BagLogd
