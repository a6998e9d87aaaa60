import AcflyRos.Foundation.Transition
import AcflyRos.Foundation.Typestates

/-! # The device behind the driver

The driver (`host_sdk_sample.cpp`) reaches the sensor through a vendor library, whose functions take
a handle. A thread of that library runs `lidar_device_callback`, which makes a handle when a device
is attached and sets the device up call by call. The main thread serves requests and commands on the
handle and a thread of its own saves the map. A signal, or the end of the main thread, ends the
process, which takes a number of steps during which the other threads go on. All of them share the
global `odinDevice` without a lock, so that their steps come in any order.
-/

namespace AcflyRos.OdinDriver.Device

open AcflyRos.Transition AcflyRos.Typestates

/-! ## The library -/

/-- `lidar_data_type_e`, of which these are switched on or off. -/
inductive DataType where
  | rawRgb
  | rawImu
  | slamOdometry
  | rawDtof
  | slamCloud
  deriving DecidableEq, Repr

/-- `lidar_depth_odr_e` -/
inductive DepthOdr where
  | hz10
  | hz14_5
  | hz29
  deriving DecidableEq, Repr

/-- The functions that take or make a handle, and the one that ends the library. -/
inductive Function where
  /-- The handle is made; the device may be open from an earlier session. -/
  | createDevice (isOpen : Bool)
  | getVersion
  | enableEncryptedDeviceLog
  | openDevice
  | getCalibFile
  | setDepthParameter (odr : DepthOdr)
  | setMode
  | setCustomParameter (name : String)
  | setRelocalizationMap
  | setImageMask
  | registerStreamCallback
  | startStream
  | activateStreamType (type : DataType)
  | deactivateStreamType (type : DataType)
  | getAeInfo
  | getAwbInfo
  | setAeParam
  | setAwbParam
  | saveMap
  | stopStream
  | unregisterStreamCallback
  | closeDevice
  | destroyDevice
  | systemDeinit
  deriving DecidableEq, Repr

inductive Phase where
  | absent
  | created
  | opened
  /-- The mode is set. -/
  | configured
  | streaming
  | closed
  | destroyed
  /-- The library has ended. -/
  | released
  deriving DecidableEq, Repr

/-- What the library knows of a handle. -/
structure Status where
  phase : Phase
  /-- There is a stream callback. -/
  registered : Bool
  /-- The stream has been started before. -/
  started : Bool
  deriving DecidableEq, Repr

/-- The handle can be used. -/
def Phase.IsLive (phase : Phase) : Prop :=
  phase ≠ .absent ∧ phase ≠ .closed ∧ phase ≠ .destroyed ∧ phase ≠ .released

instance (phase : Phase) : Decidable phase.IsLive := inferInstanceAs (Decidable (_ ∧ _))

/-- What `lidar_api.h` says about the order of calls: the notes on the functions, or also the
sequence of calls and the flow that it calls typical. -/
inductive Rules where
  | notes
  | quickStart
  deriving DecidableEq, Repr

namespace Function

/-- The depth parameter and the mode are set before the stream is started, the mode once the device
is open, the stream is started after that and with a callback, and a handle is destroyed when the
device is not open. In the typical sequence, moreover, the callback is registered before the device
is opened, and the types of streams are activated before the stream is started. Calls of the
sequence may be left out, and a stopped stream may be started again. -/
def Allowed (rules : Rules) (function : Function) (status : Status) : Prop :=
  match function with
  | .createDevice _ => status.phase = .absent
  | .openDevice => status.phase = .created
  | .setDepthParameter _ => status.phase.IsLive ∧ status.started = false
  | .setMode => status.phase = .opened
  | .registerStreamCallback =>
      status.phase.IsLive ∧ status.started = false ∧
        (rules = .quickStart → status.phase = .created)
  | .startStream => status.phase = .configured ∧ status.registered = true
  | .activateStreamType _ => status.phase.IsLive ∧ (rules = .quickStart → status.started = false)
  | .destroyDevice => status.phase = .created ∨ status.phase = .closed
  | _ => status.phase.IsLive

instance (rules : Rules) (function : Function) (status : Status) :
    Decidable (function.Allowed rules status) := by
  cases function <;> unfold Allowed <;> infer_instance

/-- What becomes of the handle when the function succeeds. -/
def after (function : Function) (status : Status) : Status :=
  match function with
  | .createDevice isOpen => ⟨if isOpen then .opened else .created, false, false⟩
  | .openDevice => { status with phase := .opened }
  | .setMode => { status with phase := .configured }
  | .registerStreamCallback => { status with registered := true }
  | .unregisterStreamCallback => { status with registered := false }
  | .startStream => { status with phase := .streaming, started := true }
  | .stopStream =>
      { status with phase := if status.phase = .streaming then .configured else status.phase }
  | .closeDevice => { status with phase := .closed }
  | .destroyDevice => { status with phase := .destroyed }
  | .systemDeinit => { status with phase := .released }
  | _ => status

/-- The driver does not look at the result of these. -/
def isFinal : Function → Bool
  | .closeDevice => true
  | .destroyDevice => true
  | .systemDeinit => true
  | _ => false

def isBroad : Function → Bool
  | .systemDeinit => true
  | _ => false

end Function

/-- A function and whether it succeeds. -/
abbrev Answered := Function × Bool

/-- Nothing is made or changed after the library has ended. -/
def sdk : Protocol Answered Status where
  fresh := ⟨.absent, false, false⟩
  isBroad answered := answered.1.isBroad
  after answered status :=
    if status.phase ≠ .released ∧ (answered.2 || answered.1.isFinal) then answered.1.after status
    else status

/-! ## The device callback -/

/-- Where the code goes on. -/
inductive Next where
  /-- With the next stage. -/
  | proceed
  /-- `return` -/
  | leave
  /-- The handle is destroyed. -/
  | destroy
  /-- The device is closed and the handle destroyed. -/
  | close
  | exit
  deriving DecidableEq, Repr

inductive Stage where
  | checkUsb (isUsb3OrHigher : Bool)
  /-- `odinDevice = nullptr` -/
  | forgetDevice
  | createDevice (isOpen : Bool)
  /-- Whether the connection took less than 60 seconds. -/
  | checkTimeout
  | checkVersion (socVersion : Nat × Nat × Nat)
  /-- `lidar_enable_encrypted_device_log`, which is given the information about the device where it
  expects the handle. -/
  | enableLog
  | call (function : Function) (failure : Next)
  /-- `YamlParser::applyCustomParameters`, which is given the handle once. -/
  | applyCustomParameters (names : List String)
  /-- `lidar_set_relocalization_map`, so many more times at most. -/
  | relocalize (retryTime : Nat)
  | exit
  | connected
  deriving DecidableEq, Repr

structure Config where
  saveLog : Bool := false
  dtofFps : Int := 145
  /-- The names of the custom parameters, in order. -/
  customParameters : List String := []
  customMapMode : Int := 2
  sendImageMask : Bool := false
  resetAlgo : Bool := false
  sendrgb : Bool := true
  sendrgbCompressed : Bool := true
  sendimu : Bool := true
  sendodom : Bool := true
  senddtof : Bool := true
  sendcloudslam : Bool := false
  deriving DecidableEq, Repr

/-- `lidar_device_initial_state_e` -/
inductive InitialState where
  | none
  | notInitialized
  | initialized
  | streaming
  | streamStopped
  deriving DecidableEq, Repr

/-- A device that is attached, and the files there are for it. -/
structure DeviceInfo where
  initialState : InitialState := .notInitialized
  isUsb3OrHigher : Bool := true
  socVersion : Nat × Nat × Nat := (0, 12, 0)
  relocalizationMapExists : Bool := true
  imageMaskExists : Bool := true
  deriving DecidableEq, Repr

def requiredFirmwareVersion : Nat × Nat × Nat := (0, 12, 0)

/-- `soc_version_too_low` -/
def socVersionTooLow (version : Nat × Nat × Nat) : Bool :=
  decide (version.1 < requiredFirmwareVersion.1) ||
    (decide (version.1 = requiredFirmwareVersion.1) &&
      decide (version.2.1 < requiredFirmwareVersion.2.1)) ||
    (decide (version.1 = requiredFirmwareVersion.1) &&
      decide (version.2.1 = requiredFirmwareVersion.2.1) &&
      decide (version.2.2 < requiredFirmwareVersion.2.2))

def needOpenDevice : InitialState → Bool
  | .initialized => false
  | .streamStopped => false
  | _ => true

def getCalibFile : InitialState → Bool
  | .streamStopped => false
  | _ => true

namespace Config

variable (cfg : Config)

def depthOdr : DepthOdr :=
  if cfg.dtofFps = 100 then .hz10
  else if cfg.dtofFps = 145 then .hz14_5
  else if cfg.dtofFps = 290 then .hz29
  else .hz14_5

def mapStages (device : DeviceInfo) : List Stage :=
  if cfg.customMapMode = 1 then [.call (.setCustomParameter "save_map") .proceed]
  else if cfg.customMapMode = 2 then
    [.relocalize (if device.relocalizationMapExists then 3 else 0)]
  else []

/-- `lidar_activate_stream_type` or `lidar_deactivate_stream_type`. -/
def streamType (type : DataType) (isActive : Bool) : Stage :=
  .call (if isActive then .activateStreamType type else .deactivateStreamType type) .proceed

def streamTypes : List Stage :=
  [streamType .rawRgb (cfg.sendrgb || cfg.sendrgbCompressed), streamType .rawImu cfg.sendimu,
    streamType .slamOdometry cfg.sendodom, streamType .rawDtof cfg.senddtof,
    streamType .slamCloud cfg.sendcloudslam]

/-- What follows once the mode is set. -/
def configuredStages (device : DeviceInfo) : List Stage :=
  .applyCustomParameters cfg.customParameters :: (cfg.mapStages device ++
    ((if cfg.sendImageMask && device.imageMaskExists then [.call .setImageMask .proceed] else []) ++
    ((if cfg.resetAlgo then [.call (.setCustomParameter "algo_reset") .proceed] else []) ++
    (.call .registerStreamCallback .close :: .call .startStream .close ::
      (cfg.streamTypes ++ [.connected])))))

/-- `lidar_device_callback` when a device is attached. -/
def attachStages (device : DeviceInfo) : List Stage :=
  .checkUsb device.isUsb3OrHigher :: .forgetDevice ::
    .createDevice (!needOpenDevice device.initialState) :: .checkTimeout ::
    .call .getVersion .exit :: .checkVersion device.socVersion ::
    ((if cfg.saveLog then [.enableLog] else []) ++
    ((if device.initialState = .streaming then [.exit] else []) ++
    ((if needOpenDevice device.initialState then [.call .openDevice .destroy] else []) ++
    ((if getCalibFile device.initialState then [.call .getCalibFile .close] else []) ++
    (.call (.setDepthParameter cfg.depthOdr) .leave :: .call .setMode .close ::
      cfg.configuredStages device)))))

end Config

/-! ## The threads -/

/-- Where the callback is. -/
inductive Callback where
  | idle
  | attaching (todo : List Stage)
  /-- In `applyCustomParameters`, with the handle it was given and the names to come. -/
  | applying (handle : Option Nat) (names : List String) (todo : List Stage)
  | closing
  /-- About to destroy the handle, whose device was closed before or could not be opened. -/
  | destroying (isClosed : Bool)
  /-- The handle is destroyed, and `odinDevice` still holds it. -/
  | forgetting
  deriving DecidableEq, Repr

/-- What the main thread does with the device. -/
inductive Request where
  | getAe
  | getAwb
  | setAe
  | setAwb
  /-- A `set` command other than `save_map 1`. -/
  | set (name : String)
  deriving DecidableEq, Repr

def Request.function : Request → Function
  | .getAe => .getAeInfo
  | .getAwb => .getAwbInfo
  | .setAe => .setAeParam
  | .setAwb => .setAwbParam
  | .set name => .setCustomParameter name

def Request.isCommand : Request → Bool
  | .set _ => true
  | _ => false

/-- A step of a thread that ends the process. -/
inductive Ending where
  /-- `if (odinDevice)`, with so many steps inside. -/
  | ifDevice (inside : Nat)
  | stopStream
  /-- `odinDevice = nullptr` -/
  | forgetDevice
  | unregisterCallback
  /-- `lidar_system_deinit` -/
  | deinit
  | exit
  deriving DecidableEq, Repr

/-- `signal_handler` -/
def signalHandler : List Ending := [.ifDevice 2, .stopStream, .forgetDevice, .deinit, .exit]

/-- The end of `main` after its loop. -/
def cleanup : List Ending := [.ifDevice 1, .unregisterCallback, .exit]

/-- The end of `main` when no device has been connected: because of the port or an exception, or
because the node is shut down. -/
def giveUp (deinits : Bool) : List Ending := if deinits then [.deinit, .exit] else [.exit]

inductive MainThread where
  /-- No device has been connected yet. -/
  | waiting
  | looping
  /-- The check of `odinDevice` was passed. -/
  | calling (request : Request)
  | ending (todo : List Ending)
  deriving DecidableEq, Repr

def MainThread.isEnding : MainThread → Bool
  | .ending _ => true
  | _ => false

/-- The thread that saves the map. -/
inductive MapTransfer where
  | none
  | spawned
  /-- In `lidar_save_map`. -/
  | inProgress
  deriving DecidableEq, Repr

structure Driver where
  cfg : Config
  odinDevice : Option Nat := none
  deviceConnected : Bool := false
  deviceDisconnected : Bool := false
  connectionTimeout : Bool := false
  callback : Callback := .idle
  main : MainThread := .waiting
  mapTransfer : MapTransfer := .none
  /-- What the signal handlers that run have still to do. -/
  handlers : List (List Ending) := []
  /-- The library has not been ended. -/
  systemUp : Bool := true
  /-- The process has ended. -/
  exited : Bool := false
  /-- Number of handles made so far. -/
  handles : Nat := 0
  /-- The handles that the callback found in `odinDevice` and dropped. -/
  dropped : List Nat := []
  /-- The calls of the library, newest first. -/
  calls : List (Call Nat Answered) := []
  deriving DecidableEq, Repr

inductive Label where
  | attach (device : DeviceInfo)
  | detach
  /-- The next step of the callback, and whether the call or check in it succeeds. -/
  | callback (ok : Bool)
  /-- The main thread goes on from waiting for a device. -/
  | loop
  | check (request : Request)
  | call (ok : Bool)
  | saveMap
  | transfer (ok : Bool)
  | transferred
  /-- A thread enters `signal_handler`. -/
  | signal
  /-- The next step of a signal handler. -/
  | handle (index : Nat) (ok : Bool)
  /-- The main thread stops waiting for a device. -/
  | giveUp (deinits : Bool)
  /-- The loop of the main thread ends. -/
  | leave
  /-- The next step of the main thread that ends the process. -/
  | finish (ok : Bool)
  deriving DecidableEq, Repr

namespace Driver

/-- A call on the handle in `odinDevice`. -/
def call (driver : Driver) (function : Function) (ok : Bool) : Driver :=
  { driver with calls := ⟨driver.odinDevice, (function, ok)⟩ :: driver.calls }

def go (driver : Driver) (next : Next) (rest : List Stage) : Driver :=
  match next with
  | .proceed => { driver with callback := .attaching rest }
  | .leave => { driver with callback := .idle }
  | .destroy => { driver with callback := .destroying false }
  | .close => { driver with callback := .closing }
  | .exit => { driver with exited := true }

/-- Without success, `odinDevice` is left as it is. -/
def createDevice (driver : Driver) (isOpen ok : Bool) : Driver :=
  { driver with
    odinDevice := if ok then some driver.handles else driver.odinDevice
    handles := if ok then driver.handles + 1 else driver.handles
    calls := ⟨some driver.handles, (.createDevice isOpen, ok)⟩ :: driver.calls }

/-- One stage, and the rest of them. -/
def perform (driver : Driver) (ok : Bool) (stage : Stage) (rest : List Stage) : Driver :=
  match stage with
  | .checkUsb isUsb3OrHigher => driver.go (if isUsb3OrHigher then .proceed else .exit) rest
  | .forgetDevice =>
      { driver with
        odinDevice := none
        dropped := driver.odinDevice.toList ++ driver.dropped }.go .proceed rest
  | .createDevice isOpen =>
      (driver.createDevice isOpen ok).go (if ok then .proceed else .leave) rest
  | .checkTimeout =>
      if ok then driver.go .proceed rest
      else { driver with connectionTimeout := true }.go
        (if driver.odinDevice = none then .leave else .close) rest
  | .checkVersion socVersion =>
      driver.go (if socVersionTooLow socVersion then .exit else .proceed) rest
  | .enableLog =>
      { driver with calls := ⟨none, (.enableEncryptedDeviceLog, ok)⟩ :: driver.calls }.go
        (if ok then .proceed else .close) rest
  | .call function failure =>
      (driver.call function ok).go (if ok then .proceed else failure) rest
  | .applyCustomParameters names =>
      { driver with callback := .applying driver.odinDevice names rest }
  | .relocalize 0 => driver.go .close rest
  | .relocalize (retryTime + 1) =>
      (driver.call .setRelocalizationMap ok).go .proceed
        (if ok then rest else .relocalize retryTime :: rest)
  | .exit => driver.go .exit rest
  | .connected =>
      { driver with deviceConnected := true, deviceDisconnected := false }.go .proceed rest

/-- `lidar_device_callback`, one step at a time. -/
def stepCallback (driver : Driver) (ok : Bool) : Driver :=
  match driver.callback with
  | .idle => driver
  | .attaching [] => { driver with callback := .idle }
  | .attaching (stage :: rest) => driver.perform ok stage rest
  | .applying _ [] todo => { driver with callback := .attaching todo }
  | .applying handle (name :: names) todo =>
      { driver with
        calls := ⟨handle, (.setCustomParameter name, ok)⟩ :: driver.calls
        callback := .applying handle names todo }
  | .closing => { driver.call .closeDevice ok with callback := .destroying true }
  | .destroying _ => { driver.call .destroyDevice ok with callback := .forgetting }
  | .forgetting => { driver with odinDevice := none, callback := .idle }

def attach (driver : Driver) (device : DeviceInfo) : Driver :=
  if driver.callback = .idle then
    { driver with callback := .attaching (driver.cfg.attachStages device) }
  else driver

def detach (driver : Driver) : Driver :=
  if driver.callback = .idle then
    { driver with deviceConnected := false, deviceDisconnected := true }
  else driver

def loop (driver : Driver) : Driver :=
  if driver.main = .waiting ∧ driver.deviceConnected then { driver with main := .looping }
  else driver

/-- `process_command_file` is called, and lets a command through. -/
def Commands (driver : Driver) : Prop :=
  driver.main = .looping ∧ driver.deviceDisconnected = false ∧ driver.deviceConnected = true ∧
    driver.odinDevice ≠ none

instance (driver : Driver) : Decidable driver.Commands := inferInstanceAs (Decidable (_ ∧ _))

/-- A service of the node, or `process_command_file`, up to the call. -/
def check (driver : Driver) (request : Request) : Driver :=
  if driver.main = .looping ∧ driver.odinDevice ≠ none ∧
      (request.isCommand = true → driver.Commands) then
    { driver with main := .calling request }
  else driver

def callRequest (driver : Driver) (ok : Bool) : Driver :=
  match driver.main with
  | .calling request => { driver.call request.function ok with main := .looping }
  | _ => driver

/-- The command `set save_map 1`. -/
def saveMap (driver : Driver) : Driver :=
  if driver.Commands ∧ driver.mapTransfer = .none then { driver with mapTransfer := .spawned }
  else driver

def transfer (driver : Driver) (ok : Bool) : Driver :=
  if driver.mapTransfer = .spawned then
    { driver.call .saveMap ok with mapTransfer := .inProgress }
  else driver

def transferred (driver : Driver) : Driver :=
  if driver.mapTransfer = .inProgress then { driver with mapTransfer := .none } else driver

/-- A step of a thread that ends the process. -/
def finish (driver : Driver) (ok : Bool) : Ending → Driver
  | .ifDevice _ => driver
  | .stopStream => driver.call .stopStream ok
  | .forgetDevice => { driver with odinDevice := none }
  | .unregisterCallback => driver.call .unregisterStreamCallback ok
  | .deinit =>
      { driver with systemUp := false, calls := ⟨none, (.systemDeinit, ok)⟩ :: driver.calls }
  | .exit => { driver with exited := true }

/-- What is left to do after a step. -/
def remaining (driver : Driver) : Ending → List Ending → List Ending
  | .ifDevice inside, rest => if driver.odinDevice = none then rest.drop inside else rest
  | _, rest => rest

def signal (driver : Driver) : Driver :=
  { driver with handlers := driver.handlers ++ [signalHandler] }

def handle (driver : Driver) (index : Nat) (ok : Bool) : Driver :=
  match driver.handlers[index]? with
  | some (ending :: rest) =>
      { driver.finish ok ending with
        handlers := driver.handlers.set index (driver.remaining ending rest) }
  | _ => driver

def giveUp (driver : Driver) (deinits : Bool) : Driver :=
  if driver.main = .waiting then { driver with main := .ending (Device.giveUp deinits) }
  else driver

def leave (driver : Driver) : Driver :=
  if driver.main = .looping then { driver with main := .ending cleanup } else driver

def finishMain (driver : Driver) (ok : Bool) : Driver :=
  match driver.main with
  | .ending (ending :: rest) =>
      { driver.finish ok ending with main := .ending (driver.remaining ending rest) }
  | _ => driver

def act (driver : Driver) : Label → Driver
  | .attach device => driver.attach device
  | .detach => driver.detach
  | .callback ok => driver.stepCallback ok
  | .loop => driver.loop
  | .check request => driver.check request
  | .call ok => driver.callRequest ok
  | .saveMap => driver.saveMap
  | .transfer ok => driver.transfer ok
  | .transferred => driver.transferred
  | .signal => driver.signal
  | .handle index ok => driver.handle index ok
  | .giveUp deinits => driver.giveUp deinits
  | .leave => driver.leave
  | .finish ok => driver.finishMain ok

def step (driver : Driver) (label : Label) : Driver :=
  if driver.exited then driver else driver.act label

/-- No thread has begun to end the process. -/
def IsServing (driver : Driver) : Prop :=
  driver.exited = false ∧ driver.handlers = [] ∧ driver.main.isEnding = false

instance (driver : Driver) : Decidable driver.IsServing := inferInstanceAs (Decidable (_ ∧ _))

end Driver

def start (cfg : Config) : Driver := { cfg }

end AcflyRos.OdinDriver.Device
