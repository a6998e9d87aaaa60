import AcflyRos.OdinDriver.Device

/-! # The sequence of calls for an attached device

What a stage of the device callback needs of the handle, the stages before it have brought about,
whatever the configuration and the state in which the device was found. The callback takes its
handle to be in the state in which its own calls have left it.
-/

namespace AcflyRos.OdinDriver.Device

open AcflyRos.Typestates

/-! ## Calls that change nothing -/

/-- The functions that leave a handle as it is. -/
def Function.isPlain : Function → Bool
  | .setCustomParameter _ => true
  | .setImageMask => true
  | .setRelocalizationMap => true
  | .activateStreamType _ => true
  | .deactivateStreamType _ => true
  | .getAeInfo => true
  | .getAwbInfo => true
  | .setAeParam => true
  | .setAwbParam => true
  | .saveMap => true
  | _ => false

/-- The typical sequence has these earlier than the driver. -/
def Function.isLate : Function → Bool
  | .registerStreamCallback => true
  | .activateStreamType _ => true
  | _ => false

/-- The driver's place for the function agrees with what the header says. -/
def Rules.Permits (rules : Rules) (function : Function) : Prop :=
  rules = .quickStart → function.isLate = false

theorem permits_of_not_late {function : Function} (hlate : function.isLate = false)
    (rules : Rules) : rules.Permits function := fun _ => hlate

theorem allowed_of_isPlain {function : Function} (hplain : function.isPlain = true)
    (hlate : function.isLate = false) (rules : Rules) (status : Status) :
    function.Allowed rules status ↔ status.phase.IsLive := by
  cases function <;> first | exact Iff.rfl | (cases hplain; done) | cases hlate

/-- A stream type is activated on a handle whose stream is started. -/
theorem allowed_of_started {function : Function} (hplain : function.isPlain = true)
    {status : Status} (hlive : status.phase.IsLive)
    (hstarted : function.isLate = true → status.started = true) (rules : Rules) :
    function.Allowed rules status ↔ rules.Permits function := by
  by_cases hlate : function.isLate = true
  · cases function with
    | activateStreamType type => simp [Function.Allowed, Rules.Permits, hlive, hlate, hstarted]
    | _ => first | (cases hplain; done) | cases hlate
  · have hearly : function.isLate = false := by simpa using hlate
    exact iff_of_true ((allowed_of_isPlain hplain hearly rules status).mpr hlive)
      (permits_of_not_late hearly rules)

theorem after_of_isPlain {function : Function} (hplain : function.isPlain = true)
    (status : Status) : function.after status = status := by
  cases function <;> first | rfl | cases hplain

theorem isFinal_of_isPlain {function : Function} (hplain : function.isPlain = true) :
    function.isFinal = false := by
  cases function <;> first | rfl | cases hplain

/-! ## What the callback is ready for -/

/-- The handle, if there is one, can be used. -/
def Usable (current : Option Status) : Prop := ∀ status ∈ current, status.phase.IsLive

/-- There is a handle; it can be used, and its device is not streaming. -/
def Quiet (current : Option Status) : Prop :=
  ∃ status, current = some status ∧ status.phase.IsLive ∧ status.phase ≠ .streaming

/-- The handle is in a state that fits the stages to come. -/
def Ready : Option Status → List Stage → Prop
  | current, [] => Usable current
  | current, .checkUsb _ :: rest => Usable current ∧ Ready current rest
  | current, .forgetDevice :: rest => Usable current ∧ Ready none rest
  | current, .createDevice isOpen :: rest =>
      current = none ∧ Ready (some ⟨if isOpen then .opened else .created, false, false⟩) rest
  | current, .checkTimeout :: rest => Quiet current ∧ Ready current rest
  | current, .checkVersion _ :: rest => Quiet current ∧ Ready current rest
  | current, .enableLog :: rest => Quiet current ∧ Ready current rest
  | current, .call function failure :: rest =>
      ∃ status, current = some status ∧ status.phase.IsLive ∧
        (∀ rules : Rules, function.Allowed rules status ↔ rules.Permits function) ∧
        function.isFinal = false ∧ Ready (some (function.after status)) rest ∧
        (failure = .proceed → Ready current rest) ∧
        (failure = .destroy → status.phase = .created) ∧
        (status.phase = .streaming → function.isPlain = true ∧ failure = .proceed)
  | current, .applyCustomParameters _ :: rest => Quiet current ∧ Ready current rest
  | current, .relocalize _ :: rest => Quiet current ∧ Ready current rest
  | current, .exit :: _ => Quiet current
  | current, .connected :: rest =>
      ∃ status, current = some status ∧ status.phase = .streaming ∧ rest = []

/-- Calls of functions that leave the handle as it is do not matter. -/
theorem ready_plain (functions : List Function) {status : Status} {rest : List Stage}
    (hplain : ∀ function ∈ functions, function.isPlain = true ∧
      (function.isLate = true → status.started = true))
    (hlive : status.phase.IsLive) (hrest : Ready (some status) rest) :
    Ready (some status) (functions.map (Stage.call · .proceed) ++ rest) := by
  induction functions with
  | nil => exact hrest
  | cons function functions ih =>
      obtain ⟨⟨hfunction, hstarted⟩, hfunctions⟩ := List.forall_mem_cons.mp hplain
      have hlater := ih hfunctions
      refine ⟨status, rfl, hlive, allowed_of_started hfunction hlive hstarted,
        isFinal_of_isPlain hfunction, ?_, fun _ => hlater, by simp, fun _ => ⟨hfunction, rfl⟩⟩
      rw [after_of_isPlain hfunction]
      exact hlater

theorem ready_streamTypes (cfg : Config) :
    Ready (some ⟨.streaming, true, true⟩) (cfg.streamTypes ++ [.connected]) := by
  have hfunctions : cfg.streamTypes = [if cfg.sendrgb || cfg.sendrgbCompressed then
      Function.activateStreamType .rawRgb else .deactivateStreamType .rawRgb,
      if cfg.sendimu then .activateStreamType .rawImu else .deactivateStreamType .rawImu,
      if cfg.sendodom then .activateStreamType .slamOdometry
        else .deactivateStreamType .slamOdometry,
      if cfg.senddtof then .activateStreamType .rawDtof else .deactivateStreamType .rawDtof,
      if cfg.sendcloudslam then .activateStreamType .slamCloud
        else .deactivateStreamType .slamCloud].map (Stage.call · .proceed) := rfl
  rw [hfunctions]
  refine ready_plain _ ?_ (by decide) ⟨_, rfl, rfl, rfl⟩
  intro function hfunction
  refine ⟨?_, fun _ => rfl⟩
  simp only [List.mem_cons, List.not_mem_nil, or_false] at hfunction
  rcases hfunction with rfl | rfl | rfl | rfl | rfl <;> split <;> rfl

/-- A call of which nothing but its name matters. -/
theorem ready_call {function : Function} {failure : Next} {status : Status} {rest : List Stage}
    (hlive : status.phase.IsLive)
    (hallowed : ∀ rules : Rules, function.Allowed rules status ↔ rules.Permits function)
    (hfinal : function.isFinal = false) (hrest : Ready (some (function.after status)) rest)
    (hproceed : failure ≠ .proceed) (hdestroy : failure = .destroy → status.phase = .created)
    (hquiet : status.phase ≠ .streaming) :
    Ready (some status) (.call function failure :: rest) :=
  ⟨status, rfl, hlive, hallowed, hfinal, hrest, fun heq => absurd heq hproceed, hdestroy,
    fun heq => absurd heq hquiet⟩

/-- A call that has its place also in the typical sequence. -/
theorem allowed_early {function : Function} {status : Status}
    (hallowed : ∀ rules, function.Allowed rules status) (hlate : function.isLate = false)
    (rules : Rules) : function.Allowed rules status ↔ rules.Permits function :=
  iff_of_true (hallowed rules) (permits_of_not_late hlate rules)

theorem ready_single (function : Function) (condition : Bool) {status : Status} {rest : List Stage}
    (hplain : function.isPlain = true) (hlate : function.isLate = false)
    (hlive : status.phase.IsLive) (hrest : Ready (some status) rest) :
    Ready (some status) ((if condition then [.call function .proceed] else []) ++ rest) := by
  cases condition with
  | true => exact ready_plain [function] (by simp [hplain, hlate]) hlive hrest
  | false => exact hrest

theorem ready_configuredStages (cfg : Config) (device : DeviceInfo) :
    Ready (some ⟨.configured, false, false⟩) (cfg.configuredStages device) := by
  have hlive : Phase.IsLive .configured := by decide
  have hquiet : Quiet (some ⟨.configured, false, false⟩) := ⟨_, rfl, hlive, by simp⟩
  have hregister (rules : Rules) : Function.registerStreamCallback.Allowed rules
      ⟨.configured, false, false⟩ ↔ rules.Permits .registerStreamCallback := by
    simp [Function.Allowed, Rules.Permits, Function.isLate, hlive]
  have hstream : Ready (some ⟨.configured, false, false⟩) (.call .registerStreamCallback .close ::
      .call .startStream .close :: (cfg.streamTypes ++ [.connected])) :=
    ready_call hlive hregister rfl
      (ready_call hlive (allowed_early (fun _ => ⟨rfl, rfl⟩) rfl) rfl (ready_streamTypes cfg)
        (by simp) (by simp) (by simp [Function.after]))
      (by simp) (by simp) (by simp)
  have hlater := ready_single .setImageMask (cfg.sendImageMask && device.imageMaskExists) rfl rfl
    hlive (ready_single (.setCustomParameter "algo_reset") cfg.resetAlgo rfl rfl hlive hstream)
  refine ⟨hquiet, ?_⟩
  unfold Config.mapStages
  split
  next =>
    exact ready_plain [.setCustomParameter "save_map"] (by simp [Function.isPlain, Function.isLate])
      hlive hlater
  next =>
    split
    next => exact ⟨hquiet, hlater⟩
    next => exact hlater

theorem ready_opened (cfg : Config) (device : DeviceInfo) (retrieves : Bool) :
    Ready (some ⟨.opened, false, false⟩)
      ((if retrieves then [.call .getCalibFile .close] else []) ++
        (.call (.setDepthParameter cfg.depthOdr) .leave :: .call .setMode .close ::
          cfg.configuredStages device)) := by
  have hlive : Phase.IsLive .opened := by decide
  have hmode : Ready (some ⟨.opened, false, false⟩)
      (.call (.setDepthParameter cfg.depthOdr) .leave :: .call .setMode .close ::
        cfg.configuredStages device) :=
    ready_call hlive (allowed_early (fun _ => ⟨hlive, rfl⟩) rfl) rfl
      (ready_call hlive (allowed_early (fun _ => rfl) rfl) rfl (ready_configuredStages cfg device)
        (by simp) (by simp) (by simp [Function.after]))
      (by simp) (by simp) (by simp)
  cases retrieves with
  | true =>
      exact ready_call hlive (allowed_early (fun _ => hlive) rfl) rfl hmode (by simp) (by simp)
        (by simp)
  | false => exact hmode

theorem ready_attachStages (cfg : Config) (device : DeviceInfo) {current : Option Status}
    (husable : Usable current) : Ready current (cfg.attachStages device) := by
  have hneeds : ∀ needs : Bool, Ready (some ⟨if !needs then .opened else .created, false, false⟩)
      ((if needs then [.call .openDevice .destroy] else []) ++
        ((if getCalibFile device.initialState then [.call .getCalibFile .close] else []) ++
          (.call (.setDepthParameter cfg.depthOdr) .leave :: .call .setMode .close ::
            cfg.configuredStages device))) := by
    intro needs
    cases needs with
    | true =>
        exact ready_call (by decide) (allowed_early (fun _ => rfl) rfl) rfl
          (ready_opened cfg device _) (by simp) (by simp) (by simp)
    | false => exact ready_opened cfg device _
  unfold Config.attachStages
  generalize needOpenDevice device.initialState = needs at *
  have hlive : Phase.IsLive (if !needs then .opened else .created) := by cases needs <;> decide
  have hquiet : Quiet (some ⟨if !needs then .opened else .created, false, false⟩) :=
    ⟨_, rfl, hlive, by cases needs <;> simp⟩
  refine ⟨husable, husable, rfl, hquiet, ?_⟩
  refine ready_call hlive (allowed_early (fun _ => hlive) rfl) rfl ⟨hquiet, ?_⟩ (by simp) (by simp)
    (by cases needs <;> simp)
  have hopen : Ready (some ⟨if !needs then .opened else .created, false, false⟩)
      ((if device.initialState = .streaming then [.exit] else []) ++
        ((if needs then [.call .openDevice .destroy] else []) ++
          ((if getCalibFile device.initialState then [.call .getCalibFile .close] else []) ++
            (.call (.setDepthParameter cfg.depthOdr) .leave :: .call .setMode .close ::
              cfg.configuredStages device)))) := by
    by_cases hstreaming : device.initialState = .streaming
    · rw [if_pos hstreaming]
      exact hquiet
    · rw [if_neg hstreaming]
      exact hneeds needs
  cases cfg.saveLog with
  | true => exact ⟨hquiet, hopen⟩
  | false => exact hopen

theorem Quiet.usable {current : Option Status} (h : Quiet current) : Usable current := by
  obtain ⟨status, rfl, hlive, -⟩ := h
  rintro _ ⟨⟩
  exact hlive

theorem Ready.usable {current : Option Status} {todo : List Stage} (h : Ready current todo) :
    Usable current := by
  cases todo with
  | nil => exact h
  | cons stage rest =>
      cases stage with
      | checkUsb | forgetDevice => exact h.1
      | createDevice =>
          rw [h.1]
          exact fun _ hnone => by cases hnone
      | checkTimeout | checkVersion | enableLog | applyCustomParameters | relocalize =>
          exact h.1.usable
      | exit => exact Quiet.usable h
      | call =>
          obtain ⟨status, rfl, hlive, -⟩ := h
          rintro _ ⟨⟩
          exact hlive
      | connected =>
          obtain ⟨status, rfl, hstreaming, -⟩ := h
          rintro _ ⟨⟩
          rw [hstreaming]
          decide

/-! ## One step of the callback -/

/-- The handle is in a state that fits where the callback is. -/
def Fits (current : Option Status) : Callback → Prop
  | .idle => Usable current
  | .attaching todo => Ready current todo
  | .applying _ _ todo => Quiet current ∧ Ready current todo
  | .closing => Quiet current
  | .destroying isClosed =>
      ∃ status, current = some status ∧ status.phase = if isClosed then .closed else .created
  | .forgetting => ∃ status, current = some status ∧ status.phase = .destroyed

/-- Nothing that concerns the handles differs. -/
structure SameBooks (driver next : Driver) : Prop where
  odinDevice : next.odinDevice = driver.odinDevice
  handles : next.handles = driver.handles
  dropped : next.dropped = driver.dropped
  calls : next.calls = driver.calls
  systemUp : next.systemUp = driver.systemUp

theorem SameBooks.refl (driver : Driver) : SameBooks driver driver := ⟨rfl, rfl, rfl, rfl, rfl⟩

/-- What a step of the callback does to the handles, and the state in which it takes its handle to
be before and after. -/
inductive Effect (driver : Driver) (ok : Bool) : Option Status → Driver → Option Status → Prop
  | moves {expected next} (hsame : SameBooks driver next) : Effect driver ok expected next expected
  | calls {status function next} (hphase : status.phase ≠ .released)
      (hallowed : ∀ rules : Rules, function.Allowed rules status ↔ rules.Permits function)
      (hbroad : function.isBroad = false)
      (hquiet : status.phase = .streaming → function.isPlain = true)
      (hsame : SameBooks (driver.call function ok) next) :
      Effect driver ok (some status) next (some (sdk.after (function, ok) status))
  | applies {expected handle name names todo next}
      (happlying : driver.callback = .applying handle (name :: names) todo)
      (hsame : SameBooks { driver with
        calls := ⟨handle, (.setCustomParameter name, ok)⟩ :: driver.calls } next) :
      Effect driver ok expected next expected
  | logs {expected next} (hsame : SameBooks { driver with
        calls := ⟨none, (.enableEncryptedDeviceLog, ok)⟩ :: driver.calls } next) :
      Effect driver ok expected next expected
  | creates {isOpen next} (hsame : SameBooks (driver.createDevice isOpen ok) next) :
      Effect driver ok none next
        (if ok then some ⟨if isOpen then .opened else .created, false, false⟩ else none)
  | drops {expected next} (husable : Usable expected) (hsame : SameBooks { driver with
        odinDevice := none, dropped := driver.odinDevice.toList ++ driver.dropped } next) :
      Effect driver ok expected next none
  | releases {status next} (hdestroyed : status.phase = .destroyed)
      (hsame : SameBooks { driver with odinDevice := none } next) :
      Effect driver ok (some status) next none

theorem isBroad_of_not_final {function : Function} (hfinal : function.isFinal = false) :
    function.isBroad = false := by
  cases function with
  | systemDeinit => cases hfinal
  | _ => rfl

theorem Phase.IsLive.not_released {phase : Phase} (h : phase.IsLive) : phase ≠ .released := h.2.2.2

/-- A function that is not final and fails leaves the handle as it is. -/
theorem after_failed {function : Function} {status : Status} (hfinal : function.isFinal = false) :
    sdk.after (function, false) status = status := by
  simp [sdk, hfinal]

theorem after_ok {function : Function} {status : Status} (hphase : status.phase ≠ .released) :
    sdk.after (function, true) status = function.after status := by
  simp [sdk, hphase]

theorem after_final {function : Function} {ok : Bool} {status : Status}
    (hphase : status.phase ≠ .released) (hfinal : function.isFinal = true) :
    sdk.after (function, ok) status = function.after status := by
  simp [sdk, hphase, hfinal]

theorem after_plain {function : Function} (hplain : function.isPlain = true) (ok : Bool)
    (status : Status) : sdk.after (function, ok) status = status := by
  simp [sdk, after_of_isPlain hplain]

namespace Driver

variable {driver next : Driver} {expected : Option Status} {ok : Bool}

/-- What goes on must fit the handle. -/
def FitsNext (current : Option Status) (rest : List Stage) : Next → Prop
  | .proceed => Ready current rest
  | .leave => Usable current
  | .destroy => ∃ status, current = some status ∧ status.phase = .created
  | .close => Quiet current
  | .exit => True

theorem sameBooks_go (h : SameBooks driver next) (goal : Next) (rest : List Stage) :
    SameBooks driver (next.go goal rest) := by
  cases goal <;> exact ⟨h.odinDevice, h.handles, h.dropped, h.calls, h.systemUp⟩

theorem fits_go {goal : Next} {rest : List Stage} (hfits : FitsNext expected rest goal)
    (hruns : (driver.go goal rest).exited = false) :
    Fits expected (driver.go goal rest).callback := by
  cases goal with
  | proceed | leave | destroy | close => exact hfits
  | exit => cases hruns

/-- A step has its effect, and unless the process ends the handle fits what comes next. -/
def Steps (driver : Driver) (ok : Bool) (expected : Option Status) (next : Driver) : Prop :=
  ∃ after, Effect driver ok expected next after ∧
    (next.exited = false → Fits after next.callback)

/-- A stage that changes nothing but where the callback is. -/
theorem steps_moves {goal : Next} {rest : List Stage} (hfits : FitsNext expected rest goal) :
    Steps driver ok expected (driver.go goal rest) :=
  ⟨expected, .moves (sameBooks_go (SameBooks.refl driver) goal rest), fits_go hfits⟩

theorem steps_call {function : Function} {failure : Next} {rest : List Stage}
    (hready : Ready expected (.call function failure :: rest)) : Steps driver ok expected
      ((driver.call function ok).go (if ok then .proceed else failure) rest) := by
  obtain ⟨status, rfl, hlive, hallowed, hfinal, hrest, hproceed, hdestroy, hquiet⟩ := hready
  refine ⟨_, .calls hlive.not_released hallowed (isBroad_of_not_final hfinal)
    (fun hstreaming => (hquiet hstreaming).1) (sameBooks_go (SameBooks.refl _) _ _), fits_go ?_⟩
  cases ok with
  | true =>
      rw [after_ok hlive.not_released]
      exact hrest
  | false =>
      rw [after_failed hfinal]
      cases failure with
      | proceed => exact hproceed rfl
      | leave =>
          rintro _ ⟨⟩
          exact hlive
      | destroy => exact ⟨status, rfl, hdestroy rfl⟩
      | close => exact ⟨status, rfl, hlive, fun heq => by cases (hquiet heq).2⟩
      | exit => trivial

theorem steps_perform {stage : Stage} {rest : List Stage}
    (hready : Ready expected (stage :: rest)) :
    Steps driver ok expected (driver.perform ok stage rest) := by
  cases stage with
  | checkUsb isUsb3OrHigher =>
      refine steps_moves ?_
      split
      next => exact hready.2
      next => trivial
  | forgetDevice =>
      have hnext : FitsNext none rest .proceed := hready.2
      exact ⟨none, .drops hready.1 (sameBooks_go (SameBooks.refl _) .proceed rest), fits_go hnext⟩
  | createDevice isOpen =>
      obtain ⟨rfl, hrest⟩ := hready
      refine ⟨_, .creates (sameBooks_go (SameBooks.refl _) _ rest), fits_go ?_⟩
      cases ok with
      | true => exact hrest
      | false => exact fun _ hnone => by cases hnone
  | checkTimeout =>
      obtain ⟨hquiet, hrest⟩ := hready
      cases ok with
      | true =>
          have hnext : FitsNext expected rest .proceed := hrest
          exact steps_moves hnext
      | false =>
          have hsame : SameBooks driver { driver with connectionTimeout := true } :=
            ⟨rfl, rfl, rfl, rfl, rfl⟩
          refine ⟨expected, .moves (sameBooks_go hsame _ rest), fits_go ?_⟩
          split
          next => exact hquiet.usable
          next => exact hquiet
  | checkVersion socVersion =>
      refine steps_moves ?_
      split
      next => trivial
      next => exact hready.2
  | enableLog =>
      refine ⟨expected, .logs (sameBooks_go (SameBooks.refl _) _ rest), fits_go ?_⟩
      split
      next => exact hready.2
      next => exact hready.1
  | call function failure => exact steps_call hready
  | applyCustomParameters names =>
      exact ⟨expected, .moves ⟨rfl, rfl, rfl, rfl, rfl⟩, fun _ => hready⟩
  | relocalize retryTime =>
      obtain ⟨⟨status, rfl, hlive, hquiet⟩, hrest⟩ := hready
      cases retryTime with
      | zero =>
          have hnext : FitsNext (some status) rest .close := ⟨status, rfl, hlive, hquiet⟩
          exact steps_moves hnext
      | succ retryTime =>
          have hallowed (rules : Rules) : Function.setRelocalizationMap.Allowed rules status :=
            hlive
          refine ⟨_, .calls hlive.not_released (allowed_early hallowed rfl) rfl (fun _ => rfl)
            (sameBooks_go (SameBooks.refl _) .proceed _), fits_go ?_⟩
          rw [after_plain rfl]
          cases ok with
          | true => exact hrest
          | false => exact ⟨⟨status, rfl, hlive, hquiet⟩, hrest⟩
  | exit =>
      have hnext : FitsNext expected rest .exit := trivial
      exact steps_moves hnext
  | connected =>
      obtain ⟨-, -, -, hdone⟩ := id hready
      have hsame : SameBooks driver
          { driver with deviceConnected := true, deviceDisconnected := false } :=
        ⟨rfl, rfl, rfl, rfl, rfl⟩
      refine ⟨expected, .moves (sameBooks_go hsame .proceed rest), fits_go ?_⟩
      rw [hdone]
      exact hready.usable

/-- A step of the callback. -/
theorem steps_stepCallback (ok : Bool) (hfits : Fits expected driver.callback) :
    Steps driver ok expected (driver.stepCallback ok) := by
  unfold Driver.stepCallback
  split
  next => exact ⟨expected, .moves (SameBooks.refl driver), fun _ => hfits⟩
  next hcallback =>
    rw [hcallback] at hfits
    exact ⟨expected, .moves ⟨rfl, rfl, rfl, rfl, rfl⟩, fun _ => hfits⟩
  next stage rest hcallback =>
    rw [hcallback] at hfits
    exact steps_perform hfits
  next hcallback =>
    rw [hcallback] at hfits
    exact ⟨expected, .moves ⟨rfl, rfl, rfl, rfl, rfl⟩, fun _ => hfits.2⟩
  next hcallback =>
    rw [hcallback] at hfits
    exact ⟨expected, .applies hcallback ⟨rfl, rfl, rfl, rfl, rfl⟩, fun _ => hfits⟩
  next hcallback =>
    rw [hcallback] at hfits
    obtain ⟨status, rfl, hlive, hquiet⟩ := hfits
    have hallowed (rules : Rules) : Function.closeDevice.Allowed rules status := hlive
    refine ⟨_, .calls hlive.not_released (allowed_early hallowed rfl) rfl
      (fun hstreaming => absurd hstreaming hquiet) ⟨rfl, rfl, rfl, rfl, rfl⟩, fun _ => ?_⟩
    rw [after_final hlive.not_released rfl]
    exact ⟨_, rfl, rfl⟩
  next isClosed hcallback =>
    rw [hcallback] at hfits
    obtain ⟨status, rfl, hphase⟩ := hfits
    have hreleased : status.phase ≠ .released := by
      rw [hphase]
      split <;> simp
    have hallowed (rules : Rules) : Function.destroyDevice.Allowed rules status := by
      show status.phase = .created ∨ status.phase = .closed
      rw [hphase]
      cases isClosed <;> simp
    refine ⟨_, .calls hreleased (allowed_early hallowed rfl) rfl (fun hstreaming => ?_)
      ⟨rfl, rfl, rfl, rfl, rfl⟩, fun _ => ?_⟩
    · rw [hstreaming] at hphase
      cases isClosed <;> cases hphase
    · rw [after_final hreleased rfl]
      exact ⟨_, rfl, rfl⟩
  next hcallback =>
    rw [hcallback] at hfits
    obtain ⟨status, rfl, hdestroyed⟩ := hfits
    exact ⟨none, .releases hdestroyed ⟨rfl, rfl, rfl, rfl, rfl⟩, fun _ _ hnone => by cases hnone⟩

end Driver

end AcflyRos.OdinDriver.Device
