import AcflyRos.OdinDriver.DeviceHandles

/-! # The order of the calls

The calls of all threads are held against what `lidar_api.h` says about their order, also while the
process is being ended. The threads that end it take the handle away under the callback, stop its
stream, unregister its stream callback or end the library. The callback goes on meanwhile, as if its
handle were in the state in which its own calls have left it.
-/

namespace AcflyRos.OdinDriver.Device

open AcflyRos.Transition AcflyRos.Typestates AcflyRos.History

/-! ## What other threads do to the handle of the callback -/

/-- A handle is as the callback takes it to be, but for a stream that was stopped and a stream
callback that was unregistered. -/
structure Agrees (expected status : Status) : Prop where
  phase : status.phase = expected.phase ∨
    (expected.phase = .streaming ∧ status.phase = .configured)
  registered : status.registered = true → expected.registered = true
  started : status.started = expected.started

namespace Agrees

variable {expected status : Status} {function : Function} {ok : Bool}

theorem refl (status : Status) : Agrees status status := ⟨Or.inl rfl, id, rfl⟩

theorem isLive_iff (h : Agrees expected status) :
    status.phase.IsLive ↔ expected.phase.IsLive := by
  rcases h.phase with heq | ⟨hstreams, hstopped⟩
  · rw [heq]
  · rw [hstreams, hstopped]
    decide

theorem released_iff (h : Agrees expected status) :
    status.phase = .released ↔ expected.phase = .released := by
  rcases h.phase with heq | ⟨hstreams, hstopped⟩
  · rw [heq]
  · rw [hstreams, hstopped]
    decide

/-- A function that succeeds does the same in both states. -/
theorem succeed (h : Agrees expected status) (function : Function) :
    Agrees (function.after expected) (function.after status) := by
  obtain ⟨hphase, hregistered, hstarted⟩ := h
  cases function with
  | stopStream =>
      refine ⟨Or.inl ?_, hregistered, hstarted⟩
      rcases hphase with heq | ⟨hstreams, hstopped⟩
      · simp [Function.after, heq]
      · simp [Function.after, hstreams, hstopped]
  | createDevice => exact refl _
  | openDevice | setMode | closeDevice | destroyDevice | systemDeinit =>
      exact ⟨Or.inl rfl, hregistered, hstarted⟩
  | startStream => exact ⟨Or.inl rfl, hregistered, rfl⟩
  | registerStreamCallback => exact ⟨hphase, id, hstarted⟩
  | unregisterStreamCallback => exact ⟨hphase, id, hstarted⟩
  | _ => exact ⟨hphase, hregistered, hstarted⟩

theorem after (h : Agrees expected status) (function : Function) (ok : Bool) :
    Agrees (sdk.after (function, ok) expected) (sdk.after (function, ok) status) := by
  unfold sdk
  simp only [ne_eq, h.released_iff]
  split
  next => exact h.succeed function
  next => exact h

/-- Another thread stops the stream or unregisters the stream callback. -/
theorem stop (h : Agrees expected status)
    (hstops : function = .stopStream ∨ function = .unregisterStreamCallback) (ok : Bool) :
    Agrees expected (sdk.after (function, ok) status) := by
  show Agrees expected (if _ then function.after status else status)
  split
  next =>
    obtain ⟨hphase, hregistered, hstarted⟩ := h
    rcases hstops with rfl | rfl
    · refine ⟨?_, hregistered, hstarted⟩
      rcases hphase with heq | ⟨hstreams, hstopped⟩
      · by_cases hstreams : expected.phase = .streaming
        · exact Or.inr ⟨hstreams, by simp [Function.after, heq, hstreams]⟩
        · exact Or.inl (by simp [Function.after, heq, hstreams])
      · exact Or.inr ⟨hstreams, by simp [Function.after, hstopped]⟩
    · exact ⟨hphase, (fun hfalse => by cases hfalse), hstarted⟩
  next => exact h

/-- What the callback may call on the handle as it takes it to be, it may call on the handle as it
is, unless the stream is to be started without its callback. -/
theorem allowed_iff (h : Agrees expected status) (rules : Rules)
    (hquiet : expected.phase = .streaming → function.isPlain = true) :
    function.Allowed rules status ↔
      function.Allowed rules expected ∧ (function = .startStream → status.registered = true) := by
  obtain ⟨hphase, hregistered, hstarted⟩ := h
  rcases hphase with heq | ⟨hstreams, hstopped⟩
  · cases function with
    | startStream =>
        simp only [Function.Allowed, heq, forall_const]
        exact ⟨fun h => ⟨⟨h.1, hregistered h.2⟩, h.2⟩, fun h => ⟨h.1.1, h.2⟩⟩
    | _ => simp [Function.Allowed, heq, hstarted]
  · have hplain := hquiet hstreams
    have hlive : status.phase.IsLive ↔ expected.phase.IsLive := by
      rw [hstreams, hstopped]
      decide
    cases function <;> first | (cases hplain; done) | simp [Function.Allowed, hlive, hstarted]

end Agrees

namespace Driver

variable {driver next : Driver} {ok : Bool} {label : Label} {call : Call Nat Answered}

/-- The handle in `odinDevice`, if there is one, agrees with the state in which the callback takes
it to be. -/
def Follows (current expected : Option Status) : Prop :=
  ∀ status ∈ current, ∃ taken ∈ expected, Agrees taken status

theorem follows_none (expected : Option Status) : Follows none expected := fun _ hmem => by
  cases hmem

/-- While the library is up. -/
structure Tracked (driver : Driver) : Prop extends Made driver where
  follows : ∃ expected, Fits expected driver.callback ∧ Follows driver.current expected
  applying : ∀ handle names todo, driver.callback = .applying (some handle) names todo →
    (driver.status handle).phase.IsLive

def Held (driver : Driver) : Prop :=
  if driver.systemUp = true then driver.Tracked
  else ∀ handle, (driver.status handle).phase = .released

/-! ## The next call of a thread -/

def callbackCall (driver : Driver) (ok : Bool) : Option (Call Nat Answered) :=
  match driver.callback with
  | .attaching (.createDevice isOpen :: _) => some ⟨some driver.handles, (.createDevice isOpen, ok)⟩
  | .attaching (.enableLog :: _) => some ⟨none, (.enableEncryptedDeviceLog, ok)⟩
  | .attaching (.call function _ :: _) => some ⟨driver.odinDevice, (function, ok)⟩
  | .attaching (.relocalize (_ + 1) :: _) => some ⟨driver.odinDevice, (.setRelocalizationMap, ok)⟩
  | .applying handle (name :: _) _ => some ⟨handle, (.setCustomParameter name, ok)⟩
  | .closing => some ⟨driver.odinDevice, (.closeDevice, ok)⟩
  | .destroying _ => some ⟨driver.odinDevice, (.destroyDevice, ok)⟩
  | _ => none

def endingCall (driver : Driver) (ok : Bool) : Ending → Option (Call Nat Answered)
  | .stopStream => some ⟨driver.odinDevice, (.stopStream, ok)⟩
  | .unregisterCallback => some ⟨driver.odinDevice, (.unregisterStreamCallback, ok)⟩
  | .deinit => some ⟨none, (.systemDeinit, ok)⟩
  | _ => none

/-- The call that a step makes. -/
def nextCall (driver : Driver) : Label → Option (Call Nat Answered)
  | .callback ok => driver.callbackCall ok
  | .call ok =>
      match driver.main with
      | .calling request => some ⟨driver.odinDevice, (request.function, ok)⟩
      | _ => none
  | .transfer ok =>
      if driver.mapTransfer = .spawned then some ⟨driver.odinDevice, (.saveMap, ok)⟩ else none
  | .handle index ok =>
      match driver.handlers[index]? with
      | some (ending :: _) => driver.endingCall ok ending
      | _ => none
  | .finish ok =>
      match driver.main with
      | .ending (ending :: _) => driver.endingCall ok ending
      | _ => none
  | _ => none

@[simp] theorem calls_go (driver : Driver) (goal : Next) (rest : List Stage) :
    (driver.go goal rest).calls = driver.calls := by
  cases goal <;> rfl

theorem calls_stepCallback (driver : Driver) (ok : Bool) :
    (driver.stepCallback ok).calls = (driver.callbackCall ok).toList ++ driver.calls := by
  unfold Driver.stepCallback
  split
  case h_3 stage rest hcallback =>
    rw [callbackCall, hcallback]
    cases stage with
    | checkTimeout => cases ok <;> exact calls_go _ _ _
    | relocalize retryTime => cases retryTime <;> exact calls_go _ _ _
    | applyCustomParameters => rfl
    | _ => exact calls_go _ _ _
  all_goals
    next hcallback =>
      rw [callbackCall, hcallback]
      rfl

theorem calls_finish (driver : Driver) (ok : Bool) (ending : Ending) :
    (driver.finish ok ending).calls = (driver.endingCall ok ending).toList ++ driver.calls := by
  cases ending <;> rfl

theorem calls_act (driver : Driver) (label : Label) :
    (driver.act label).calls = (driver.nextCall label).toList ++ driver.calls := by
  cases label with
  | callback ok => exact driver.calls_stepCallback ok
  | call ok =>
      show (driver.callRequest ok).calls = _
      unfold Driver.callRequest nextCall
      cases driver.main <;> rfl
  | transfer ok =>
      show (driver.transfer ok).calls = _
      unfold Driver.transfer nextCall
      split <;> rfl
  | handle index ok =>
      show (driver.handle index ok).calls = _
      unfold Driver.handle
      split
      next ending rest hhandler =>
        simp only [nextCall, hhandler]
        exact driver.calls_finish ok ending
      next hnone =>
        simp only [nextCall]
        rfl
  | finish ok =>
      show (driver.finishMain ok).calls = _
      unfold Driver.finishMain
      split
      next ending rest hmain =>
        simp only [nextCall, hmain]
        exact driver.calls_finish ok ending
      next hnone =>
        simp only [nextCall]
        rfl
  | _ =>
      simp [Driver.act, Driver.attach, Driver.detach, Driver.loop, Driver.check, Driver.saveMap,
        Driver.transferred, Driver.signal, Driver.giveUp, Driver.leave, nextCall,
        apply_ite Driver.calls]

/-! ## Steps of the callback -/

theorem not_applying_go {todo rest todo' : List Stage} {goal : Next} {handle : Option Nat}
    {names : List String} (hcallback : driver.callback = .attaching todo) :
    (driver.go goal rest).callback ≠ .applying handle names todo' := by
  cases goal <;> simp [Driver.go, hcallback]

/-- The parameters are applied to the handle that `odinDevice` held at first. -/
theorem applying_stepCallback {handle : Option Nat} {names : List String} {todo : List Stage}
    (hnext : (driver.stepCallback ok).callback = .applying handle names todo) :
    (driver.callback = .attaching (.applyCustomParameters names :: todo) ∧
        handle = driver.odinDevice) ∨
      ∃ name, driver.callback = .applying handle (name :: names) todo := by
  unfold Driver.stepCallback at hnext
  split at hnext
  next hcallback => exact absurd (hcallback.symm.trans hnext) (by simp)
  next => cases hnext
  next stage rest hcallback =>
    cases stage with
    | applyCustomParameters => cases hnext; exact Or.inl ⟨hcallback, rfl⟩
    | checkTimeout => cases ok <;> exact absurd hnext (not_applying_go hcallback)
    | relocalize retryTime => cases retryTime <;> exact absurd hnext (not_applying_go hcallback)
    | _ => exact absurd hnext (not_applying_go hcallback)
  next => cases hnext
  next name _ _ hcallback => cases hnext; exact Or.inr ⟨name, hcallback⟩
  all_goals cases hnext

/-- What the library knows of the handle in `odinDevice` follows the callback. -/
theorem Made.follows_effect {expected after : Option Status} (h : driver.Made)
    (hfollows : Follows driver.current expected)
    (heffect : Effect driver ok expected next after) : Follows next.current after := by
  cases heffect with
  | moves hsame => rwa [current_of_same hsame]
  | calls _ _ _ _ hsame =>
      rw [current_of_same hsame, current_call]
      intro status hmem
      obtain ⟨earlier, hearlier, rfl⟩ := Option.map_eq_some_iff.mp hmem
      obtain ⟨taken, htaken, hagrees⟩ := hfollows earlier hearlier
      obtain rfl := Option.mem_some.mp htaken
      exact ⟨_, rfl, hagrees.after _ ok⟩
  | @applies _ _ name _ _ _ _ hsame =>
      have hplain : (Function.setCustomParameter name).isPlain = true := rfl
      rwa [current, hsame.odinDevice, status_plain hplain hsame.calls rfl]
  | logs hsame => rwa [current, hsame.odinDevice, status_logs hsame.calls]
  | creates hsame =>
      rw [current_of_same hsame]
      cases ok with
      | true =>
          rw [h.current_createDevice]
          rintro _ ⟨⟩
          exact ⟨_, rfl, Agrees.refl _⟩
      | false => rwa [current_createDevice_failed]
  | drops _ hsame =>
      rw [current_of_same hsame]
      exact follows_none _
  | releases _ hsame =>
      rw [current_of_same hsame]
      exact follows_none _

theorem Follows.isLive {current expected : Option Status} (h : Follows current expected)
    (husable : Usable expected) {status : Status} (hmem : status ∈ current) :
    status.phase.IsLive := by
  obtain ⟨taken, htaken, hagrees⟩ := h status hmem
  exact hagrees.isLive_iff.mpr (husable taken htaken)

theorem Tracked.callback (h : driver.Tracked)
    (hruns : (driver.stepCallback ok).exited = false) : (driver.stepCallback ok).Tracked := by
  obtain ⟨expected, hfits, hfollows⟩ := h.follows
  obtain ⟨after, heffect, hnext⟩ := steps_stepCallback ok hfits
  refine ⟨h.toMade.effect heffect, ⟨after, hnext hruns, h.toMade.follows_effect hfollows heffect⟩,
    fun handle names todo happlying => ?_⟩
  rcases applying_stepCallback happlying with ⟨hcallback, hdevice⟩ | ⟨name, hcallback⟩
  · rw [hcallback] at hfits
    have hcalls := driver.calls_stepCallback ok
    rw [callbackCall, hcallback] at hcalls
    rw [status_of_calls hcalls]
    exact hfollows.isLive hfits.1.usable (Option.mem_map_of_mem _ hdevice.symm)
  · have hplain : (Function.setCustomParameter name).isPlain = true := rfl
    have hcalls := driver.calls_stepCallback ok
    rw [callbackCall, hcallback] at hcalls
    rw [status_plain hplain hcalls rfl]
    exact h.applying handle _ todo hcallback

/-! ## Steps of the other threads -/

theorem isLive_stop {function : Function} {status : Status}
    (hstops : function = .stopStream ∨ function = .unregisterStreamCallback)
    (hlive : status.phase.IsLive) : (sdk.after (function, ok) status).phase.IsLive := by
  have hagrees := (Agrees.refl status).stop hstops ok
  exact hagrees.isLive_iff.mpr hlive

theorem Tracked.stop (h : driver.Tracked) {function : Function}
    (hstops : function = .stopStream ∨ function = .unregisterStreamCallback) (ok : Bool) :
    (driver.call function ok).Tracked := by
  obtain ⟨expected, hfits, hfollows⟩ := h.follows
  have hbroad : function.isBroad = false := by rcases hstops with rfl | rfl <;> rfl
  refine ⟨h.toMade.call hbroad ok, ⟨expected, hfits, ?_⟩, fun handle names todo happlying => ?_⟩
  · rw [current_call]
    intro status hmem
    obtain ⟨earlier, hearlier, rfl⟩ := Option.map_eq_some_iff.mp hmem
    obtain ⟨taken, htaken, hagrees⟩ := hfollows earlier hearlier
    exact ⟨taken, htaken, hagrees.stop hstops ok⟩
  · have hlive := h.applying handle names todo happlying
    by_cases hdevice : driver.odinDevice = some handle
    · rw [status_call_of_eq hdevice]
      exact isLive_stop hstops hlive
    · rw [status_call_of_ne hbroad hdevice]
      exact hlive

theorem Tracked.of_same (h : driver.Tracked) (haside : Aside driver next) : next.Tracked := by
  obtain ⟨expected, hfits, hfollows⟩ := h.follows
  refine ⟨h.toMade.of_same haside.toSameBooks, ⟨expected, ?_, ?_⟩, ?_⟩
  · rwa [haside.callback]
  · rwa [current_of_same haside.toSameBooks]
  · rw [haside.callback, status_of_calls haside.calls]
    exact h.applying

theorem released_deinit (handle : Nat) (ok : Bool) : (Driver.status { driver with
    systemUp := false, calls := ⟨none, (.systemDeinit, ok)⟩ :: driver.calls } handle).phase =
      .released := by
  have hafter (status : Status) : (sdk.after (.systemDeinit, ok) status).phase = .released := by
    by_cases hphase : status.phase = .released
    · simp [sdk, hphase]
    · rw [after_final hphase rfl]
      rfl
  exact (congrArg Status.phase (Protocol.state_cons_broad rfl)).trans (hafter _)

theorem Tracked.meanwhile (h : driver.Tracked) (hup : driver.systemUp = true)
    (hmeanwhile : Meanwhile driver next) : next.Held := by
  have htracked (haside : next.systemUp = driver.systemUp) (hnext : next.Tracked) : next.Held := by
    rwa [Held, if_pos (haside.trans hup)]
  cases hmeanwhile with
  | rests haside => exact htracked haside.systemUp (h.of_same haside)
  | @calls function ok hplain _ haside =>
      have hstatus : next.status = driver.status := status_plain hplain haside.calls rfl
      have hdevice : next.odinDevice = driver.odinDevice := haside.odinDevice
      obtain ⟨expected, hfits, hfollows⟩ := h.follows
      refine htracked haside.systemUp ⟨h.toMade.update hdevice haside.handles fun _ _ => by
        rw [hstatus], ⟨expected, ?_, ?_⟩, ?_⟩
      · rw [haside.callback]
        exact hfits
      · rwa [current, hdevice, hstatus]
      · rw [haside.callback, hstatus]
        exact h.applying
  | stops hstops _ haside => exact htracked haside.systemUp ((h.stop hstops _).of_same haside)
  | forgets _ haside =>
      obtain ⟨expected, hfits, -⟩ := h.follows
      have hforgets : Tracked { driver with odinDevice := none } :=
        ⟨h.toMade.forget rfl rfl rfl, ⟨expected, hfits, follows_none expected⟩, h.applying⟩
      exact htracked haside.systemUp (hforgets.of_same haside)
  | deinits _ haside =>
      rw [Held, if_neg (by rw [haside.systemUp]; simp)]
      intro handle
      rw [status_of_calls haside.calls]
      exact released_deinit handle _

/-! ## Between any two steps -/

theorem systemUp_act (driver : Driver) (label : Label) (hdown : driver.systemUp = false) :
    (driver.act label).systemUp = false := by
  rcases driver.act_cases label with ⟨device, rfl⟩ | rfl | ⟨ok, rfl⟩ | hmeanwhile
  · show (driver.attach device).systemUp = false
    unfold Driver.attach
    split <;> exact hdown
  · show driver.detach.systemUp = false
    unfold Driver.detach
    split <;> exact hdown
  · exact (driver.threads_stepCallback ok).2.2.trans hdown
  · cases hmeanwhile with
    | rests haside => exact haside.systemUp.trans hdown
    | calls _ _ haside => exact haside.systemUp.trans hdown
    | stops _ _ haside => exact haside.systemUp.trans hdown
    | forgets _ haside => exact haside.systemUp.trans hdown
    | deinits _ haside => exact haside.systemUp

/-- The library that has ended stays so. -/
theorem released_act {handle : Nat} (hreleased : (driver.status handle).phase = .released)
    (label : Label) : ((driver.act label).status handle).phase = .released := by
  rw [status, driver.calls_act label]
  cases driver.nextCall label with
  | none => exact hreleased
  | some call =>
      refine Protocol.state_invariant (fun status : Status => status.phase = .released) ?_ hreleased
      intro answered status hphase
      simp [sdk, hphase]

theorem Held.act (h : driver.Held) (hruns : (driver.act label).exited = false) :
    (driver.act label).Held := by
  unfold Held at h
  split at h
  next hup =>
    rcases driver.act_cases label with ⟨device, rfl⟩ | rfl | ⟨ok, rfl⟩ | hmeanwhile
    · show (driver.attach device).Held
      unfold Driver.attach
      split
      next hidle =>
        obtain ⟨expected, hfits, hfollows⟩ := h.follows
        rw [hidle] at hfits
        rw [Held, if_pos hup]
        exact ⟨h.toMade.of_same ⟨rfl, rfl, rfl, rfl, rfl⟩,
          ⟨expected, ready_attachStages driver.cfg device hfits, hfollows⟩, by simp⟩
      next => rwa [Held, if_pos hup]
    · show driver.detach.Held
      unfold Driver.detach
      split
      next =>
        rw [Held, if_pos hup]
        exact ⟨h.toMade.of_same ⟨rfl, rfl, rfl, rfl, rfl⟩, h.follows, h.applying⟩
      next => rwa [Held, if_pos hup]
    · show (driver.stepCallback ok).Held
      rw [Held, if_pos ((driver.threads_stepCallback ok).2.2.trans hup)]
      exact h.callback hruns
    · exact h.meanwhile hup hmeanwhile
  next hdown =>
    have hdown : driver.systemUp = false := by simpa using hdown
    rw [Held, if_neg (by simp [driver.systemUp_act label hdown])]
    exact fun handle => released_act (h handle) label

/-- Unless the process has ended. -/
def Governed (driver : Driver) : Prop := driver.exited = false → driver.Held

theorem Governed.step (h : driver.Governed) (label : Label) : (driver.step label).Governed := by
  intro hruns
  unfold Driver.step at hruns ⊢
  split at hruns
  next hexited => exact absurd (hexited.symm.trans hruns) (by simp)
  next hexited =>
    rw [if_neg hexited]
    exact (h (by simpa using hexited)).act hruns

theorem governed_start (cfg : Config) : (start cfg).Governed := fun _ =>
  ⟨⟨fun _ _ => rfl, fun _ hsome => by cases hsome⟩,
    ⟨none, (fun _ hmem => by cases hmem), follows_none none⟩, by simp [start]⟩

/-! ## Calls in sequence -/

/-- The calls were made in the order that the rules ask for. -/
def InSequence (rules : Rules) (driver : Driver) : Prop :=
  Justified (sdk.Obeys fun answered => answered.1.Allowed rules) driver.calls

instance (rules : Rules) (driver : Driver) : Decidable (driver.InSequence rules) :=
  Justified.decidable _

end Driver

def Label.isCallback : Label → Bool
  | .callback _ => true
  | _ => false

/-- The handle in `odinDevice` is closed or destroyed. -/
def Callback.GivesUp (callback : Callback) : Prop :=
  callback = .destroying true ∨ callback = .forgetting

/-- What a call must be for the order to be kept. -/
structure MayCall (rules : Rules) (driver : Driver) (label : Label) (call : Call Nat Answered) :
    Prop where
  /-- The library has not been ended. -/
  systemUp : driver.systemUp = true
  /-- It is given a handle, which `odinDevice` does not hold after a signal, and which enabling the
  log is not given. -/
  handle : call.target ≠ none
  /-- The driver has its place for the function where the rules have it. -/
  permitted : rules.Permits call.op.1
  /-- The stream is not started after the end of `main` has unregistered the stream callback. -/
  registered : call.op.1 = .startStream → ∀ status ∈ driver.current, status.registered = true
  /-- No other thread calls while the callback gives the handle up. -/
  inHand : label.isCallback = false → ¬ driver.callback.GivesUp

/-- A function that any handle in use may be given, at any time. -/
structure Function.Anytime (function : Function) : Prop where
  allowed : ∀ rules status, function.Allowed rules status ↔ status.phase.IsLive
  early : function.isLate = false
  narrow : function.isBroad = false
  starts : function ≠ .startStream

theorem anytime_of_isPlain {function : Function} (hplain : function.isPlain = true)
    (hlate : function.isLate = false) : function.Anytime where
  allowed := allowed_of_isPlain hplain hlate
  early := hlate
  narrow := isBroad_of_not_final (isFinal_of_isPlain hplain)
  starts heq := by
    rw [heq] at hplain
    cases hplain

theorem anytime_of_stops {function : Function}
    (hstops : function = .stopStream ∨ function = .unregisterStreamCallback) :
    function.Anytime := by
  rcases hstops with rfl | rfl <;> exact ⟨fun _ _ => Iff.rfl, rfl, rfl, by simp⟩

theorem not_allowed_of_released (rules : Rules) {function : Function} {status : Status}
    (hphase : status.phase = .released) : ¬ function.Allowed rules status := by
  cases function <;> simp [Function.Allowed, Phase.IsLive, hphase]

theorem Fits.isLive_iff {status : Status} {callback : Callback} (h : Fits (some status) callback) :
    status.phase.IsLive ↔ ¬ callback.GivesUp := by
  have hlive : Usable (some status) → status.phase.IsLive := fun husable => husable status rfl
  unfold Callback.GivesUp
  cases callback with
  | idle => exact iff_of_true (hlive h) (by simp)
  | attaching todo => exact iff_of_true (hlive (Ready.usable h)) (by simp)
  | applying handle names todo => exact iff_of_true (hlive h.1.usable) (by simp)
  | closing => exact iff_of_true (hlive (Quiet.usable h)) (by simp)
  | destroying isClosed =>
      obtain ⟨_, hsome, hphase⟩ := h
      obtain rfl := Option.some.inj hsome
      cases isClosed <;> simp [Phase.IsLive, hphase]
  | forgetting =>
      obtain ⟨_, hsome, hphase⟩ := h
      obtain rfl := Option.some.inj hsome
      simp [Phase.IsLive, hphase]

namespace Driver

variable {driver : Driver} {label : Label} {call : Call Nat Answered}

theorem obeys_device (rules : Rules) {function : Function} (hbroad : function.isBroad = false)
    (ok : Bool) : sdk.Obeys (fun answered => answered.1.Allowed rules)
      ⟨driver.odinDevice, (function, ok)⟩ driver.calls ↔
        ∃ status ∈ driver.current, function.Allowed rules status := by
  constructor
  · rintro (htrue | ⟨handle, hdevice, hallowed⟩)
    · exact absurd (hbroad.symm.trans htrue) (by simp)
    · exact ⟨_, Option.map_eq_some_iff.mpr ⟨handle, hdevice, rfl⟩, hallowed⟩
  · rintro ⟨status, hmem, hallowed⟩
    obtain ⟨handle, hdevice, rfl⟩ := Option.map_eq_some_iff.mp hmem
    exact Or.inr ⟨handle, hdevice, hallowed⟩

/-- A call of another thread. -/
theorem Tracked.obeys_other (h : driver.Tracked) (hup : driver.systemUp = true) (rules : Rules)
    (hother : label.isCallback = false) {function : Function} (hanytime : function.Anytime)
    (ok : Bool) :
    sdk.Obeys (fun answered => answered.1.Allowed rules)
      ⟨driver.odinDevice, (function, ok)⟩ driver.calls ↔
        MayCall rules driver label ⟨driver.odinDevice, (function, ok)⟩ := by
  obtain ⟨expected, hfits, hfollows⟩ := h.follows
  have hcurrent (status : Status) (hmem : status ∈ driver.current) :
      status.phase.IsLive ↔ ¬ driver.callback.GivesUp := by
    obtain ⟨taken, htaken, hagrees⟩ := hfollows status hmem
    obtain rfl := Option.mem_def.mp htaken
    rw [hagrees.isLive_iff]
    exact hfits.isLive_iff
  rw [obeys_device rules hanytime.narrow ok]
  simp only [hanytime.allowed rules]
  constructor
  · rintro ⟨status, hmem, hstatus⟩
    refine ⟨hup, fun hnone => ?_, permits_of_not_late hanytime.early rules,
      fun heq => absurd heq hanytime.starts, fun _ => (hcurrent status hmem).mp hstatus⟩
    rw [current, show driver.odinDevice = none from hnone] at hmem
    cases hmem
  · intro hmay
    obtain ⟨handle, hdevice⟩ := Option.ne_none_iff_exists'.mp hmay.handle
    have hmem : driver.status handle ∈ driver.current :=
      Option.map_eq_some_iff.mpr ⟨handle, hdevice, rfl⟩
    exact ⟨_, hmem, (hcurrent _ hmem).mpr (hmay.inHand hother)⟩

/-- The call of a step that is known to make one. -/
theorem nextCall_eq {made : Call Nat Answered} (hcall : driver.nextCall label = some call)
    (hcalls : (driver.act label).calls = made :: driver.calls) : made = call := by
  rw [driver.calls_act label, hcall] at hcalls
  exact (List.cons.inj hcalls).1.symm

theorem calls_act_ne (hcall : driver.nextCall label = some call) :
    (driver.act label).calls ≠ driver.calls := by
  rw [driver.calls_act label, hcall]
  exact List.cons_ne_self call driver.calls

/-- A call of the callback on the handle in `odinDevice`. -/
theorem obeys_own (hup : driver.systemUp = true) (rules : Rules) {function : Function} {ok : Bool}
    (hbroad : function.isBroad = false)
    (hallowed : ∀ status ∈ driver.current, function.Allowed rules status ↔
      rules.Permits function ∧ (function = .startStream → status.registered = true)) :
    sdk.Obeys (fun answered => answered.1.Allowed rules)
      ⟨driver.odinDevice, (function, ok)⟩ driver.calls ↔
        MayCall rules driver (.callback ok) ⟨driver.odinDevice, (function, ok)⟩ := by
  rw [obeys_device rules hbroad ok]
  constructor
  · rintro ⟨status, hmem, hstatus⟩
    obtain ⟨hpermits, hregistered⟩ := (hallowed status hmem).mp hstatus
    refine ⟨hup, fun hnone => ?_, hpermits, fun heq other hother => ?_,
      fun hother => by cases hother⟩
    · rw [current, show driver.odinDevice = none from hnone] at hmem
      cases hmem
    · obtain rfl := Option.some.inj (hmem.symm.trans hother)
      exact hregistered heq
  · intro hmay
    obtain ⟨handle, hdevice⟩ := Option.ne_none_iff_exists'.mp hmay.handle
    have hmem : driver.status handle ∈ driver.current :=
      Option.map_eq_some_iff.mpr ⟨handle, hdevice, rfl⟩
    exact ⟨_, hmem, (hallowed _ hmem).mpr
      ⟨hmay.permitted, fun heq => hmay.registered heq _ hmem⟩⟩

/-- A call that is given no handle. -/
theorem obeys_none (rules : Rules) {function : Function} (hbroad : function.isBroad = false)
    (ok : Bool) : sdk.Obeys (fun answered => answered.1.Allowed rules)
      ⟨none, (function, ok)⟩ driver.calls ↔ MayCall rules driver label ⟨none, (function, ok)⟩ := by
  refine iff_of_false ?_ fun hmay => hmay.handle rfl
  rintro (htrue | ⟨_, hnone, -⟩)
  · exact absurd (hbroad.symm.trans htrue) (by simp)
  · cases hnone

/-- A call of the callback. -/
theorem Tracked.obeys_callback (h : driver.Tracked) (hup : driver.systemUp = true) (rules : Rules)
    {ok : Bool} (hcall : driver.nextCall (.callback ok) = some call) :
    sdk.Obeys (fun answered => answered.1.Allowed rules) call driver.calls ↔
      MayCall rules driver (.callback ok) call := by
  obtain ⟨expected, hfits, hfollows⟩ := h.follows
  obtain ⟨after, heffect, -⟩ := steps_stepCallback ok hfits
  have hact : driver.act (.callback ok) = driver.stepCallback ok := rfl
  rw [← hact] at heffect
  cases heffect with
  | moves hsame => exact absurd hsame.calls (calls_act_ne hcall)
  | drops _ hsame => exact absurd hsame.calls (calls_act_ne hcall)
  | releases _ hsame => exact absurd hsame.calls (calls_act_ne hcall)
  | calls _ hallowed hbroad hquiet hsame =>
      obtain rfl := nextCall_eq hcall hsame.calls
      refine obeys_own hup rules hbroad fun status hmem => ?_
      obtain ⟨_, htaken, hagrees⟩ := hfollows status hmem
      obtain rfl := Option.some.inj htaken
      rw [hagrees.allowed_iff rules hquiet, hallowed rules]
  | @applies _ target name _ _ _ happlying hsame =>
      obtain rfl := nextCall_eq hcall hsame.calls
      cases target with
      | none => exact obeys_none rules rfl ok
      | some handle =>
          refine iff_of_true (Or.inr ⟨handle, rfl, h.applying handle _ _ happlying⟩) ?_
          exact ⟨hup, by simp, permits_of_not_late rfl rules, (fun heq => by cases heq),
            fun hother => by cases hother⟩
  | logs hsame =>
      obtain rfl := nextCall_eq hcall hsame.calls
      exact obeys_none rules rfl ok
  | creates hsame =>
      obtain rfl := nextCall_eq hcall hsame.calls
      have hphase : (driver.status driver.handles).phase = .absent := h.unmade _ (Nat.le_refl _)
      refine iff_of_true (Or.inr ⟨driver.handles, rfl, hphase⟩) ?_
      exact ⟨hup, by simp, permits_of_not_late rfl rules, (fun heq => by cases heq),
        fun hother => by cases hother⟩

theorem isBroad_iff (function : Function) :
    function.isBroad = true ↔ function = .systemDeinit := by
  cases function <;> simp [Function.isBroad]

/-- A call is made in sequence if it may be made, or ends the library. -/
theorem Held.obeys_iff (h : driver.Held) (rules : Rules)
    (hcall : driver.nextCall label = some call) :
    sdk.Obeys (fun answered => answered.1.Allowed rules) call driver.calls ↔
      call.op.1 = .systemDeinit ∨ MayCall rules driver label call := by
  have hdeinit : call.op.1 = .systemDeinit →
      sdk.Obeys (fun answered => answered.1.Allowed rules) call driver.calls :=
    fun heq => Or.inl ((isBroad_iff _).mpr heq)
  unfold Held at h
  split at h
  next hup =>
    cases hown : label.isCallback with
    | true =>
        obtain ⟨ok, rfl⟩ : ∃ ok, label = .callback ok := by
          cases label <;> first | exact ⟨_, rfl⟩ | cases hown
        have hiff := h.obeys_callback hup rules hcall
        exact ⟨fun hobeys => Or.inr (hiff.mp hobeys), Or.rec hdeinit hiff.mpr⟩
    | false =>
        rcases driver.act_cases label with ⟨device, rfl⟩ | rfl | ⟨ok, rfl⟩ | hmeanwhile
        · cases hcall
        · cases hcall
        · cases hown
        · cases hmeanwhile with
          | rests haside => exact absurd haside.calls (calls_act_ne hcall)
          | forgets _ haside => exact absurd haside.calls (calls_act_ne hcall)
          | @calls function ok hplain hlate haside =>
              obtain rfl := nextCall_eq hcall haside.calls
              have hiff := h.obeys_other hup rules hown (anytime_of_isPlain hplain hlate) ok
              exact ⟨fun hobeys => Or.inr (hiff.mp hobeys), Or.rec hdeinit hiff.mpr⟩
          | @stops function ok hstops _ haside =>
              obtain rfl := nextCall_eq hcall haside.calls
              have hiff := h.obeys_other hup rules hown (anytime_of_stops hstops) ok
              exact ⟨fun hobeys => Or.inr (hiff.mp hobeys), Or.rec hdeinit hiff.mpr⟩
          | deinits _ haside =>
              obtain rfl := nextCall_eq hcall haside.calls
              exact iff_of_true (hdeinit rfl) (Or.inl rfl)
  next hdown =>
    refine ⟨?_, Or.rec hdeinit fun hmay => absurd hmay.systemUp hdown⟩
    rintro (hbroad | ⟨handle, -, hallowed⟩)
    · exact Or.inl ((isBroad_iff _).mp hbroad)
    · exact absurd hallowed (not_allowed_of_released rules (h handle))

/-- What the step calls, it may call; the library may always be ended. -/
def Careful (rules : Rules) (driver : Driver) (label : Label) : Prop :=
  driver.exited = false → ∀ call, driver.nextCall label = some call →
    call.op.1 = .systemDeinit ∨ MayCall rules driver label call

theorem Governed.inSequence_step (h : driver.Governed) (rules : Rules) (label : Label) :
    (driver.step label).InSequence rules ↔
      driver.InSequence rules ∧ driver.Careful rules label := by
  unfold Driver.step Careful
  split
  next hexited =>
    rw [and_iff_left]
    exact fun hruns => absurd (hexited.symm.trans hruns) (by simp)
  next hexited =>
    have hruns : driver.exited = false := by simpa using hexited
    rw [imp_iff_right hruns, InSequence, driver.calls_act label]
    cases hcall : driver.nextCall label with
    | none =>
        rw [and_iff_left fun call hsome => by cases hsome]
        exact Iff.rfl
    | some call =>
        have hobeys := (h hruns).obeys_iff rules hcall
        simp only [Option.some.injEq, forall_eq', ← hobeys]
        exact and_comm

end Driver

example : (run Driver.step (start {})
    (.attach {} :: List.replicate 22 (.callback true))).InSequence .notes := by
  decide

-- After a signal, the callback sets the depth parameter without a handle.
example : ¬ (run Driver.step (start {}) (.attach {} :: List.replicate 8 (.callback true) ++
    [.signal, .handle 0 true, .handle 0 true, .handle 0 true, .callback true])).InSequence
      .notes := by
  decide

end AcflyRos.OdinDriver.Device
