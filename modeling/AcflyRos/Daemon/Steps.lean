import AcflyRos.Daemon.Services

/-! # What one callback may do

The kinds of action that a label allows in the state that consumes it, and the
facts that hold again when the callback has returned. Every result about runs is
proved from these two.
-/

namespace AcflyRos.Daemon

open AcflyRos.Transition

namespace World

/-! ## The timer -/

/-- `on_timer` up to `check_odin_health`. -/
def beforeHealth (world : World) : World :=
  ((reapChildren world).andThen checkStopTimeouts).andThen checkStarted

/-- `on_timer` up to `handle_restarts`. -/
def beforeRestarts (world : World) : World := (beforeHealth world).andThen checkOdinHealth

section Callbacks

variable {allow : Kind → Prop} {world : World}

/-- A tick that finds no signal. -/
theorem onTimer_acts (hroutine : allow .routine) (hadvance : allow .advance)
    (hbackoff : allow .backoff) (hordinary : ∀ kind, allow kind → Ordinary kind)
    (hidle : world.deadline = none)
    (hquiet : world.signalReceived = false)
    (hgiveUp : (beforeHealth world).mode = .up → (beforeHealth world).GivesUp → allow .giveUp)
    (hungated : (beforeRestarts world).mode = .up → ¬ (beforeRestarts world).RestartsGated →
      ∀ i, allow (.ungated i)) :
    Acts Act allow world (onTimer world) := by
  have hhealth : Acts Act allow world (beforeHealth world) :=
    andThen_acts (andThen_acts (reapChildren_acts hroutine world)
      fun _ => checkStopTimeouts_acts hroutine _) fun _ => checkStarted_acts hroutine hadvance _
  have hrestarts : Acts Act allow world (beforeRestarts world) :=
    andThen_acts hhealth fun hup => checkOdinHealth_acts hroutine (hgiveUp hup)
  have hpending : Acts Act allow world ((beforeRestarts world).andThen handleRestarts) :=
    andThen_acts hrestarts fun hup => handleRestarts_acts hroutine hadvance hbackoff hordinary
      ((acts_deadline hordinary hrestarts).trans hidle) (hungated hup)
  unfold onTimer
  rw [if_neg (by simp [hquiet])]
  refine andThen_acts hpending fun _ => andThen_acts ?_ fun _ => publishStatus_acts hroutine _
  exact handlePending_acts hroutine hadvance hordinary
    ((acts_deadline hordinary hpending).trans hidle)

/-! ## Services -/

/-- The end of a start or restart request for one entry. -/
def startManually (i : Nat) (name success failure : String) (world : World) : World :=
  (startProcess i (resetForStart i name world)).andThen (respondStarted i success failure)

theorem respondStarted_acts (hroutine : allow .routine) (i : Nat) (success failure : String)
    (world : World) : Acts Act allow world (respondStarted i success failure world) := by
  apply onEntry_acts
  intro mp _
  split
  · exact respond_acts hroutine world true success
  · exact respond_acts hroutine world false failure

theorem startManually_acts (hroutine : allow .routine) {i : Nat} (hmanual : allow (.manual i))
    (hordinary : ∀ kind, allow kind → Ordinary kind) {mp : ManagedProcess}
    (hentry : world.processes[i]? = some mp)
    (hstate : mp.state ≠ .running ∧ mp.state ≠ .starting)
    (hdisplace : mp.state = .stopping → allow (.displace i)) (hidle : world.deadline = none)
    (success failure : String) :
    Acts Act allow world (startManually i mp.name success failure world) := by
  have hreset : Acts Act allow world (resetForStart i mp.name world) := by
    refine Acts.single ?_ (.reset world i mp hentry hstate)
    split
    next hstopping => exact hdisplace hstopping
    next => exact hmanual
  apply andThen_acts (hreset.trans (startProcess_acts hroutine hmanual
    ((acts_deadline hordinary hreset).trans hidle) hordinary ?_))
    fun _ => respondStarted_acts hroutine i success failure _
  intro same hsame
  rw [resetForStart_processes] at hsame
  cases (Table.getElem?_modify_self hentry).symm.trans hsame
  exact rfl

theorem waitStopped_acts (i fuel : Nat) (world : World) :
    Acts Act Routine world (waitStopped i fuel world) ∧
      ((waitStopped i fuel world).mode = .up →
        ∀ mp, (waitStopped i fuel world).processes[i]? = some mp → mp.state ≠ .stopping) := by
  have hroutine : Routine .routine := rfl
  induction fuel generalizing world with
  | zero => exact ⟨setMode_acts hroutine world .blocked, fun hup => by cases hup⟩
  | succ fuel ih =>
      unfold waitStopped
      cases hentry : world.processes[i]? with
      | none =>
          rw [onEntry_none hentry]
          exact ⟨Acts.refl world, fun _ mp hmp => by simp [hentry] at hmp⟩
      | some mp =>
          rw [onEntry_some hentry]
          split
          next =>
            have hpolled : Acts Act Routine world
                ((reapChildren world.interact).andThen checkStopTimeouts) :=
              (interact_acts hroutine world).trans (andThen_acts (reapChildren_acts hroutine _)
                fun _ => checkStopTimeouts_acts hroutine _)
            refine ⟨andThen_acts hpolled fun _ => (ih _).1, fun hup => ?_⟩
            obtain ⟨_, hnext⟩ := andThen_up hup
            rw [hnext] at hup ⊢
            exact (ih _).2 hup
          next hstate =>
            refine ⟨Acts.refl world, fun _ same hsame => ?_⟩
            cases hentry.symm.trans hsame
            exact hstate

/-- A start request is answered at once, or starts an entry that is not running. -/
theorem handleStart_cases (name : String) (world : World) :
    Acts Act Routine world (handleStart name world) ∨
      ∃ i mp success failure, world.findProcess name = some i ∧ world.processes[i]? = some mp ∧
        mp.name = name ∧ (mp.state ≠ .running ∧ mp.state ≠ .starting) ∧
        handleStart name world = startManually i name success failure world := by
  have hroutine : Routine .routine := rfl
  unfold handleStart
  split
  next => exact Or.inl (respond_acts hroutine world _ _)
  next =>
    split
    next => exact Or.inl (respond_acts hroutine world _ _)
    next i hfind =>
      obtain ⟨mp, hentry, hname⟩ := findProcess_some hfind
      rw [onEntry_some hentry]
      split
      next => exact Or.inl (respond_acts hroutine world _ _)
      next hstate =>
        exact Or.inr ⟨i, mp, _, _, hfind, hentry, hname, not_or.mp hstate, rfl⟩

/-- `handle_restart` first asks the entry to stop, if it runs at all. -/
theorem askBeforeRestart_acts (hsound : Sound world) (hidle : world.deadline = none) {i : Nat}
    {mp : ManagedProcess} (hentry : world.processes[i]? = some mp) :
    Acts Act Routine world
        (if mp.state = .running ∨ mp.state = .starting then requestStop i world else world) ∧
      ∀ mp', (if mp.state = .running ∨ mp.state = .starting then requestStop i world
        else world).processes[i]? = some mp' → ¬ mp'.state.rising := by
  have hroutine : Routine .routine := rfl
  split
  next hrising =>
    have hlive : mp.state.live := by
      rcases hrising with hstate | hstate <;> rw [hstate] <;> trivial
    have hpid : ¬ mp.pid ≤ 0 :=
      Int.not_le.mpr (hsound.pidLive mp (List.mem_of_getElem? hentry) hlive)
    constructor
    · exact requestStop_acts hroutine i hidle
    · rw [requestStop, onEntry_some hentry, if_neg hpid]
      intro mp' hmp'
      rcases Table.getElem?_modify_cases hmp' with ⟨_, _, _, rfl⟩ | ⟨hne, _⟩
      · simp [ProcessState.rising]
      · exact absurd rfl hne
  next hrising =>
    constructor
    · exact Acts.refl world
    · intro mp' hmp' hstate
      cases hentry.symm.trans hmp'
      exact hrising hstate.symm

/-- A restart request for one entry is answered at once, or still waits when its
script ends, or starts the entry after it has left STOPPING. -/
theorem handleRestart_cases (hsound : Sound world) (hidle : world.deadline = none) {name : String}
    (hname : name ≠ "") :
    Acts Act Routine world (handleRestart name world) ∨
      ∃ waited i mp success failure, Acts Act Routine world waited ∧
        world.findProcess name = some i ∧ waited.processes[i]? = some mp ∧ mp.name = name ∧
        (mp.state ≠ .running ∧ mp.state ≠ .starting) ∧ mp.state ≠ .stopping ∧
        handleRestart name world = startManually i name success failure waited := by
  have hroutine : Routine .routine := rfl
  unfold handleRestart
  rw [if_neg hname]
  split
  next => exact Or.inl (respond_acts hroutine world _ _)
  next i hfind =>
    obtain ⟨mp, hentry, _⟩ := findProcess_some hfind
    rw [onEntry_some hentry]
    dsimp only
    have hasked := askBeforeRestart_acts hsound hidle hentry
    generalize (if mp.state = .running ∨ mp.state = .starting then requestStop i world
      else world) = asked at hasked ⊢
    obtain ⟨hask, hrising⟩ := hasked
    -- Then the handler polls until it has left STOPPING.
    obtain ⟨hwait, hstopped⟩ := waitStopped_acts i (asked.script.length + 1) asked
    have hwaited := hask.trans hwait
    generalize waitStopped i (asked.script.length + 1) asked = waited at *
    by_cases hup : waited.mode = .up
    · obtain ⟨mp', hentry', hname'⟩ := findProcess_some
        ((findProcess_congr (acts_names hwaited) name).trans hfind)
      have hdown := acts_winds Routine.winding _ (fun _ _ => Winds.not_rising) hwait
        (acts_sound hask hsound) hrising mp' hentry'
      rw [andThen, if_pos hup]
      refine Or.inr ⟨waited, i, mp', _, _, hwaited, hfind, hentry', hname', ?_,
        hstopped hup mp' hentry', rfl⟩
      exact ⟨fun hstate => hdown (Or.inr hstate), fun hstate => hdown (Or.inl hstate)⟩
    · rw [andThen, if_neg hup]
      exact Or.inl hwaited

theorem handleStart_acts (hroutine : allow .routine)
    (hordinary : ∀ kind, allow kind → Ordinary kind) (hidle : world.deadline = none)
    {name : String} (hmanual : ∀ i, world.findProcess name = some i → allow (.manual i))
    (hdisplace : ∀ i mp, world.findProcess name = some i → world.processes[i]? = some mp →
      mp.state = .stopping → allow (.displace i)) :
    Acts Act allow world (handleStart name world) := by
  have hallow : ∀ kind, Routine kind → allow kind := fun kind hkind => hkind ▸ hroutine
  rcases handleStart_cases name world with hacts | ⟨i, mp, _, _, hfind, hentry, rfl, hstate, hstart⟩
  · exact hacts.mono hallow
  · rw [hstart]
    exact startManually_acts hroutine (hmanual i hfind) hordinary hentry hstate
      (hdisplace i mp hfind hentry) hidle _ _

theorem handleRestart_acts (hroutine : allow .routine)
    (hordinary : ∀ kind, allow kind → Ordinary kind) (hsound : Sound world)
    (hidle : world.deadline = none) {name : String} (hname : name ≠ "")
    (hmanual : ∀ i, world.findProcess name = some i → allow (.manual i)) :
    Acts Act allow world (handleRestart name world) := by
  have hallow : ∀ kind, Routine kind → allow kind := fun kind hkind => hkind ▸ hroutine
  rcases handleRestart_cases hsound hidle hname with
    hacts | ⟨waited, i, mp, _, _, hwaited, hfind, hentry, rfl, hstate, hstopped, hstart⟩
  · exact hacts.mono hallow
  · rw [hstart]
    exact (hwaited.mono hallow).trans (startManually_acts hroutine (hmanual i hfind) hordinary
      hentry hstate (fun hstopping => absurd hstopping hstopped)
      ((acts_deadline Routine.ordinary hwaited).trans hidle) _ _)

theorem handleStop_acts (hroutine : allow .routine) (hidle : world.deadline = none)
    {name : String} (hname : name ≠ "") : Acts Act allow world (handleStop name world) := by
  unfold handleStop
  rw [if_neg hname]
  split
  next => exact respond_acts hroutine world _ _
  next i _ =>
    refine onEntry_acts fun mp _ => ?_
    split
    · exact respond_acts hroutine world _ _
    · exact (requestStop_acts hroutine i hidle).trans (respond_acts hroutine _ _ _)

/-- The node outside of `shutdown_all`. -/
def Idle (world : World) : Prop :=
  world.mode = .up → world.deadline = none ∧ world.shuttingDown = false

/-- A stop of all processes. -/
theorem stopAll_acts (hwinding : ∀ kind, Winding kind → allow kind) (hsound : Sound world)
    (hup : world.mode = .up) (hidle : world.deadline = none)
    (hfirst : world.shuttingDown = false) :
    Acts Act allow world (handleStop "" world) ∧ (handleStop "" world).Idle := by
  obtain ⟨asked, hask, _, _, hstop, hlast⟩ := shutdownAll_acts hsound hup hidle hfirst
  have hstopped : Acts Act allow world (shutdownAll world) := (hask.trans hstop).mono hwinding
  unfold handleStop
  rw [if_pos rfl]
  refine ⟨andThen_acts hstopped fun _ => ?_, fun hup => ?_⟩
  · exact (Acts.single (hwinding _ (Or.inr rfl)) (.shuttingDown _ false)).trans
      (respond_acts (hwinding _ (Or.inl rfl)) _ _ _)
  · obtain ⟨hup', hnext⟩ := andThen_up hup
    rw [hnext]
    exact ⟨(hlast hup').1, rfl⟩

theorem resetAll_acts (hmanual : allow .manualAll)
    (hstate : ∀ mp ∈ world.processes, mp.Settled) :
    Acts Act allow world (resetAll world) := by
  have hreset : Acts Act allow world world.resetEntries :=
    Acts.single hmanual (.resetEntries world hstate)
  unfold resetAll
  dsimp only
  split
  next => exact hreset
  next i hodin => exact hreset.tail hmanual (.permitRestart _ i hodin)

/-- A restart of all processes. -/
theorem restartAll_acts (hwinding : ∀ kind, Winding kind → allow kind)
    (hmanual : allow .manualAll) (hsound : Sound world) (hup : world.mode = .up)
    (hidle : world.deadline = none) (hfirst : world.shuttingDown = false) :
    Acts Act allow world (handleRestart "" world) ∧ (handleRestart "" world).Idle := by
  obtain ⟨asked, hask, _, _, hstop, hlast⟩ := shutdownAll_acts hsound hup hidle hfirst
  have hstopped : Acts Act allow world (shutdownAll world) := (hask.trans hstop).mono hwinding
  have hreset : (shutdownAll world).mode = .up → Acts Act (· = .manualAll)
      { shutdownAll world with shuttingDown := false }
      (resetAll { shutdownAll world with shuttingDown := false }) :=
    fun hup => resetAll_acts rfl (hlast hup).2
  have hallow : ∀ kind, kind = .manualAll → allow kind := fun kind hkind => hkind ▸ hmanual
  unfold handleRestart
  rw [if_pos rfl]
  refine ⟨andThen_acts hstopped fun hup => ?_, fun hup => ?_⟩
  · exact ((Acts.single (hwinding _ (Or.inr rfl)) (.shuttingDown _ false)).trans
      ((hreset hup).mono hallow)).trans
        (respond_acts (hwinding _ (Or.inl rfl)) _ _ _)
  · obtain ⟨hup', hnext⟩ := andThen_up hup
    have hordinary : ∀ kind, kind = .manualAll → Ordinary kind := by
      rintro kind rfl hkind
      cases hkind
    rw [hnext]
    exact ⟨(acts_deadline hordinary (hreset hup')).trans (hlast hup').1,
      acts_shuttingDown hordinary (hreset hup')⟩

/-- A tick that finds a signal ends the node. -/
theorem signalled_acts (hwinding : ∀ kind, Winding kind → allow kind) (hsound : Sound world)
    (hup : world.mode = .up) (hidle : world.deadline = none)
    (hfirst : world.shuttingDown = false) (hsignal : world.signalReceived = true) :
    Acts Act allow world (onTimer world) ∧ (onTimer world).Idle := by
  obtain ⟨asked, hask, _, _, hstop, _⟩ := shutdownAll_acts hsound hup hidle hfirst
  have hstopped : Acts Act allow world (shutdownAll world) := (hask.trans hstop).mono hwinding
  unfold onTimer
  rw [if_pos hsignal]
  refine ⟨andThen_acts hstopped fun _ => setMode_acts (hwinding _ (Or.inl rfl)) _ .shutDown,
    fun hup => ?_⟩
  obtain ⟨_, hnext⟩ := andThen_up hup
  rw [hnext] at hup
  cases hup

theorem handleGetStatus_acts (hroutine : allow .routine) {name : String} :
    Acts Act allow world (handleGetStatus name world) := by
  have hcollected : ∀ {entries next statuses} (answer : Response),
      collectStatuses entries [] world = (statuses, next) →
      Acts Act allow world { next with response := some answer } :=
    fun answer hcollect => (collectStatuses_acts hroutine _ _ _ hcollect).tail hroutine
      (.control _ _ (some answer) _)
  unfold handleGetStatus
  split
  next =>
    split
    next hcollect => exact collectStatuses_acts hroutine _ _ _ hcollect
    next hcollect => exact hcollected _ hcollect
  next =>
    split
    next => exact respond_acts hroutine world _ _
    next =>
      refine onEntry_acts fun mp _ => ?_
      split
      next hcollect => exact collectStatuses_acts hroutine _ _ _ hcollect
      next hcollect => exact hcollected _ hcollect

/-- An odometry message arms the check, for its sender or for a later instance. -/
theorem deliver_acts (hroutine : allow .routine)
    (hstale : ∀ serial rest, world.odometry = serial :: rest → world.StaleFor serial →
      allow .stale) :
    Acts Act allow world (deliver world) := by
  unfold deliver
  split
  next => exact Acts.refl world
  next serial rest hqueue =>
    have htaken : Acts Act allow world { world with odometry := rest }.interact :=
      (Acts.single hroutine (.takeMessage world rest)).trans (interact_acts hroutine _)
    by_cases hcurrent : { world with odometry := rest }.interact.StaleFor serial
    · refine htaken.tail (hstale serial rest hqueue ?_) (.armStale _ serial hcurrent)
      obtain ⟨i, mp, hodin, hentry, hpid, hserial⟩ := hcurrent
      rw [serialOf_interact] at hserial
      exact ⟨i, mp, hodin, hentry, hpid, hserial⟩
    · exact htaken.tail hroutine (.arm _ serial hcurrent)

end Callbacks

end World

/-! ## Every label -/

/-- The state in which the callback of a label begins. -/
def World.entered (world : World) (label : Label) : World :=
  { world with script := label.script, response := none }

/-- The node reaches the give-up branch of the health check. -/
def GivesUpAt (world : World) (label : Label) : Prop :=
  label.request = .timer ∧ world.signalReceived = false ∧
    (world.entered label).beforeHealth.mode = .up ∧ (world.entered label).beforeHealth.GivesUp

/-- `handle_restarts` is about to restart an entry with a dependency that is not RUNNING. -/
def UngatedAt (world : World) (label : Label) : Prop :=
  label.request = .timer ∧ world.signalReceived = false ∧
    (world.entered label).beforeRestarts.mode = .up ∧
    ¬ (world.entered label).beforeRestarts.RestartsGated

/-- A start request finds its entry in STOPPING. -/
def DisplacesAt (world : World) (label : Label) (i : Nat) : Prop :=
  ∃ name mp, label.request = .start name ∧ world.findProcess name = some i ∧
    world.processes[i]? = some mp ∧ mp.state = .stopping

/-- The next odometry message was not sent by the current instance of odin1_driver. -/
def StaleAt (world : World) (label : Label) : Prop :=
  label.request = .odometry ∧ ∃ serial rest, world.odometry = serial :: rest ∧
    world.StaleFor serial

/-- The kinds of action the callback of a label may take. -/
def Allowed (world : World) (label : Label) : Kind → Prop
  | .routine => True
  | .advance => label.request = .timer
  | .manual i => ∃ name, (label.request = .start name ∨
      label.request = .restart name ∧ name ≠ "") ∧ world.findProcess name = some i
  | .displace i => DisplacesAt world label i
  | .manualAll => label.request = .restart ""
  | .ungated _ => UngatedAt world label
  | .backoff => label.request = .timer ∧ world.signalReceived = false
  | .giveUp => GivesUpAt world label
  | .stale => StaleAt world label
  | .stopAll => label.request = .stop "" ∨ label.request = .restart "" ∨
      label.request = .timer ∧ world.signalReceived = true
  | .enter script => script = label.script

/-- What holds between callbacks. -/
structure Ready (world : World) : Prop where
  sound : Sound world
  idle : world.Idle

theorem ready_initial (config : Config) (nodes : List ProcessNode) (ros steady : Int) :
    Ready (initial config nodes ros steady) where
  sound := sound_initial config nodes ros steady
  idle _ := ⟨rfl, rfl⟩

/-- A callback outside of `shutdown_all` leaves the node idle. -/
theorem idle_of_acts {allow : Kind → Prop} {world next : World}
    (hordinary : ∀ kind, allow kind → Ordinary kind) (hacts : Acts Act allow world next)
    (hidle : world.deadline = none) (hfirst : world.shuttingDown = false) : next.Idle :=
  fun _ => ⟨(acts_deadline hordinary hacts).trans hidle,
    (acts_shuttingDown hordinary hacts).trans hfirst⟩

/-- Every callback is a sequence of the actions its label allows, and leaves the
node idle. -/
theorem dispatch_acts {world : World} (label : Label) (hready : Ready world)
    (hup : world.mode = .up) :
    Acts Act (Allowed world label) (world.entered label)
        (dispatch label.request (world.entered label)) ∧
      (dispatch label.request (world.entered label)).Idle := by
  obtain ⟨hidle, hfirst⟩ : (world.entered label).deadline = none ∧
      (world.entered label).shuttingDown = false := hready.idle hup
  have hsound : Sound (world.entered label) := hready.sound.of_same rfl rfl
  have hroutine : Allowed world label .routine := trivial
  -- Outside of a stop of everything, the actions are ordinary.
  have hplain : ¬ Allowed world label .stopAll → ∀ {next},
      Acts Act (Allowed world label) (world.entered label) next →
      Acts Act (Allowed world label) (world.entered label) next ∧ next.Idle := by
    intro hstop next hacts
    refine ⟨hacts, idle_of_acts (fun kind hkind hsame => hstop ?_) hacts hidle hfirst⟩
    exact hsame ▸ hkind
  have hordinary : ¬ Allowed world label .stopAll → ∀ kind, Allowed world label kind →
      Ordinary kind := fun hstop kind hkind hsame => hstop (hsame ▸ hkind)
  have hwinding : Allowed world label .stopAll → ∀ kind, Winding kind →
      Allowed world label kind := by
    rintro hstop kind (rfl | rfl)
    · exact hroutine
    · exact hstop
  cases hrequest : label.request with
  | timer =>
      cases hsignal : world.signalReceived with
      | true =>
          exact World.signalled_acts (hwinding (Or.inr (Or.inr ⟨hrequest, hsignal⟩))) hsound hup
            hidle hfirst hsignal
      | false =>
          have hstop : ¬ Allowed world label .stopAll := by
            simp [Allowed, hrequest, hsignal]
          refine hplain hstop (World.onTimer_acts hroutine hrequest ⟨hrequest, hsignal⟩
            (hordinary hstop) hidle hsignal ?_ ?_)
          · exact fun hup hgive => ⟨hrequest, hsignal, hup, hgive⟩
          · exact fun hup hgated _ => ⟨hrequest, hsignal, hup, hgated⟩
  | odometry =>
      refine hplain (by simp [Allowed, hrequest]) (World.deliver_acts hroutine ?_)
      exact fun serial rest hqueue hstale => ⟨hrequest, serial, rest, hqueue, hstale⟩
  | start name =>
      have hstop : ¬ Allowed world label .stopAll := by simp [Allowed, hrequest]
      refine hplain hstop (World.handleStart_acts hroutine (hordinary hstop) hidle ?_ ?_)
      · exact fun i hfind => ⟨name, Or.inl hrequest, hfind⟩
      · exact fun i mp hfind hentry hstate => ⟨name, mp, hrequest, hfind, hentry, hstate⟩
  | stop name =>
      by_cases hname : name = ""
      · subst hname
        exact World.stopAll_acts (hwinding (Or.inl hrequest)) hsound hup hidle hfirst
      · exact hplain (by simp [Allowed, hrequest, hname])
          (World.handleStop_acts hroutine hidle hname)
  | restart name =>
      by_cases hname : name = ""
      · subst hname
        exact World.restartAll_acts (hwinding (Or.inr (Or.inl hrequest))) hrequest hsound hup
          hidle hfirst
      · have hstop : ¬ Allowed world label .stopAll := by simp [Allowed, hrequest, hname]
        refine hplain hstop (World.handleRestart_acts hroutine (hordinary hstop) hsound hidle hname
          ?_)
        exact fun i hfind => ⟨name, Or.inr ⟨hrequest, hname⟩, hfind⟩
  | shutdown =>
      refine hplain (by simp [Allowed, hrequest]) (Acts.single hroutine ?_)
      exact .control _ _ _ _
  | getStatus name =>
      exact hplain (by simp [Allowed, hrequest]) (World.handleGetStatus_acts hroutine)
  | signal =>
      refine hplain (by simp [Allowed, hrequest]) (Acts.single hroutine ?_)
      exact .control _ _ _ _
  | idle =>
      exact hplain (by simp [Allowed, hrequest]) (World.interact_acts hroutine _)

theorem step_acts {world : World} (label : Label) (hready : Ready world) :
    Acts Act (Allowed world label) world (step world label) := by
  unfold step
  split
  next hup =>
    have henter : Allowed world label (.enter label.script) := rfl
    exact (Acts.single henter (.enter world label.script)).trans (dispatch_acts label hready hup).1
  next => exact Acts.refl world

theorem step_ready {world : World} (label : Label) (hready : Ready world) :
    Ready (step world label) where
  sound := acts_sound (step_acts label hready) hready.sound
  idle := by
    unfold step
    split
    next hup => exact (dispatch_acts label hready hup).2
    next hdown => exact fun hup => absurd hup hdown

theorem run_ready {world : World} (labels : List Label) (hready : Ready world) :
    Ready (run step world labels) :=
  run_invariant step Ready (fun _ label hready => step_ready label hready) labels hready

/-- The invariant rule for runs: one case for each kind of action that the labels
of the run allow. -/
theorem run_keeps_acts (invariant : World → Prop) {condition : World → Label → Prop}
    (hact : ∀ world label kind state next, Ready world → condition world label →
      Allowed world label kind → Sound state → invariant state → Act kind state next →
      invariant next)
    {world : World} {labels : List Label} (hready : Ready world) (hworld : invariant world)
    (hlabels : EveryStep step condition world labels) :
    invariant (run step world labels) := by
  refine (run_keeps step (fun world => Ready world ∧ invariant world) ?_
    ⟨hready, hworld⟩ hlabels).2
  rintro world label ⟨hready, hworld⟩ hcondition
  refine ⟨step_ready label hready, ?_⟩
  refine ((step_acts label hready).keeps (fun state => Sound state ∧ invariant state) ?_
    ⟨hready.sound, hworld⟩).2
  rintro kind state next hkind hstep ⟨hsound, hstate⟩
  exact ⟨hstep.sound hsound, hact world label kind state next hready hcondition hkind hsound
    hstate hstep⟩

end AcflyRos.Daemon
