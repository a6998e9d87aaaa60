import AcflyRos.Daemon.Tracking

/-! # Whom `kill_zombie` kills

Before a process is started, whatever is left of its last instance is sent SIGKILL: every process
whose command line contains the last argument of the entry. The pids of the entries are spared,
but what they manage are launchers: the nodes are descendants of theirs, and these
are spared only as long as their command lines do not contain that argument.
-/

namespace AcflyRos.Daemon

open AcflyRos.Transition

/-- A process in `/proc`. -/
structure ProcEntry where
  pid : Pid
  parent : Pid
  cmdline : String
  deriving DecidableEq, Repr

/-- The first process descends from the second. -/
def Descends (snapshot : List ProcEntry) : Pid → Pid → Prop :=
  Relation.TransGen fun pid parent =>
    ∃ entry ∈ snapshot, entry.pid = pid ∧ entry.parent = parent

namespace World

/-- `/proc` shows that snapshot at the next interaction. `kill_zombie` does not read who the
parent of a process is. -/
def facing (world : World) (snapshot : List ProcEntry) : World :=
  { world with
    script := { world.beat with procfs := snapshot.map fun entry => (entry.pid, entry.cmdline) } ::
      world.script.tail }

/-- A running child of an entry other than the `i`-th. -/
def ChildOfOther (world : World) (i : Nat) (pid : Pid) : Prop :=
  ∃ j mp, j ≠ i ∧ world.processes[j]? = some mp ∧ mp.pid = pid ∧
    ∃ child ∈ world.children, child.pid = pid ∧ child.status = none

/-- The process belongs to a running child of an entry other than the `i`-th. -/
def BelongsToOther (world : World) (i : Nat) (snapshot : List ProcEntry) (pid : Pid) : Prop :=
  ∃ owner, world.ChildOfOther i owner ∧ Descends snapshot pid owner

def Managed (world : World) (pid : Pid) : Prop := ∃ mp ∈ world.processes, mp.pid = pid

/-- `kill_zombie` for the `i`-th entry kills neither the daemon nor a managed child nor what
belongs to the child of another entry, and with an empty pattern nothing. -/
def SparesOthers (world : World) (i : Nat) (snapshot : List ProcEntry) : Prop :=
  ∀ mp, world.processes[i]? = some mp →
    ∃ killed, (killZombie mp (world.facing snapshot)).log =
        killed.map .zombieKilled ++ world.log ∧
      (∀ pid ∈ killed, pid ≠ world.config.selfPid ∧ ¬ world.Managed pid ∧
        ¬ world.BelongsToOther i snapshot pid) ∧
      (mp.args.getLast? = some "" → killed = [])

/-- A process that `kill_zombie` compares with its pattern. -/
def Exposed (world : World) (entry : ProcEntry) : Prop :=
  0 < entry.pid ∧ entry.pid ≠ world.config.selfPid ∧ ¬ world.Managed entry.pid ∧
    entry.cmdline ≠ ""

/-- The last argument of the `i`-th entry is no part of the command line of an exposed process
that belongs to another entry, and if it is empty, no process is exposed. -/
def PatternApart (world : World) (i : Nat) (snapshot : List ProcEntry) : Prop :=
  ∀ mp, world.processes[i]? = some mp → ∀ pattern, mp.args.getLast? = some pattern →
    ∀ entry ∈ snapshot, world.Exposed entry → pattern ≠ "" ∧
      (world.BelongsToOther i snapshot entry.pid →
        ¬ pattern.toList <:+: entry.cmdline.toList)

theorem isZombieOf_iff (world : World) (pattern : String) (entry : ProcEntry) :
    world.isZombieOf pattern entry.pid entry.cmdline = true ↔
      world.Exposed entry ∧ pattern.toList <:+: entry.cmdline.toList := by
  simp [isZombieOf, Exposed, Managed, and_assoc]

/-- What decides who is a zombie does not change on the way. -/
theorem isZombieOf_congr {world next : World} (hconfig : next.config = world.config)
    (hprocesses : next.processes = world.processes) (pattern : String) (pid : Pid)
    (cmdline : String) :
    next.isZombieOf pattern pid cmdline = world.isZombieOf pattern pid cmdline := by
  rw [isZombieOf, isZombieOf, hconfig, hprocesses]

/-- The pids that `kill_zombie` kills. -/
def zombies (world : World) (pattern : String) (snapshot : List ProcEntry) : List Pid :=
  (snapshot.filter fun entry => world.isZombieOf pattern entry.pid entry.cmdline).map (·.pid)

theorem mem_zombies {world : World} {pattern : String} {snapshot : List ProcEntry} {pid : Pid} :
    pid ∈ world.zombies pattern snapshot ↔ ∃ entry ∈ snapshot, entry.pid = pid ∧
      world.Exposed entry ∧ pattern.toList <:+: entry.cmdline.toList := by
  simp only [zombies, List.mem_map, List.mem_filter, isZombieOf_iff]
  constructor
  · rintro ⟨entry, ⟨hentry, hzombie⟩, hpid⟩
    exact ⟨entry, hentry, hpid, hzombie⟩
  · rintro ⟨entry, hentry, hpid, hzombie⟩
    exact ⟨entry, ⟨hentry, hzombie⟩, hpid⟩

theorem killZombie_log {mp : ManagedProcess} {pattern : String}
    (hpattern : mp.args.getLast? = some pattern) (world : World) (snapshot : List ProcEntry) :
    (killZombie mp (world.facing snapshot)).log =
      (world.zombies pattern snapshot).reverse.map .zombieKilled ++ world.log := by
  simp only [killZombie, hpattern]
  rw [foldl_notes World.log (fun line => world.isZombieOf pattern line.1 line.2)
    (fun line => .zombieKilled line.1)
    (fun later => later.config = world.config ∧ later.processes = world.processes) ?_ _ ?_]
  · simp only [facing, beat, List.headD_cons, zombies, List.filter_map, List.map_map,
      List.map_reverse]
    rfl
  · rintro later line ⟨hconfig, hprocesses⟩
    rw [isZombieOf_congr hconfig hprocesses]
    split
    · exact ⟨⟨hconfig, hprocesses⟩, rfl⟩
    · exact ⟨⟨hconfig, hprocesses⟩, rfl⟩
  · exact ⟨rfl, rfl⟩

variable {world : World} {i : Nat} {snapshot : List ProcEntry}

theorem SparesOthers.patternApart (hspares : world.SparesOthers i snapshot) :
    world.PatternApart i snapshot := by
  intro mp hmp pattern hpattern entry hentry hexposed
  obtain ⟨killed, hlog, hothers, hempty⟩ := hspares mp hmp
  rw [killZombie_log hpattern] at hlog
  have hkilled : pattern.toList <:+: entry.cmdline.toList → entry.pid ∈ killed := by
    intro hinfix
    have hmem : Event.zombieKilled entry.pid ∈ killed.map .zombieKilled := by
      rw [← List.append_cancel_right hlog]
      exact List.mem_map_of_mem
        (List.mem_reverse.mpr (mem_zombies.mpr ⟨entry, hentry, rfl, hexposed, hinfix⟩))
    obtain ⟨pid, hpid, hsame⟩ := List.mem_map.mp hmem
    cases hsame
    exact hpid
  constructor
  · rintro rfl
    have hmem := hkilled List.nil_infix
    rw [hempty hpattern] at hmem
    exact List.not_mem_nil hmem
  · exact fun hbelongs hinfix => (hothers entry.pid (hkilled hinfix)).2.2 hbelongs

theorem PatternApart.sparesOthers (hapart : world.PatternApart i snapshot) :
    world.SparesOthers i snapshot := by
  intro mp hmp
  cases hpattern : mp.args.getLast? with
  | none =>
      refine ⟨[], ?_, fun pid hpid => absurd hpid List.not_mem_nil, fun _ => rfl⟩
      simp only [killZombie, hpattern, List.map_nil, List.nil_append]
      rfl
  | some pattern =>
      refine ⟨_, killZombie_log hpattern world snapshot, fun pid hpid => ?_, ?_⟩
      · obtain ⟨entry, hentry, rfl, hexposed, hinfix⟩ := mem_zombies.mp (List.mem_reverse.mp hpid)
        refine ⟨hexposed.2.1, hexposed.2.2.1, fun hbelongs => ?_⟩
        exact (hapart mp hmp pattern hpattern entry hentry hexposed).2 hbelongs hinfix
      · intro hempty
        cases hempty
        rw [List.reverse_eq_nil_iff, List.eq_nil_iff_forall_not_mem]
        intro pid hpid
        obtain ⟨entry, hentry, _, hexposed, _⟩ := mem_zombies.mp hpid
        exact (hapart mp hmp "" hpattern entry hentry hexposed).1 rfl

/-- In every state, and whatever `/proc` shows, `kill_zombie` stays with the processes left over
from its own entry exactly if the last argument tells them from those of the other entries. -/
theorem sparesOthers_iff (world : World) (i : Nat) (snapshot : List ProcEntry) :
    world.SparesOthers i snapshot ↔ world.PatternApart i snapshot :=
  ⟨SparesOthers.patternApart, PatternApart.sparesOthers⟩

end World

/-- Both processes log in the same way. -/
def talkative : List ProcessNode :=
  [{ mavros with args := ["launch", "px4.launch", "log:=info"] },
    { name := "timesync", command := "ros2", args := ["run", "timesync_node", "log:=info"] }]

/-- The launcher of mavros, and its node. -/
def launched : List ProcEntry :=
  [⟨100, 1, "ros2 launch px4.launch log:=info"⟩, ⟨101, 100, "mavros_node log:=info"⟩]

/-- A start of timesync takes the node of mavros along. -/
theorem not_sparesOthers_launched :
    ¬ ∀ (config : Config) (nodes : List ProcessNode) (ros steady : Int) (labels : List Label)
      (i : Nat) (snapshot : List ProcEntry),
        (run step (initial config nodes ros steady) labels).SparesOthers i snapshot := by
  intro hall
  have hapart := (hall {} talkative 0 0 [forkingTick 100] 1 launched).patternApart
  refine (hapart _ rfl "log:=info" rfl ⟨101, 100, "mavros_node log:=info"⟩ (by decide) ?_).2 ?_
    (by decide)
  · exact ⟨by decide, by decide, by rintro ⟨mp, hmp, hpid⟩; revert mp; decide, by decide⟩
  · refine ⟨100, ⟨0, _, by decide, rfl, rfl, _, List.mem_singleton_self _, rfl, rfl⟩, ?_⟩
    exact Relation.TransGen.single ⟨_, List.mem_cons_of_mem _ (List.mem_singleton_self _), rfl, rfl⟩

end AcflyRos.Daemon
