import AcflyRos.CommandFile.Once

/-! # Commands underway

A command stays in the file until the reader reads it when nobody else is about to write or to
remove the file as its writer opens it, and when everybody who opens the file before finds it
free: who finds the file free does not empty it over a command, and nobody writes over another's
line.
-/

namespace AcflyRos.CommandFile

open AcflyRos.Transition AcflyRos.Sequences

/-- Between reading a line and removing the file. -/
def Reader.Removing : Reader → Prop
  | .read _ => True
  | _ => False

instance : DecidablePred Reader.Removing := fun reader => by
  cases reader <;> unfold Reader.Removing <;> infer_instance

namespace World

/-- Nobody is about to write to the file, and the reader is not about to remove it. -/
structure Settled (world : World) : Prop where
  unopened : ∀ session ∈ world.sessions, world.entry = some session.file →
    session.stage ≠ .opened
  kept : ¬ world.reader.Removing

/-- Moreover, the file is absent or empty. -/
structure Free (world : World) : Prop extends Settled world where
  empty : ∀ file ∈ world.entry, world.files[file]? = some []

/-- The file has the session's command, or nothing as long as the session is yet to write it. -/
structure InFile (number : Nat) (session : Session) (world : World) : Prop where
  found : world.sessions[number]? = some session
  entry : world.entry = some session.file
  content : world.files[session.file]? = some (if session.stage = .opened then []
    else tagged number session.command.text ++ [(number, '\n')])
  alone : ∀ index other, world.sessions[index]? = some other → other.file = session.file →
    other.stage = .opened → index = number
  kept : ¬ world.reader.Removing

end World

/-- Until the reader reads the file. -/
def Reader.stepsToRead : Reader → Nat
  | .opened _ => 1
  | .found => 2
  | .idle => 3
  | _ => 4

/-- The command is executed with so many more steps of the reader. -/
inductive Due (number : Nat) (command : Command) (world : World) : Nat → Prop
  | waiting {steps : Nat} (session : Session) (hfile : world.InFile number session)
      (hcommand : session.command = command) (hstage : session.stage ≠ .opened)
      (hsteps : world.reader.stepsToRead + 2 ≤ steps) : Due number command world steps
  | read {steps : Nat} (hreader : world.reader = .read (tagged number command.text))
      (hsteps : 2 ≤ steps) : Due number command world steps
  | removed {steps : Nat} (hreader : world.reader = .removed (tagged number command.text))
      (hsteps : 1 ≤ steps) : Due number command world steps
  | executed {steps : Nat} (outcome : Outcome)
      (hexecuted : (tagged number command.text, outcome) ∈ executions world.log) :
      Due number command world steps

/-- Whoever opens the file finds it free, as long as the session's command has not been read. -/
def Undisturbed (number : Nat) (command : Command) (world : World) (label : Label) : Prop :=
  (opens world label).isSome = true →
    world.Free ∨ tagged number command.text ∈ (readLines world.log).map Prod.snd

theorem touches_tagged (number : Nat) (command : Command) :
    Touches number (tagged number command.text) := by
  obtain ⟨c, hc⟩ := List.exists_mem_of_ne_nil _ command.nonempty
  exact ⟨(number, c), List.mem_map_of_mem hc, rfl⟩

theorem text_tagged (number : Nat) (text : List Char) : (tagged number text).text = text := by
  simp [tagged, Bytes.text, Function.comp_def]

namespace World

variable {world : World}

theorem firstLine_line (command : Command) (number : Nat) :
    firstLine (tagged number command.text ++ [(number, '\n')]) = tagged number command.text := by
  have hsingle := command.single
  rw [firstLine, tagged, List.takeWhile_append_of_pos]
  · simp
  · intro byte hbyte
    obtain ⟨c, hc, rfl⟩ := List.mem_map.mp hbyte
    have hne : c ≠ '\n' := fun heq => hsingle (heq ▸ hc)
    simp [hne]

namespace InFile

variable {number : Nat} {session : Session} {after : World}

theorem not_free (h : world.InFile number session) : ¬ world.Free := by
  intro hfree
  have hopened := hfree.unopened session (List.mem_of_getElem? h.found) h.entry
  have hempty := hfree.empty session.file h.entry
  rw [h.content, if_neg hopened, Option.some_inj] at hempty
  simp at hempty

theorem not_read (h : world.InFile number session) (hcoherent : world.Coherent) :
    tagged number session.command.text ∉ (readLines world.log).map Prod.snd := by
  intro hread
  obtain ⟨⟨file, line⟩, hline, hsame⟩ := List.mem_map.mp hread
  obtain ⟨c, hc⟩ := List.exists_mem_of_ne_nil _ session.command.nonempty
  obtain rfl : line = tagged number session.command.text := hsame
  have hfile := hcoherent.lines _ hline (number, c) (List.mem_map_of_mem hc)
  simp only [fileOf, h.found, Option.map_some, Option.some_inj] at hfile
  obtain ⟨other, hreader⟩ :=
    hcoherent.unread session.file h.entry (hfile ▸ List.mem_map_of_mem hline)
  exact h.kept (by simp [hreader, Reader.Removing])

/-- Nobody opens the file. -/
theorem not_opens (h : world.InFile number session) (hcoherent : world.Coherent) {label : Label}
    (hlabel : Undisturbed number session.command world label) : opens world label = none := by
  by_contra hopens
  rcases hlabel (Option.isSome_iff_ne_none.mpr hopens) with hfree | hread
  · exact h.not_free hfree
  · exact h.not_read hcoherent hread

/-- What another session does. -/
theorem set_other (h : world.InFile number session) {index : Nat} {other : Session}
    (hne : index ≠ number) (hother : world.sessions[index]? = some other) (stage : Stage)
    (hstage : stage ≠ .opened) (files : List Bytes) (log : List Event)
    (hcontent : files[session.file]? = world.files[session.file]?) :
    InFile number session
      { world with files, log, sessions := world.sessions.set index { other with stage } } := by
  refine ⟨?_, h.entry, hcontent.trans h.content, ?_, h.kept⟩
  · exact (List.getElem?_set_ne hne).trans h.found
  · intro position found hfound hfile hopened
    by_cases hposition : index = position
    · subst hposition
      have hlt := (List.getElem?_eq_some_iff.mp hother).1
      simp only [List.getElem?_set_self hlt, Option.some_inj] at hfound
      subst hfound
      exact absurd hopened hstage
    · simp only [List.getElem?_set_ne hposition] at hfound
      exact h.alone position found hfound hfile hopened

/-- What the session itself does. -/
theorem set_self (h : world.InFile number session) (stage : Stage) (hstage : stage ≠ .opened)
    (files : List Bytes) (log : List Event)
    (hcontent : files[session.file]? =
      some (tagged number session.command.text ++ [(number, '\n')])) :
    InFile number { session with stage }
      { world with files, log, sessions := world.sessions.set number { session with stage } } := by
  have hlt := (List.getElem?_eq_some_iff.mp h.found).1
  refine ⟨List.getElem?_set_self hlt, h.entry, ?_, ?_, h.kept⟩
  · simpa [hstage] using hcontent
  · intro position found hfound hfile hopened
    by_cases hposition : number = position
    · exact hposition.symm
    · simp only [List.getElem?_set_ne hposition] at hfound
      exact h.alone position found hfound hfile hopened

/-- What anybody but the reader does. -/
theorem writing (h : world.InFile number session) (hwriting : Writing world none after) :
    ∃ later : Session, later.command = session.command ∧
      (session.stage ≠ .opened → later.stage ≠ .opened) ∧ after.InFile number later := by
  have hcontent := h.content
  cases hwriting with
  | unchanged => exact ⟨session, rfl, id, h⟩
  | @wrote index other hother hopened =>
      by_cases hindex : index = number
      · subst hindex
        obtain rfl := Option.some_inj.mp (hother.symm.trans h.found)
        rw [if_pos hopened] at hcontent
        exact ⟨{ other with stage := .written }, rfl, by simp,
          h.set_self .written (by simp) _ _ (by simp [hcontent, overlay])⟩
      · -- Another session that is about to write has another file open.
        have hfile : other.file ≠ session.file := by
          intro hsame
          exact hindex (h.alone index other hother hsame hopened)
        exact ⟨session, rfl, id, h.set_other hindex hother .written (by simp) _ _
          (by simp [hfile])⟩
  | @closed index other hother hwritten =>
      by_cases hindex : index = number
      · subst hindex
        obtain rfl := Option.some_inj.mp (hother.symm.trans h.found)
        rw [if_neg (by simp [hwritten])] at hcontent
        exact ⟨{ other with stage := .closed }, rfl, by simp,
          h.set_self .closed (by simp) _ _ hcontent⟩
      · exact ⟨session, rfl, id, h.set_other hindex hother .closed (by simp) _ _ rfl⟩
  | transferEnded => exact ⟨session, rfl, id, h.found, h.entry, h.content, h.alone, h.kept⟩

/-- As long as the command has not been read, nobody opens the file. -/
theorem writerStep (h : world.InFile number session) (hcoherent : world.Coherent) {label : Label}
    (hlabel : Undisturbed number session.command world label) (hwriter : label ≠ .reader) :
    ∃ later : Session, later.command = session.command ∧
      (session.stage ≠ .opened → later.stage ≠ .opened) ∧
        (step world label).InFile number later := by
  have hwriting := step_writing world hwriter
  rw [h.not_opens hcoherent hlabel] at hwriting
  exact h.writing hwriting

/-- The reader moves on without having read the file. -/
theorem with_reader (h : world.InFile number session) {reader : Reader} (hkept : ¬ reader.Removing)
    (mapTransferInProgress : Bool) (log : List Event) :
    InFile number session { world with reader, mapTransferInProgress, log } :=
  ⟨h.found, h.entry, h.content, h.alone, hkept⟩

/-- The reader comes closer to a command that has been written. -/
theorem reading (h : world.InFile number session) (hcoherent : world.Coherent)
    (hreading : Reading world after) :
    after.InFile number session ∧
        (session.stage ≠ .opened → after.reader.stepsToRead + 1 ≤ world.reader.stepsToRead) ∨
      session.stage ≠ .opened ∧ world.reader.stepsToRead = 1 ∧
        after.reader = .read (tagged number session.command.text) := by
  have hcontent := h.content
  cases hreading with
  | waits hreader hentry => cases hentry.symm.trans h.entry
  | finds hreader =>
      refine Or.inl ⟨h.with_reader (by simp [Reader.Removing]) _ _, fun _ => ?_⟩
      simp [hreader, Reader.stepsToRead]
  | misses hreader hentry => cases hentry.symm.trans h.entry
  | opens hreader hentry =>
      refine Or.inl ⟨h.with_reader (by simp [Reader.Removing]) _ _, fun _ => ?_⟩
      simp [hreader, Reader.stepsToRead]
  | @readsNothing file hreader hempty =>
      obtain rfl : file = session.file :=
        Option.some_inj.mp ((hcoherent.opened file hreader).symm.trans h.entry)
      refine Or.inl ⟨h.with_reader (by simp [Reader.Removing]) _ _, fun hstage => ?_⟩
      rw [if_neg hstage] at hcontent
      simpa using hempty _ hcontent
  | @reads file content hreader hfound hnonempty =>
      obtain rfl : file = session.file :=
        Option.some_inj.mp ((hcoherent.opened file hreader).symm.trans h.entry)
      rw [hfound, Option.some_inj] at hcontent
      by_cases hstage : session.stage = .opened
      · rw [if_pos hstage] at hcontent
        exact absurd hcontent hnonempty
      · rw [if_neg hstage] at hcontent
        refine Or.inr ⟨hstage, by simp [hreader, Reader.stepsToRead], ?_⟩
        rw [hcontent, firstLine_line]
  -- The reader is not about to remove the file.
  | removes hreader => exact absurd (by simp [hreader, Reader.Removing]) h.kept
  | executes _ hreader =>
      refine Or.inl ⟨h.with_reader (by simp [Reader.Removing]) _ _, fun _ => ?_⟩
      simp [hreader, Reader.stepsToRead]

end InFile

end World

/-- The session that opens the file. -/
theorem Writing.inFile {world after : World} {command : Command}
    (hwriting : Writing world (some command) after) (hcoherent : world.Coherent)
    (hsettled : world.Settled) :
    ∃ session : Session, session.command = command ∧ session.stage = .opened ∧
      after.InFile world.sessions.length session := by
  have halone : ∀ (author : Author) (file index : Nat) (other : Session),
      (∀ session ∈ world.sessions, session.file = file → session.stage ≠ .opened) →
        (world.sessions ++ [({ author, command, file } : Session)])[index]? = some other →
          other.file = file → other.stage = .opened → index = world.sessions.length := by
    intro author file index other hunopened hother hfile hopened
    rw [List.getElem?_append] at hother
    split at hother
    · exact absurd hopened (hunopened other (List.mem_of_getElem? hother) hfile)
    · have hlt := (List.getElem?_eq_some_iff.mp hother).1
      simp only [List.length_singleton] at hlt
      omega
  cases hwriting with
  | @emptied file author _ hentry =>
      refine ⟨{ author, command, file }, rfl, rfl, by simp, hentry, ?_, ?_, hsettled.kept⟩
      · exact List.getElem?_set_self (hcoherent.entry_lt file hentry)
      · intro index other
        refine halone author file index other fun session hsession hfile => ?_
        exact hsettled.unopened session hsession (hfile ▸ hentry)
  | created author _ hentry =>
      refine ⟨{ author, command, file := world.files.length }, rfl, rfl, by simp, rfl, by simp, ?_,
        hsettled.kept⟩
      intro index other
      refine halone author world.files.length index other fun session hsession hfile => ?_
      exact absurd (hcoherent.created session hsession) (by omega)

section Progress

variable {world : World} {number : Nat} {command : Command}

theorem Due.executed_of_zero (h : Due number command world 0) :
    ∃ outcome, (tagged number command.text, outcome) ∈ executions world.log := by
  cases h with
  | waiting session _ _ _ hsteps => omega
  | read _ hsteps => omega
  | removed _ hsteps => omega
  | executed outcome hexecuted => exact ⟨outcome, hexecuted⟩

theorem World.InFile.due {session : Session} (h : world.InFile number session)
    (hstage : session.stage ≠ .opened) : Due number session.command world 6 := by
  refine .waiting session h rfl hstage ?_
  cases world.reader <;> simp [Reader.stepsToRead]

/-- The session has opened the file, and its command comes to the reader. -/
def Underway (number : Nat) (command : Command) (world : World) : Prop :=
  (∃ session : Session, session.command = command ∧ world.InFile number session) ∨
    Due number command world 6

theorem Due.mono {steps more : Nat} (h : Due number command world steps) (hle : steps ≤ more) :
    Due number command world more := by
  cases h with
  | waiting session hfile hcommand hstage hsteps =>
      exact .waiting session hfile hcommand hstage (Nat.le_trans hsteps hle)
  | read hreader hsteps => exact .read hreader (Nat.le_trans hsteps hle)
  | removed hreader hsteps => exact .removed hreader (Nat.le_trans hsteps hle)
  | executed outcome hexecuted => exact .executed outcome hexecuted

theorem Due.readerStep {steps : Nat} (h : Due number command world steps)
    (hcoherent : world.Coherent) : Due number command world.readerStep (steps - 1) := by
  cases h with
  | waiting session hfile hcommand hstage hsteps =>
      subst hcommand
      rcases hfile.reading hcoherent (readerStep_reading world) with
        ⟨hlater, hcloser⟩ | ⟨_, hone, hread⟩
      · exact .waiting session hlater rfl hstage (by have := hcloser hstage; omega)
      · exact .read hread (by omega)
  | read hreader hsteps =>
      refine .removed ?_ (by omega)
      simp [World.readerStep, hreader]
  | removed hreader hsteps =>
      refine .executed (execute world.mapTransferInProgress (tagged number command.text).text) ?_
      simp [World.readerStep, hreader, World.record, executions]
  | executed outcome hexecuted =>
      have hsuffix := (readerStep_reading world).log_suffix
      exact .executed outcome ((hsuffix.filterMap _).subset hexecuted)

theorem Due.step {steps : Nat} (h : Due number command world steps) (hcoherent : world.Coherent)
    {label : Label} (hlabel : Undisturbed number command world label) :
    Due number command (step world label) (steps - [label].count .reader) := by
  by_cases hreader : label = .reader
  · subst hreader
    exact h.readerStep hcoherent
  · have hwriting := step_writing world hreader
    have hsame := hwriting.reader_eq
    rw [List.count_eq_zero.mpr (by simpa using Ne.symm hreader), Nat.sub_zero]
    cases h with
    | waiting session hfile hcommand hstage hsteps =>
        subst hcommand
        obtain ⟨later, hcommand, hwritten, hlater⟩ := hfile.writerStep hcoherent hlabel hreader
        exact .waiting later hlater hcommand (hwritten hstage) (hsame ▸ hsteps)
    | read hread hsteps => exact .read (hsame.trans hread) hsteps
    | removed hremoved hsteps => exact .removed (hsame.trans hremoved) hsteps
    | executed outcome hexecuted =>
        exact .executed outcome ((hwriting.log_suffix.filterMap _).subset hexecuted)

theorem Underway.step (h : Underway number command world) (hcoherent : world.Coherent)
    {label : Label} (hlabel : Undisturbed number command world label) :
    Underway number command (step world label) := by
  rcases h with ⟨session, rfl, hfile⟩ | hdue
  · by_cases hreader : label = .reader
    · subst hreader
      rcases hfile.reading hcoherent (readerStep_reading world) with ⟨hlater, _⟩ | ⟨_, _, hread⟩
      · exact Or.inl ⟨session, rfl, hlater⟩
      · exact Or.inr (.read hread (by omega))
    · obtain ⟨later, hcommand, _, hlater⟩ := hfile.writerStep hcoherent hlabel hreader
      exact Or.inl ⟨later, hcommand, hlater⟩
  · exact Or.inr ((hdue.step hcoherent hlabel).mono (Nat.sub_le _ _))

/-! ## Runs -/

theorem coherent_run (h : world.Coherent) (labels : List Label) :
    (run CommandFile.step world labels).Coherent :=
  run_invariant CommandFile.step World.Coherent (fun _ label hcoherent => hcoherent.step label)
    labels h

theorem Underway.run (h : Underway number command world) (hcoherent : world.Coherent)
    {labels : List Label}
    (hlabels : EveryStep CommandFile.step (Undisturbed number command) world labels) :
    Underway number command (run CommandFile.step world labels) := by
  have hboth := run_keeps CommandFile.step
    (fun world => world.Coherent ∧ Underway number command world)
    (fun world label hworld hlabel => ⟨hworld.1.step label, hworld.2.step hworld.1 hlabel⟩)
    ⟨hcoherent, h⟩ hlabels
  exact hboth.2

theorem Due.run {steps : Nat} (h : Due number command world steps) (hcoherent : world.Coherent)
    {labels : List Label}
    (hlabels : EveryStep CommandFile.step (Undisturbed number command) world labels) :
    Due number command (run CommandFile.step world labels) (steps - labels.count .reader) := by
  induction labels generalizing world steps with
  | nil => exact h
  | cons label labels ih =>
      have hrest := ih (h.step hcoherent hlabels.1) (hcoherent.step label) hlabels.2
      apply hrest.mono
      simp only [List.count_cons, List.count_nil]
      omega

/-- Once the command is written, the steps of the reader that it takes see to its execution. -/
theorem Underway.executionsOf_run (h : Underway number command world) (hcoherent : world.Coherent)
    {session : Session} (hsession : world.sessions[number]? = some session)
    (hstage : session.stage ≠ .opened) {labels : List Label}
    (hlabels : EveryStep CommandFile.step (Undisturbed number command) world labels)
    (hreader : 6 ≤ labels.count .reader) :
    ∃ transfer, executionsOf number (Transition.run CommandFile.step world labels).log =
      [(tagged number command.text, execute transfer command.text)] := by
  have hdue : Due number command world 6 := by
    rcases h with ⟨found, rfl, hfile⟩ | hdue
    · obtain rfl := Option.some_inj.mp (hsession.symm.trans hfile.found)
      exact hfile.due hstage
    · exact hdue
  have hafter := coherent_run hcoherent labels
  have hzero := hdue.run hcoherent hlabels
  rw [Nat.sub_eq_zero_of_le hreader] at hzero
  obtain ⟨outcome, hexecuted⟩ := hzero.executed_of_zero
  obtain ⟨transfer, houtcome⟩ := hafter.outcome _ hexecuted
  have hmem : (tagged number command.text, outcome) ∈
      executionsOf number (Transition.run CommandFile.step world labels).log :=
    List.mem_filter.mpr ⟨hexecuted, decide_eq_true (touches_tagged number command)⟩
  have honce := hafter.executionsOf_length number
  rw [text_tagged] at houtcome
  refine ⟨transfer, ?_⟩
  rw [← houtcome]
  exact eq_singleton_of_mem hmem honce

end Progress

end AcflyRos.CommandFile
