import AcflyRos.CommandFile.Underway

/-! # Delivery of the commands

A reset counts as triggered when its session is over, whether or not it ever reaches the
reader: a command is lost when somebody opens the file over it, or when the file loses its name
before the reader has read it.
-/

namespace AcflyRos.CommandFile

open AcflyRos.Transition

/-! ## Triggered resets -/

namespace World

variable {world : World}

/-- A reset is triggered when its session is over. -/
def Triggered (world : World) : Prop :=
  ∀ number, Event.resetTriggered number ∈ world.log →
    ∃ session, world.sessions[number]? = some session ∧ session.stage = .closed

namespace Triggered

variable {after : World}

theorem append (h : world.Triggered) (session : Session)
    (hsessions : after.sessions = world.sessions ++ [session]) (hlog : after.log = world.log) :
    after.Triggered := by
  intro number hevent
  rw [hlog] at hevent
  obtain ⟨found, hfound, hclosed⟩ := h number hevent
  have hlt := (List.getElem?_eq_some_iff.mp hfound).1
  rw [hsessions]
  exact ⟨found, (List.getElem?_append_left hlt).trans hfound, hclosed⟩

/-- A session that is not over moves on. -/
theorem set (h : world.Triggered) {number : Nat} {session : Session} {stage : Stage}
    (hsession : world.sessions[number]? = some session) (hstage : session.stage ≠ .closed)
    (hsessions : after.sessions = world.sessions.set number { session with stage })
    (hevents : ∀ other, Event.resetTriggered other ∈ after.log →
      Event.resetTriggered other ∈ world.log ∨ other = number ∧ stage = .closed) :
    after.Triggered := by
  have hlt := (List.getElem?_eq_some_iff.mp hsession).1
  intro other hevent
  rw [hsessions]
  rcases hevents other hevent with hold | ⟨rfl, rfl⟩
  · obtain ⟨found, hfound, hclosed⟩ := h other hold
    have hne : number ≠ other := by
      rintro rfl
      obtain rfl := Option.some_inj.mp (hsession.symm.trans hfound)
      exact hstage hclosed
    exact ⟨found, (List.getElem?_set_ne hne).trans hfound, hclosed⟩
  · exact ⟨_, List.getElem?_set_self hlt, rfl⟩

theorem writing (h : world.Triggered) {opened : Option Command}
    (hwriting : Writing world opened after) : after.Triggered := by
  cases hwriting with
  | unchanged => exact h
  | emptied => exact h.append _ rfl rfl
  | created => exact h.append _ rfl rfl
  | wrote hsession hopened =>
      refine h.set hsession (by simp [hopened]) rfl fun other hevent => Or.inl ?_
      simpa using hevent
  | @closed number session hsession hwritten =>
      refine h.set hsession (by simp [hwritten]) rfl fun other hevent => ?_
      rcases List.mem_append.mp hevent with hnew | hold
      · split at hnew
        · exact Or.inr ⟨by simpa using hnew, rfl⟩
        · cases hnew
      · exact Or.inl hold
  | transferEnded => exact h

/-- The reader reports other things. -/
theorem reading (h : world.Triggered) (hreading : Reading world after) : after.Triggered := by
  have hevents : ∀ number, .resetTriggered number ∈ after.log →
      .resetTriggered number ∈ world.log := by
    intro number hevent
    cases hreading <;> simpa using hevent
  have hsessions : after.sessions = world.sessions := by cases hreading <;> rfl
  intro number hevent
  rw [hsessions]
  exact h number (hevents number hevent)

theorem step (h : world.Triggered) (label : Label) : (step world label).Triggered := by
  by_cases hreader : label = .reader
  · subst hreader
    exact h.reading (readerStep_reading world)
  · exact h.writing (step_writing world hreader)

end Triggered

end World

/-! ## Delivery -/

/-- The file is opened for the command by that label, after those labels and before the later ones.
Nobody else is about to write to it or to remove it then, and everybody who opens it before the
command is read finds it free. -/
structure Served (early : List Label) (label : Label) (command : Command) (later : List Label) :
    Prop where
  opens : opens (run step {} early) label = some command
  settled : (run step {} early).Settled
  undisturbed : EveryStep step (Undisturbed (run step {} early).sessions.length command)
    (run step {} (early ++ [label])) later

theorem Served.underway {early later : List Label} {label : Label} {command : Command}
    (h : Served early label command later) :
    Underway (run step {} early).sessions.length command (run step {} (early ++ [label])) := by
  have hopens := h.opens
  have hwriter : label ≠ .reader := by
    rintro rfl
    cases hopens
  have hwriting := step_writing (run step {} early) hwriter
  rw [hopens] at hwriting
  rw [run_append]
  obtain ⟨session, hcommand, _, hfile⟩ :=
    hwriting.inFile (coherent_run coherent_initial early) h.settled
  exact Or.inl ⟨session, hcommand, hfile⟩

/-- A command that is served is executed once, as it was written, when it has been written and the
reader has taken six more steps. -/
theorem Served.executionsOf_run {early writing polls : List Label} {label : Label}
    {command : Command} (h : Served early label command (writing ++ polls))
    (hpolls : 6 ≤ polls.count .reader) {session : Session}
    (hsession : (run step {} (early ++ label :: writing)).sessions[
      (run step {} early).sessions.length]? = some session)
    (hstage : session.stage ≠ .opened) :
    ∃ transfer, executionsOf (run step {} early).sessions.length
        (run step {} (early ++ label :: (writing ++ polls))).log =
      [(tagged (run step {} early).sessions.length command.text,
        execute transfer command.text)] := by
  obtain ⟨hwriting, hpolling⟩ := (everyStep_append _ _ _ _).mp h.undisturbed
  have hcoherent := coherent_run coherent_initial (early ++ [label])
  have hunderway := h.underway.run hcoherent hwriting
  rw [← run_append] at hunderway hpolling
  rw [List.append_cons] at hsession
  rw [List.append_cons, ← List.append_assoc, run_append]
  exact hunderway.executionsOf_run (coherent_run coherent_initial _) hsession hstage hpolling hpolls

/-! ## Loss -/

/-- What is in the file that has the name. -/
def World.content (world : World) : Bytes := (world.entry.bind (world.files[·]?)).getD []

theorem World.content_eq {world : World} {file : Nat} {bytes : Bytes}
    (hentry : world.entry = some file) (hbytes : world.files[file]? = some bytes) :
    world.content = bytes := by
  rw [content, hentry, Option.bind_some, hbytes, Option.getD_some]

theorem not_touches_nil (number : Nat) : ¬ Touches number [] := by simp [Touches]

/-- The session has written its command, of which there is nothing in the file, and which has
neither been read nor been executed. -/
structure Lost (number : Nat) (world : World) : Prop where
  written : ∃ session, world.sessions[number]? = some session ∧ session.stage ≠ .opened
  content : ¬ Touches number world.content
  held : ∀ line ∈ world.reader.held, ¬ Touches number line
  executed : executionsOf number world.log = []

namespace Lost

variable {number : Nat} {world after : World}

theorem of_writer (h : Lost number world)
    (hwritten : ∃ session, after.sessions[number]? = some session ∧ session.stage ≠ .opened)
    (hcontent : ¬ Touches number after.content) (hreader : after.reader = world.reader)
    (hexecutions : executions after.log = executions world.log) : Lost number after :=
  ⟨hwritten, hcontent, by rw [hreader]; exact h.held, by
    rw [executionsOf, hexecutions]
    exact h.executed⟩

/-- Another session begins. -/
theorem written_append (h : Lost number world) (session : Session) :
    ∃ found, (world.sessions ++ [session])[number]? = some found ∧ found.stage ≠ .opened := by
  obtain ⟨found, hfound, hstage⟩ := h.written
  have hlt := (List.getElem?_eq_some_iff.mp hfound).1
  exact ⟨found, (List.getElem?_append_left hlt).trans hfound, hstage⟩

/-- Any session moves on. -/
theorem written_set (h : Lost number world) {index : Nat} {session : Session} {stage : Stage}
    (hstage : stage ≠ .opened) : ∃ found,
      (world.sessions.set index { session with stage })[number]? = some found ∧
        found.stage ≠ .opened := by
  obtain ⟨found, hfound, hopened⟩ := h.written
  by_cases hindex : index = number
  · subst hindex
    exact ⟨_, List.getElem?_set_self (List.getElem?_eq_some_iff.mp hfound).1, hstage⟩
  · exact ⟨found, (List.getElem?_set_ne hindex).trans hfound, hopened⟩

/-- Another session writes its line. -/
theorem not_touches_overlay {index : Nat} (hindex : index ≠ number) (text : List Char)
    {bytes : Bytes} (hbytes : ¬ Touches number bytes) :
    ¬ Touches number (overlay (tagged index text ++ [(index, '\n')]) bytes) := by
  rintro ⟨byte, hbyte, rfl⟩
  simp only [overlay, tagged, List.append_assoc, List.mem_append, List.mem_map,
    List.mem_singleton] at hbyte
  rcases hbyte with ⟨c, _, rfl⟩ | rfl | hrest
  · exact hindex rfl
  · exact hindex rfl
  · exact hbytes ⟨byte, List.mem_of_mem_drop hrest, rfl⟩

theorem writing (h : Lost number world) (hcoherent : world.Coherent) {opened : Option Command}
    (hwriting : Writing world opened after) : Lost number after := by
  cases hwriting with
  | unchanged => exact h
  | @emptied file author command hentry =>
      refine h.of_writer (h.written_append _) ?_ rfl rfl
      have hempty : (world.files.set file [])[file]? = some [] :=
        List.getElem?_set_self (hcoherent.entry_lt file hentry)
      unfold World.content
      simp only [hentry, Option.bind_some, hempty]
      exact not_touches_nil number
  | created author command hentry =>
      refine h.of_writer (h.written_append _) ?_ rfl rfl
      rw [World.content_eq rfl List.getElem?_concat_length]
      exact not_touches_nil number
  | @wrote index session hsession hopened =>
      refine h.of_writer (h.written_set (by simp)) ?_ rfl rfl
      have hindex : index ≠ number := by
        rintro rfl
        obtain ⟨found, hfound, hstage⟩ := h.written
        obtain rfl := Option.some_inj.mp (hsession.symm.trans hfound)
        exact hstage hopened
      have hcontent := h.content
      unfold World.content at hcontent ⊢
      cases hentry : world.entry with
      | none => simpa [hentry] using not_touches_nil number
      | some file =>
          simp only [hentry, Option.bind_some, List.getElem?_modify] at hcontent ⊢
          cases hbytes : world.files[file]? with
          | none => simpa [hbytes] using not_touches_nil number
          | some bytes =>
              simp only [hbytes, Option.getD_some, Option.map_eq_map, Option.map_some] at hcontent ⊢
              split
              next => exact not_touches_overlay hindex _ hcontent
              next => exact hcontent
  | closed hsession hwritten =>
      exact h.of_writer (h.written_set (by simp)) h.content rfl (by split <;> rfl)
  | transferEnded => exact h.of_writer h.written h.content rfl rfl

theorem reading (h : Lost number world) (hcoherent : world.Coherent)
    (hreading : Reading world after) : Lost number after := by
  cases hreading with
  | waits => exact h
  | finds => exact ⟨h.written, h.content, by simp [Reader.held], h.executed⟩
  | misses => exact ⟨h.written, h.content, by simp [Reader.held], h.executed⟩
  | opens => exact ⟨h.written, h.content, by simp [Reader.held], h.executed⟩
  | readsNothing => exact ⟨h.written, h.content, by simp [Reader.held], h.executed⟩
  | @reads file bytes hreader hbytes =>
      -- The file that the reader has open still has the name.
      have hcontent := h.content
      rw [World.content_eq (hcoherent.opened file hreader) hbytes] at hcontent
      refine ⟨h.written, h.content, fun line hline => ?_, h.executed⟩
      obtain rfl := List.mem_singleton.mp hline
      rintro ⟨byte, hbyte, hnumber⟩
      exact hcontent ⟨byte, List.takeWhile_subset _ hbyte, hnumber⟩
  | removes hreader =>
      have hheld := h.held
      rw [hreader] at hheld
      exact ⟨h.written, not_touches_nil number, hheld, h.executed⟩
  | @executes line _ hreader =>
      have huntouched := h.held line (by simp [hreader, Reader.held])
      refine ⟨h.written, h.content, by simp [Reader.held], ?_⟩
      exact (List.filter_cons_of_neg (by simpa using huntouched)).trans h.executed

/-- A command that is lost stays lost. -/
theorem step (h : Lost number world) (hcoherent : world.Coherent) (label : Label) :
    Lost number (step world label) := by
  by_cases hreader : label = .reader
  · subst hreader
    exact h.reading hcoherent (readerStep_reading world)
  · exact h.writing hcoherent (step_writing world hreader)

theorem executionsOf_run (h : Lost number world) (hcoherent : world.Coherent)
    (labels : List Label) :
    executionsOf number (run CommandFile.step world labels).log = [] := by
  have hboth := run_invariant CommandFile.step
    (fun world => world.Coherent ∧ Lost number world)
    (fun world label hworld => ⟨hworld.1.step label, hworld.2.step hworld.1 label⟩)
    labels ⟨hcoherent, h⟩
  exact hboth.2.executed

end Lost

/-- What has not been read has not been executed either. -/
theorem World.Coherent.lost {world : World} (h : world.Coherent) {number : Nat} {session : Session}
    (hsession : world.sessions[number]? = some session) (hstage : session.stage ≠ .opened)
    (hunread : ∀ line ∈ (readLines world.log).map Prod.snd, ¬ Touches number line)
    (hcontent : ¬ Touches number world.content) : Lost number world := by
  rw [h.held] at hunread
  refine ⟨⟨session, hsession, hstage⟩, hcontent,
    fun line hline => hunread line (List.mem_append_left _ hline), ?_⟩
  refine List.filter_eq_nil_iff.mpr fun execution hexecution => ?_
  have hline : execution.1 ∈ (executions world.log).map Prod.fst := List.mem_map_of_mem hexecution
  simpa using hunread execution.1 (List.mem_append_right world.reader.held hline)

/-! ## Every interleaving -/

/-- No command is executed twice, and one that is served is executed once. So a triggered reset
that is served sets the parameter once, and loses no other command that is served. A command of
which nothing is in the file any more before it has been read is never executed. -/
theorem run_delivers :
    (∀ labels number, (executionsOf number (run step {} labels).log).length ≤ 1) ∧
    (∀ early label command writing polls,
      Served early label command (writing ++ polls) → 6 ≤ polls.count .reader →
        let number := (run step {} early).sessions.length
        let written := run step {} (early ++ label :: writing)
        let executed := executionsOf number (run step {} (early ++ label :: (writing ++ polls))).log
        (∀ session, written.sessions[number]? = some session → session.stage ≠ .opened →
          ∃ transfer,
            executed = [(tagged number command.text, execute transfer command.text)]) ∧
        (label = .resetOpens → .resetTriggered number ∈ written.log →
          executed = [(tagged number algoReset.text,
            .setCustomParameter ['a', 'l', 'g', 'o', '_', 'r', 'e', 's', 'e', 't'] 1)])) ∧
    ∀ early number session, (run step {} early).sessions[number]? = some session →
      session.stage ≠ .opened →
        (∀ line ∈ (readLines (run step {} early).log).map Prod.snd, ¬ Touches number line) →
          ¬ Touches number (run step {} early).content →
            ∀ later, executionsOf number (run step {} (early ++ later)).log = [] := by
  refine ⟨fun labels => (coherent_run coherent_initial labels).executionsOf_length, ?_,
    fun early number session hsession hstage hunread hcontent later => ?_⟩
  · intro early label command writing polls hserved hpolls number written executed
    refine ⟨fun session hsession hstage => hserved.executionsOf_run hpolls hsession hstage, ?_⟩
    rintro rfl htriggered
    have hcommand : command = algoReset := by
      have hopens := hserved.opens
      simp only [opens] at hopens
      split at hopens
      · exact (Option.some_inj.mp hopens).symm
      · cases hopens
    have hover : written.Triggered :=
      run_invariant step World.Triggered (fun _ label htriggered => htriggered.step label) _
        fun _ hevent => absurd hevent List.not_mem_nil
    obtain ⟨session, hsession, hclosed⟩ := hover number htriggered
    obtain ⟨transfer, hexecuted⟩ :=
      hserved.executionsOf_run hpolls hsession (by rw [hclosed]; decide)
    rw [hcommand, execute_algoReset] at hexecuted
    exact hexecuted
  · have hcoherent := coherent_run coherent_initial early
    rw [run_append]
    exact (hcoherent.lost hsession hstage hunread hcontent).executionsOf_run hcoherent later

/-- `set save_map 1` -/
def saveMapCommand : Command where
  text := ['s', 'e', 't', ' ', 's', 'a', 'v', 'e', '_', 'm', 'a', 'p', ' ', '1']
  nonempty := by decide
  single := by decide

/-- A reset that is alone with the reader, and a command over which a reset is written. -/
theorem delivers_quietReset :
    executionsOf 0 (run step {} ([] ++ .resetOpens :: ([.write 0, .reader, .close 0] ++
        List.replicate 6 .reader))).log =
      [(tagged 0 algoReset.text,
        .setCustomParameter ['a', 'l', 'g', 'o', '_', 'r', 'e', 's', 'e', 't'] 1)] ∧
    ∀ later, executionsOf 0 (run step {} ([.operatorOpens saveMapCommand, .write 0, .close 0,
      .resetOpens] ++ later)).log = [] := by
  have hserved : Served [] .resetOpens algoReset
      ([.write 0, .reader, .close 0] ++ List.replicate 6 .reader) := by
    refine ⟨by decide, ⟨by simp, by simp [Reader.Removing]⟩, ?_⟩
    simp [EveryStep, Undisturbed, opens, List.replicate]
  refine ⟨(run_delivers.2.1 _ _ _ _ _ hserved (by decide)).2 rfl (by decide), ?_⟩
  exact run_delivers.2.2 _ 0 ⟨.operator, saveMapCommand, 0, .closed⟩ (by decide) (by decide)
    (by decide) (by decide)

/-! ## A lost reset -/

/-- An operator's command has been read when the reset is written over it, and then the file is
removed. -/
def removedUnread : List Label :=
  [.operatorOpens saveMapCommand, .write 0, .close 0, .reader, .reader, .reader, .resetOpens, .write 1,
    .close 1, .reader, .reader]

theorem not_delivers_removedUnread :
    .resetTriggered 1 ∈ (run step {} removedUnread).log ∧
      ∀ later, executionsOf 1 (run step {} (removedUnread ++ later)).log = [] := by
  refine ⟨by decide, fun later => ?_⟩
  have hlost : Lost 1 (run step {} removedUnread) :=
    ⟨⟨_, rfl, by decide⟩, by decide, by decide, by decide⟩
  rw [run_append]
  exact hlost.executionsOf_run (coherent_run coherent_initial _) later

end AcflyRos.CommandFile
