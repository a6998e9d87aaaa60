import AcflyRos.Foundation.Sequences
import AcflyRos.CommandFile.Mailbox

/-! # At most once

A file is read at most once, since the reader removes it before it looks again, and a
session writes to one file. So no command is executed twice, however the steps interleave.
-/

namespace AcflyRos.CommandFile

open AcflyRos.Transition AcflyRos.Sequences

/-! ## What has been logged, newest first -/

/-- The files read, each with its line. -/
def readLines (log : List Event) : List (Nat × Bytes) :=
  log.filterMap fun
    | .read file line => some (file, line)
    | _ => none

def executions (log : List Event) : List (Bytes × Outcome) :=
  log.filterMap fun
    | .executed line outcome => some (line, outcome)
    | _ => none

/-- The line that the reader holds. -/
def Reader.held : Reader → List Bytes
  | .read line => [line]
  | .removed line => [line]
  | _ => []

namespace World

variable (world : World)

/-- The file that a session writes to. -/
def fileOf (number : Nat) : Option Nat := world.sessions[number]?.map Session.file

/-- Sessions write to their own file, and a file that was read loses its name at once. -/
structure Coherent : Prop where
  held : (readLines world.log).map Prod.snd =
    world.reader.held ++ (executions world.log).map Prod.fst
  once : ((readLines world.log).map Prod.fst).Nodup
  outcome : ∀ execution ∈ executions world.log,
    ∃ transfer, execution.2 = execute transfer execution.1.text
  entry_lt : ∀ file ∈ world.entry, file < world.files.length
  readLines_lt : ∀ entry ∈ readLines world.log, entry.1 < world.files.length
  unread : ∀ file ∈ world.entry, file ∈ (readLines world.log).map Prod.fst →
    ∃ line, world.reader = .read line
  opened : ∀ file, world.reader = .opened file → world.entry = some file
  content : ∀ file bytes, world.files[file]? = some bytes →
    ∀ byte ∈ bytes, world.fileOf byte.1 = some file
  lines : ∀ entry ∈ readLines world.log, ∀ byte ∈ entry.2, world.fileOf byte.1 = some entry.1
  created : ∀ session ∈ world.sessions, session.file < world.files.length

end World

theorem coherent_initial : World.Coherent {} := by
  constructor <;> simp [readLines, executions, Reader.held]

namespace World

variable {world after : World}

theorem fileOf_append (session : Session) {number file : Nat}
    (hfile : world.fileOf number = some file) :
    fileOf { world with sessions := world.sessions ++ [session] } number = some file := by
  simp only [fileOf, Option.map_eq_some_iff] at hfile ⊢
  obtain ⟨found, hfound, rfl⟩ := hfile
  have hlt := (List.getElem?_eq_some_iff.mp hfound).1
  exact ⟨found, by rw [List.getElem?_append_left hlt, hfound], rfl⟩

theorem fileOf_set {number : Nat} {session : Session} (stage : Stage)
    (hsession : world.sessions[number]? = some session) (other : Nat) :
    fileOf { world with sessions := world.sessions.set number { session with stage } } other =
      world.fileOf other := by
  have hlt := (List.getElem?_eq_some_iff.mp hsession).1
  simp only [fileOf]
  by_cases hother : number = other
  · subst hother
    simp [List.getElem?_set_self hlt, hsession]
  · rw [List.getElem?_set_ne hother]

namespace Coherent

/-- What a writer may do. -/
theorem of_writer (h : world.Coherent) (hreader : after.reader = world.reader)
    (hreads : readLines after.log = readLines world.log)
    (hexecutions : executions after.log = executions world.log)
    (hlength : world.files.length ≤ after.files.length)
    (hentry : after.entry = world.entry ∨ world.entry = none ∧
      after.entry = some world.files.length ∧ world.files.length < after.files.length)
    (hfile : ∀ number file, world.fileOf number = some file → after.fileOf number = some file)
    (hcontent : ∀ file bytes, after.files[file]? = some bytes →
      ∀ byte ∈ bytes, after.fileOf byte.1 = some file)
    (hcreated : ∀ session ∈ after.sessions, session.file < after.files.length) :
    after.Coherent where
  held := by rw [hreads, hexecutions, hreader, h.held]
  once := by rw [hreads]; exact h.once
  outcome := by rw [hexecutions]; exact h.outcome
  entry_lt := by
    intro file hfile
    rcases hentry with hsame | ⟨_, hnew, hlt⟩
    · rw [hsame] at hfile
      exact Nat.lt_of_lt_of_le (h.entry_lt file hfile) hlength
    · rw [hnew] at hfile
      obtain rfl := Option.some_inj.mp hfile
      exact hlt
  readLines_lt := by
    rw [hreads]
    exact fun entry hentry => Nat.lt_of_lt_of_le (h.readLines_lt entry hentry) hlength
  unread := by
    rw [hreads, hreader]
    intro file hfile hread
    rcases hentry with hsame | ⟨_, hnew, _⟩
    · rw [hsame] at hfile
      exact h.unread file hfile hread
    · rw [hnew] at hfile
      obtain rfl := Option.some_inj.mp hfile
      obtain ⟨entry, hentry, hfirst⟩ := List.mem_map.mp hread
      exact absurd (h.readLines_lt entry hentry) (by omega)
  opened := by
    rw [hreader]
    intro file hopened
    have hnamed := h.opened file hopened
    rcases hentry with hsame | ⟨hnone, _⟩
    · rw [hsame, hnamed]
    · rw [hnone] at hnamed
      cases hnamed
  content := hcontent
  lines := by
    rw [hreads]
    exact fun entry hentry byte hbyte => hfile _ _ (h.lines entry hentry byte hbyte)
  created := hcreated

/-- The session moves on. -/
theorem created_set (h : world.Coherent) {number : Nat} {session : Session} (stage : Stage)
    (hsession : world.sessions[number]? = some session) :
    ∀ other ∈ world.sessions.set number { session with stage },
      other.file < world.files.length := by
  intro other hother
  rcases List.mem_or_eq_of_mem_set hother with hold | rfl
  · exact h.created other hold
  · exact h.created session (List.mem_of_getElem? hsession)

theorem writing (h : world.Coherent) {opened : Option Command}
    (hwriting : Writing world opened after) : after.Coherent := by
  cases hwriting with
  | unchanged => exact h
  | @emptied file author command hentry =>
      refine h.of_writer rfl rfl rfl (by simp) (Or.inl rfl)
        (fun number file hfile => fileOf_append _ hfile) ?_ ?_
      · intro other bytes hbytes byte hbyte
        by_cases hother : file = other
        · subst hother
          rw [List.getElem?_set_self (h.entry_lt file hentry)] at hbytes
          obtain rfl := Option.some_inj.mp hbytes
          cases hbyte
        · rw [List.getElem?_set_ne hother] at hbytes
          exact fileOf_append _ (h.content other bytes hbytes byte hbyte)
      · intro session hsession
        rw [List.length_set]
        rcases List.mem_append.mp hsession with hold | hnew
        · exact h.created session hold
        · rw [List.mem_singleton.mp hnew]
          exact h.entry_lt file hentry
  | created author command hentry =>
      refine h.of_writer rfl rfl rfl (by simp) (Or.inr ⟨hentry, rfl, by simp⟩)
        (fun number file hfile => fileOf_append _ hfile) ?_ ?_
      · intro other bytes hbytes byte hbyte
        rw [List.getElem?_append] at hbytes
        split at hbytes
        · exact fileOf_append _ (h.content other bytes hbytes byte hbyte)
        · rw [List.mem_singleton.mp (List.mem_of_getElem? hbytes)] at hbyte
          cases hbyte
      · intro session hsession
        rw [List.length_append, List.length_singleton]
        rcases List.mem_append.mp hsession with hold | hnew
        · exact Nat.lt_succ_of_lt (h.created session hold)
        · rw [List.mem_singleton.mp hnew]
          exact Nat.lt_succ_self _
  | @wrote number session hsession hopened =>
      refine h.of_writer rfl rfl rfl (by simp) (Or.inl rfl)
        (fun other file hfile => (fileOf_set .written hsession other).trans hfile) ?_
        (by simpa using h.created_set .written hsession)
      intro other bytes hbytes byte hbyte
      refine (fileOf_set .written hsession byte.1).trans ?_
      rw [List.getElem?_modify] at hbytes
      obtain ⟨old, hold, rfl⟩ := Option.map_eq_some_iff.mp hbytes
      split at hbyte
      next hother =>
        subst hother
        simp only [overlay, tagged, List.append_assoc, List.mem_append, List.mem_map,
          List.mem_singleton] at hbyte
        rcases hbyte with ⟨c, _, rfl⟩ | rfl | hrest
        · simp [fileOf, hsession]
        · simp [fileOf, hsession]
        · exact h.content session.file old hold byte (List.mem_of_mem_drop hrest)
      next => exact h.content other old hold byte hbyte
  | closed hsession hwritten =>
      refine h.of_writer rfl (by split <;> rfl) (by split <;> rfl) (Nat.le_refl _) (Or.inl rfl)
        (fun other file hfile => (fileOf_set .closed hsession other).trans hfile) ?_
        (h.created_set .closed hsession)
      intro other bytes hbytes byte hbyte
      exact (fileOf_set .closed hsession byte.1).trans (h.content other bytes hbytes byte hbyte)
  | transferEnded =>
      exact h.of_writer rfl rfl rfl (Nat.le_refl _) (Or.inl rfl) (fun _ _ hfile => hfile)
        h.content h.created

/-- The reader moves on without reading a line or removing the file. -/
theorem with_reader (h : world.Coherent) {reader : Reader}
    (hheld : reader.held = world.reader.held) (hkept : ∀ line, world.reader ≠ .read line)
    (hopened : ∀ file, reader = .opened file → world.entry = some file) :
    Coherent { world with reader } where
  held := by rw [hheld]; exact h.held
  once := h.once
  outcome := h.outcome
  entry_lt := h.entry_lt
  readLines_lt := h.readLines_lt
  unread := by
    intro file hfile hread
    obtain ⟨line, hline⟩ := h.unread file hfile hread
    exact absurd hline (hkept line)
  opened := hopened
  content := h.content
  lines := h.lines
  created := h.created

theorem reading (h : world.Coherent) (hreading : Reading world after) : after.Coherent := by
  have hheld := h.held
  cases hreading with
  | waits => exact h
  | finds hreader =>
      exact h.with_reader (by simp [hreader, Reader.held]) (by simp [hreader]) (by simp)
  | misses hreader =>
      exact h.with_reader (by simp [hreader, Reader.held]) (by simp [hreader]) (by simp)
  | opens hreader hentry =>
      exact h.with_reader (by simp [hreader, Reader.held]) (by simp [hreader]) (by simp [hentry])
  | readsNothing hreader =>
      exact h.with_reader (by simp [hreader, Reader.held]) (by simp [hreader]) (by simp)
  | @reads file content hreader hcontent _ =>
      rw [hreader] at hheld
      have hnamed := h.opened file hreader
      -- A file that was read before would have lost its name.
      have hunread : file ∉ (readLines world.log).map Prod.fst := by
        intro hread
        simpa [hreader] using h.unread file hnamed hread
      refine ⟨?_, ?_, h.outcome, h.entry_lt, ?_, fun _ _ _ => ⟨_, rfl⟩, by simp, h.content, ?_,
        h.created⟩
      · exact congrArg (firstLine content :: ·) hheld
      · exact List.nodup_cons.mpr ⟨hunread, h.once⟩
      · rintro entry (_ | ⟨_, hentry⟩)
        · exact h.entry_lt file hnamed
        · exact h.readLines_lt entry hentry
      · rintro entry (_ | ⟨_, hentry⟩) byte hbyte
        · exact h.content file content hcontent byte (List.takeWhile_subset _ hbyte)
        · exact h.lines entry hentry byte hbyte
  | removes hreader =>
      rw [hreader] at hheld
      exact ⟨hheld, h.once, h.outcome, by simp, h.readLines_lt, by simp, by simp, h.content,
        h.lines, h.created⟩
  | executes _ hreader =>
      rw [hreader] at hheld
      refine ⟨hheld, h.once, ?_, h.entry_lt, h.readLines_lt, ?_, by simp, h.content, h.lines,
        h.created⟩
      · rintro execution (_ | ⟨_, hexecution⟩)
        · exact ⟨_, rfl⟩
        · exact h.outcome execution hexecution
      · intro file hfile hread
        simpa [hreader] using h.unread file hfile hread

theorem step (h : world.Coherent) (label : Label) : (step world label).Coherent := by
  by_cases hreader : label = .reader
  · subst hreader
    exact h.reading (readerStep_reading world)
  · exact h.writing (step_writing world hreader)

end Coherent

end World

/-! ## At most once -/

/-- Part of the line comes from the session. -/
def Touches (number : Nat) (line : Bytes) : Prop := ∃ byte ∈ line, byte.1 = number

instance (number : Nat) : DecidablePred (Touches number) :=
  fun line => inferInstanceAs (Decidable (∃ byte ∈ line, byte.1 = number))

/-- What was executed of a session's command. -/
def executionsOf (number : Nat) (log : List Event) : List (Bytes × Outcome) :=
  (executions log).filter fun execution => Touches number execution.1

theorem World.Coherent.executionsOf_length {world : World} (h : world.Coherent) (number : Nat) :
    (executionsOf number world.log).length ≤ 1 := by
  have hread : ((readLines world.log).filter fun entry => Touches number entry.2).length ≤ 1 := by
    apply filter_length_le_one h.once
    intro first hfirst second hsecond hp hq
    obtain ⟨byte, hbyte, rfl⟩ := of_decide_eq_true hp
    obtain ⟨other, hother, hsame⟩ := of_decide_eq_true hq
    have hfile := h.lines first hfirst byte hbyte
    rw [← hsame, h.lines second hsecond other hother] at hfile
    exact (Option.some_inj.mp hfile).symm
  have hcount := congrArg (List.countP fun line => Touches number line) h.held
  rw [List.countP_map, List.countP_append, List.countP_map] at hcount
  rw [← List.countP_eq_length_filter] at hread
  calc (executionsOf number world.log).length
      = (executions world.log).countP ((fun line => decide (Touches number line)) ∘ Prod.fst) :=
        List.countP_eq_length_filter.symm
    _ ≤ (readLines world.log).countP ((fun line => decide (Touches number line)) ∘ Prod.snd) :=
        hcount ▸ Nat.le_add_left _ _
    _ ≤ 1 := hread

end AcflyRos.CommandFile
