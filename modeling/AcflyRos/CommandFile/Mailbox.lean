import AcflyRos.Foundation.Transition

/-! # The command file

`/tmp/odin_command.txt` carries commands to the driver of the sensor: `acfly_odometry`
writes `set algo_reset 1` to it (`timer_cb`), an operator writes other commands
(`set_param.sh`), and `process_command_file` (`host_sdk_sample.cpp`) reads a line, removes
the file and executes the line. The parties take single steps on the file in any order. A
file stays there for those who have it open when its name is removed, and opening the name
again then creates another file. A line is handed to the system in one call when the
stream is closed or flushed. The device is connected throughout.
-/

namespace AcflyRos.CommandFile

/-! ## Commands -/

/-- A line of a command file, without its end. -/
structure Command where
  text : List Char
  nonempty : text ≠ []
  single : '\n' ∉ text
  deriving DecidableEq, Repr

/-- `set algo_reset 1` -/
def algoReset : Command where
  text := ['s', 'e', 't', ' ', 'a', 'l', 'g', 'o', '_', 'r', 'e', 's', 'e', 't', ' ', '1']
  nonempty := by decide
  single := by decide

/-- What comes of a line. -/
inductive Outcome where
  | setCustomParameter (name : List Char) (value : Int)
  /-- `lidar_save_map` is started in the background. -/
  | saveMap
  | transferInProgress
  | emptyLine
  | invalidFormat
  | unknownCommand
  | invalidValue
  deriving DecidableEq, Repr

/-- `std::isspace`. -/
def isSpace (c : Char) : Bool := c = ' ' || ('\t' ≤ c && c ≤ '\r')

/-- `iss >> word`: the next word, and what follows it. -/
def nextWord (text : List Char) : List Char × List Char :=
  let text := text.dropWhile isSpace
  (text.takeWhile fun c => ! isSpace c, text.dropWhile fun c => ! isSpace c)

def digitsValue (digits : List Char) : Nat :=
  digits.foldl (fun value c => value * 10 + (c.toNat - '0'.toNat)) 0

/-- `std::stoi`: what follows the digits does not matter, and a number too large is an error. -/
def stoi (text : List Char) : Option Int :=
  let (sign, text) : Int × List Char := match text with
    | '-' :: text => (-1, text)
    | '+' :: text => (1, text)
    | text => (1, text)
  let digits := text.takeWhile Char.isDigit
  let value := sign * digitsValue digits
  if digits = [] then none
  else if -2147483648 ≤ value ∧ value < 2147483648 then some value
  else none

/-- The part of `process_command_file` after the file is removed. -/
def execute (mapTransferInProgress : Bool) (line : List Char) : Outcome :=
  let (command, rest) := nextWord line
  let (paramName, rest) := nextWord rest
  let (valueStr, _) := nextWord rest
  if line = [] then .emptyLine
  else if command = [] ∨ paramName = [] ∨ valueStr = [] then .invalidFormat
  else if command = ['s', 'e', 't'] then
    match stoi valueStr with
    | none => .invalidValue
    | some value =>
        if paramName = ['s', 'a', 'v', 'e', '_', 'm', 'a', 'p'] ∧ value = 1 then
          if mapTransferInProgress then .transferInProgress else .saveMap
        else .setCustomParameter paramName value
  else .unknownCommand

theorem execute_algoReset (mapTransferInProgress : Bool) :
    execute mapTransferInProgress algoReset.text =
      .setCustomParameter ['a', 'l', 'g', 'o', '_', 'r', 'e', 's', 'e', 't'] 1 := by
  cases mapTransferInProgress <;> decide

example : execute false ['s', 'e', 't', ' ', 'x', ' ', '-', '2', 'a'] =
    .setCustomParameter ['x'] (-2) := by decide

/-! ## The parties -/

/-- Characters, each with the number of the session that wrote it. -/
abbrev Bytes := List (Nat × Char)

def tagged (session : Nat) (text : List Char) : Bytes := text.map fun c => (session, c)

def Bytes.text (bytes : Bytes) : List Char := bytes.map Prod.snd

/-- A line written at the start of a file, over what may be there. -/
def overlay (line content : Bytes) : Bytes := line ++ content.drop line.length

/-- `std::getline`. -/
def firstLine (content : Bytes) : Bytes := content.takeWhile fun byte => byte.2 ≠ '\n'

inductive Author where
  | odometry
  | operator
  deriving DecidableEq, Repr

inductive Stage where
  | opened
  | written
  | closed
  deriving DecidableEq, Repr

/-- From opening the file, which empties it, to closing it. -/
structure Session where
  author : Author
  command : Command
  file : Nat
  stage : Stage := .opened
  deriving DecidableEq, Repr

/-- Where `process_command_file` is. -/
inductive Reader where
  | idle
  | found
  | opened (file : Nat)
  /-- A line is read and the file closed. -/
  | read (line : Bytes)
  | removed (line : Bytes)
  deriving DecidableEq, Repr

inductive Event where
  | wrote (line : Bytes)
  /-- `cov_degrade_cnt_ = 0` and `reset_triggered = true`. -/
  | resetTriggered (session : Nat)
  | read (file : Nat) (line : Bytes)
  | executed (line : Bytes) (outcome : Outcome)
  deriving DecidableEq, Repr

structure World where
  /-- What is in the files that were created under the name. -/
  files : List Bytes := []
  /-- The file that has the name now. -/
  entry : Option Nat := none
  sessions : List Session := []
  reader : Reader := .idle
  mapTransferInProgress : Bool := false
  /-- Newest first. -/
  log : List Event := []
  deriving DecidableEq, Repr

namespace World

variable (world : World)

def record (event : Event) : World := { world with log := event :: world.log }

/-! ## Writing -/

/-- Opening for writing empties the file, or creates it. -/
def openTruncate (author : Author) (command : Command) : World :=
  match world.entry with
  | some file =>
      { world with
        files := world.files.set file []
        sessions := world.sessions ++ [{ author, command, file }] }
  | none =>
      { world with
        files := world.files ++ [[]]
        entry := some world.files.length
        sessions := world.sessions ++ [{ author, command, file := world.files.length }] }

/-- `acfly_odometry` has no session open: its timer callback runs one at a time. -/
def OdometryIdle : Prop :=
  ∀ session ∈ world.sessions, session.author = .odometry → session.stage = .closed

instance : Decidable world.OdometryIdle :=
  inferInstanceAs (Decidable (∀ session ∈ world.sessions, _))

def write (number : Nat) : World :=
  match world.sessions[number]? with
  | none => world
  | some session =>
      if session.stage = .opened then
        let line := tagged number session.command.text
        { world with
          files := world.files.modify session.file (overlay (line ++ [(number, '\n')]))
          sessions := world.sessions.set number { session with stage := .written } }.record
            (.wrote line)
      else world

def close (number : Nat) : World :=
  match world.sessions[number]? with
  | none => world
  | some session =>
      if session.stage = .written then
        let world :=
          { world with sessions := world.sessions.set number { session with stage := .closed } }
        match session.author with
        | .odometry => world.record (.resetTriggered number)
        | .operator => world
      else world

/-! ## Reading -/

/-- The next step of `process_command_file`. -/
def readerStep : World :=
  match world.reader with
  | .idle => if world.entry.isSome then { world with reader := .found } else world
  | .found =>
      match world.entry with
      | none => { world with reader := .idle }
      | some file => { world with reader := .opened file }
  | .opened file =>
      match world.files[file]? with
      | none | some [] => { world with reader := .idle }
      | some content =>
          { world with reader := .read (firstLine content) }.record
            (.read file (firstLine content))
  | .read line => { world with reader := .removed line, entry := none }
  | .removed line =>
      let outcome := execute world.mapTransferInProgress line.text
      { world with
        reader := .idle
        mapTransferInProgress := world.mapTransferInProgress || outcome = Outcome.saveMap }.record
          (.executed line outcome)

end World

inductive Label where
  | resetOpens
  | operatorOpens (command : Command)
  | write (session : Nat)
  | close (session : Nat)
  | reader
  | mapTransferEnds
  deriving DecidableEq, Repr

def step (world : World) : Label → World
  | .resetOpens =>
      if world.OdometryIdle then world.openTruncate .odometry algoReset else world
  | .operatorOpens command => world.openTruncate .operator command
  | .write session => world.write session
  | .close session => world.close session
  | .reader => world.readerStep
  | .mapTransferEnds => { world with mapTransferInProgress := false }

/-! ## What a step does -/

/-- The command for which the file is opened. -/
def opens (world : World) : Label → Option Command
  | .resetOpens => if world.OdometryIdle then some algoReset else none
  | .operatorOpens command => some command
  | _ => none

/-- A step of anybody but the reader, and the command for which it opens the file. -/
inductive Writing (world : World) : Option Command → World → Prop
  | unchanged : Writing world none world
  | emptied {file : Nat} (author : Author) (command : Command)
      (hentry : world.entry = some file) :
      Writing world (some command)
        { world with
          files := world.files.set file []
          sessions := world.sessions ++ [{ author, command, file }] }
  | created (author : Author) (command : Command) (hentry : world.entry = none) :
      Writing world (some command)
        { world with
          files := world.files ++ [[]]
          entry := some world.files.length
          sessions := world.sessions ++ [{ author, command, file := world.files.length }] }
  | wrote {number : Nat} {session : Session}
      (hsession : world.sessions[number]? = some session) (hopened : session.stage = .opened) :
      Writing world none
        { world with
          files := world.files.modify session.file
            (overlay (tagged number session.command.text ++ [(number, '\n')]))
          sessions := world.sessions.set number { session with stage := .written }
          log := .wrote (tagged number session.command.text) :: world.log }
  | closed {number : Nat} {session : Session}
      (hsession : world.sessions[number]? = some session) (hwritten : session.stage = .written) :
      Writing world none
        { world with
          sessions := world.sessions.set number { session with stage := .closed }
          log := (if session.author = .odometry then [.resetTriggered number] else []) ++
            world.log }
  | transferEnded : Writing world none { world with mapTransferInProgress := false }

theorem openTruncate_writing (world : World) (author : Author) (command : Command) :
    Writing world (some command) (world.openTruncate author command) := by
  unfold World.openTruncate
  split
  next file hentry => exact .emptied author command hentry
  next hentry => exact .created author command hentry

theorem step_writing (world : World) {label : Label} (hwriter : label ≠ .reader) :
    Writing world (opens world label) (step world label) := by
  cases label with
  | resetOpens =>
      simp only [opens, step]
      split
      · exact openTruncate_writing world .odometry algoReset
      · exact .unchanged
  | operatorOpens command => exact openTruncate_writing world .operator command
  | write number =>
      simp only [opens, step, World.write]
      split
      · exact .unchanged
      next session hsession =>
        split
        next hopened => exact .wrote hsession hopened
        · exact .unchanged
  | close number =>
      simp only [opens, step, World.close]
      split
      · exact .unchanged
      next session hsession =>
        split
        next hwritten =>
          have hclosed := Writing.closed hsession hwritten
          split
          next hauthor =>
            rw [if_pos hauthor] at hclosed
            exact hclosed
          next hauthor =>
            rw [if_neg (by simp [hauthor])] at hclosed
            exact hclosed
        · exact .unchanged
  | reader => exact absurd rfl hwriter
  | mapTransferEnds => exact .transferEnded

section Writing

variable {world after : World} {opened : Option Command}

theorem Writing.log_suffix (hwriting : Writing world opened after) : world.log <:+ after.log := by
  cases hwriting with
  | wrote => exact List.suffix_cons _ _
  | closed => exact List.suffix_append _ _
  | _ => exact List.suffix_refl _

theorem Writing.reader_eq (hwriting : Writing world opened after) :
    after.reader = world.reader := by
  cases hwriting <;> rfl

end Writing

/-- A step of the reader. -/
inductive Reading (world : World) : World → Prop
  | waits (hreader : world.reader = .idle) (hentry : world.entry = none) : Reading world world
  | finds (hreader : world.reader = .idle) : Reading world { world with reader := .found }
  | misses (hreader : world.reader = .found) (hentry : world.entry = none) :
      Reading world { world with reader := .idle }
  | opens {file : Nat} (hreader : world.reader = .found) (hentry : world.entry = some file) :
      Reading world { world with reader := .opened file }
  | readsNothing {file : Nat} (hreader : world.reader = .opened file)
      (hempty : ∀ content, world.files[file]? = some content → content = []) :
      Reading world { world with reader := .idle }
  | reads {file : Nat} {content : Bytes} (hreader : world.reader = .opened file)
      (hcontent : world.files[file]? = some content) (hnonempty : content ≠ []) :
      Reading world
        { world with
          reader := .read (firstLine content)
          log := .read file (firstLine content) :: world.log }
  | removes {line : Bytes} (hreader : world.reader = .read line) :
      Reading world { world with reader := .removed line, entry := none }
  | executes {line : Bytes} (mapTransferInProgress : Bool)
      (hreader : world.reader = .removed line) :
      Reading world
        { world with
          reader := .idle
          mapTransferInProgress
          log := .executed line (execute world.mapTransferInProgress line.text) :: world.log }

theorem Reading.log_suffix {world after : World} (hreading : Reading world after) :
    world.log <:+ after.log := by
  cases hreading with
  | reads => exact List.suffix_cons _ _
  | executes => exact List.suffix_cons _ _
  | _ => exact List.suffix_refl _

theorem readerStep_reading (world : World) : Reading world world.readerStep := by
  unfold World.readerStep
  split
  next hreader =>
    split
    · exact .finds hreader
    next hentry => exact .waits hreader (by simpa using hentry)
  next hreader =>
    split
    next hentry => exact .misses hreader hentry
    next file hentry => exact .opens hreader hentry
  next file hreader =>
    split
    next hnone => exact .readsNothing hreader (by simp [hnone])
    next hempty => exact .readsNothing hreader (by simp [hempty])
    next content hnonempty hcontent => exact .reads hreader hcontent (by simpa using hnonempty)
  next line hreader => exact .removes hreader
  next line hreader => exact .executes _ hreader

end AcflyRos.CommandFile
