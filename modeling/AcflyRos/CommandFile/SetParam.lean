import Mathlib.Data.List.TakeWhile
import AcflyRos.CommandFile.Delivery

/-! # Parameters set by an operator

`set_param.sh` writes a name and a value to the command file as words of a line, and
`process_command_file` (`host_sdk_sample.cpp`) splits the line into words again and reads the value
as a number. A number arrives as it was given, if it fits into an `int`.
-/

namespace AcflyRos.CommandFile

open AcflyRos.Transition

/-! ## Words -/

/-- What `iss >> word` reads as one word. -/
structure Word where
  text : List Char
  nonempty : text ≠ []
  solid : ∀ c ∈ text, isSpace c = false

theorem nextWord_space (text : List Char) : nextWord (' ' :: text) = nextWord text := by
  simp only [nextWord, List.dropWhile_cons_of_pos (show isSpace ' ' = true from rfl)]

namespace Word

variable (word : Word) (rest : List Char)

theorem dropWhile_append : (word.text ++ rest).dropWhile isSpace = word.text ++ rest := by
  obtain ⟨text, hnonempty, hsolid⟩ := word
  cases text with
  | nil => exact absurd rfl hnonempty
  | cons c text =>
      exact List.dropWhile_cons_of_neg (by simp [hsolid c List.mem_cons_self])

/-- A word ends where a space follows, or with the line. -/
theorem nextWord_append (hrest : ∀ c ∈ rest.head?, isSpace c = true) :
    nextWord (word.text ++ rest) = (word.text, rest) := by
  have hsolid : ∀ c ∈ word.text, (! isSpace c) = true := by simpa using word.solid
  have hstop : rest.takeWhile (fun c => ! isSpace c) = [] ∧
      rest.dropWhile (fun c => ! isSpace c) = rest := by
    cases rest with
    | nil => exact ⟨rfl, rfl⟩
    | cons c rest =>
        have hspace : ¬ (! isSpace c) = true := by simp [hrest c rfl]
        exact ⟨List.takeWhile_cons_of_neg hspace, List.dropWhile_cons_of_neg hspace⟩
  simp only [nextWord, word.dropWhile_append, List.takeWhile_append_of_pos hsolid,
    List.dropWhile_append_of_pos hsolid, hstop, List.append_nil]

theorem newline_not_mem : '\n' ∉ word.text := fun hmem => absurd (word.solid _ hmem) (by decide)

end Word

/-! ## Numbers -/

/-- A number as it is written. -/
def decimal : Int → List Char
  | .ofNat value => Nat.toDigits 10 value
  | .negSucc value => '-' :: Nat.toDigits 10 (value + 1)

theorem digitsValue_toDigits (value : Nat) : digitsValue (Nat.toDigits 10 value) = value := by
  have hfold : digitsValue = fun digits => Nat.ofDigitChars 10 digits 0 := by
    funext digits
    rw [digitsValue, Nat.ofDigitChars_eq_foldl]
    simp only [Nat.mul_comm]
  rw [hfold]
  exact Nat.ofDigitChars_ten_toDigits

theorem isDigit_toDigits {value : Nat} {c : Char} (hc : c ∈ Nat.toDigits 10 value) :
    c.isDigit = true :=
  Nat.isDigit_of_mem_toDigits (by decide) (by decide) hc

theorem isSpace_of_isDigit {c : Char} (hc : c.isDigit = true) : isSpace c = false := by
  have hlow : '0'.toNat ≤ c.toNat := (Char.isDigit_iff_toNat.mp hc).1
  have hspace : c ≠ ' ' := by
    rintro rfl
    cases hc
  have hreturn : ¬ c ≤ '\r' := fun hle => absurd (Nat.le_trans hlow hle) (by decide)
  simp [isSpace, hspace, hreturn]

/-- The number fits into an `int`. -/
abbrev FitsInt (value : Int) : Prop := -2147483648 ≤ value ∧ value < 2147483648

theorem stoi_digits {digits : List Char} (hnonempty : digits ≠ [])
    (hdigits : ∀ c ∈ digits, c.isDigit = true) :
    stoi digits =
      if FitsInt (digitsValue digits) then some (digitsValue digits : Int) else none := by
  have htake : digits.takeWhile Char.isDigit = digits := List.takeWhile_eq_self_iff.mpr hdigits
  unfold stoi
  split
  next heq =>
    split at heq
    next => exact absurd (hdigits '-' List.mem_cons_self) (by decide)
    next => exact absurd (hdigits '+' List.mem_cons_self) (by decide)
    next =>
      obtain ⟨rfl, rfl⟩ := heq
      rw [htake, if_neg hnonempty, Int.one_mul]

theorem stoi_negated {digits : List Char} (hnonempty : digits ≠ [])
    (hdigits : ∀ c ∈ digits, c.isDigit = true) :
    stoi ('-' :: digits) =
      if FitsInt (-digitsValue digits) then some (-digitsValue digits : Int) else none := by
  have htake : digits.takeWhile Char.isDigit = digits := List.takeWhile_eq_self_iff.mpr hdigits
  show (if digits.takeWhile Char.isDigit = [] then none
    else if FitsInt (-1 * digitsValue (digits.takeWhile Char.isDigit)) then
      some (-1 * digitsValue (digits.takeWhile Char.isDigit) : Int)
    else none) = _
  rw [htake, if_neg hnonempty, Int.neg_one_mul]

theorem stoi_decimal (value : Int) :
    stoi (decimal value) = if FitsInt value then some value else none := by
  cases value with
  | ofNat value =>
      have h := stoi_digits Nat.toDigits_ne_nil fun c => @isDigit_toDigits value c
      rwa [digitsValue_toDigits] at h
  | negSucc value =>
      have h := stoi_negated Nat.toDigits_ne_nil fun c => @isDigit_toDigits (value + 1) c
      rwa [digitsValue_toDigits] at h

/-- A number is a word. -/
def number (value : Int) : Word where
  text := decimal value
  nonempty := by
    cases value with
    | ofNat value => exact Nat.toDigits_ne_nil
    | negSucc value => exact List.cons_ne_nil _ _
  solid := by
    cases value with
    | ofNat value => exact fun c hc => isSpace_of_isDigit (isDigit_toDigits hc)
    | negSucc value =>
        exact List.forall_mem_cons.mpr ⟨rfl, fun c hc => isSpace_of_isDigit (isDigit_toDigits hc)⟩

/-! ## The line -/

/-- What `set_param.sh` writes to the file, given these arguments. -/
def setParam : List (List Char) → Option (List Char)
  | [paramName, value] => some (['s', 'e', 't', ' '] ++ (paramName ++ ' ' :: value) ++ ['\n'])
  | _ => none

def setCommand (name value : Word) : Command where
  text := ['s', 'e', 't', ' '] ++ (name.text ++ ' ' :: value.text)
  nonempty := by simp
  single := by
    simp only [List.mem_append, List.mem_cons, name.newline_not_mem, value.newline_not_mem]
    decide

theorem setParam_words (name value : Word) :
    setParam [name.text, value.text] = some ((setCommand name value).text ++ ['\n']) := rfl

/-- What comes of setting a number. -/
def Outcome.ofNumber (mapTransferInProgress : Bool) (name : List Char) (value : Int) : Outcome :=
  if ¬ FitsInt value then .invalidValue
  else if name = ['s', 'a', 'v', 'e', '_', 'm', 'a', 'p'] ∧ value = 1 then
    if mapTransferInProgress then .transferInProgress else .saveMap
  else .setCustomParameter name value

theorem execute_setNumber (mapTransferInProgress : Bool) (name : Word) (value : Int) :
    execute mapTransferInProgress (setCommand name (number value)).text =
      .ofNumber mapTransferInProgress name.text value := by
  have hcommand : nextWord (setCommand name (number value)).text =
      (['s', 'e', 't'], ' ' :: (name.text ++ ' ' :: decimal value)) :=
    (Word.mk ['s', 'e', 't'] (by simp) (by simp [isSpace])).nextWord_append _ (by simp [isSpace])
  have hname : nextWord (' ' :: (name.text ++ ' ' :: decimal value)) =
      (name.text, ' ' :: decimal value) := by
    rw [nextWord_space]
    exact name.nextWord_append _ (by simp [isSpace])
  have hvalue : nextWord (' ' :: decimal value) = (decimal value, []) := by
    rw [nextWord_space]
    have hend := (number value).nextWord_append [] (by simp)
    rwa [List.append_nil] at hend
  have hwords : ¬ (['s', 'e', 't'] = [] ∨ name.text = [] ∨ decimal value = []) := by
    simp [name.nonempty, show decimal value ≠ [] from (number value).nonempty]
  unfold execute Outcome.ofNumber
  simp only [hcommand, hname, hvalue, (setCommand name (number value)).nonempty, hwords,
    stoi_decimal, if_true, if_false]
  by_cases hfits : FitsInt value
  · rw [if_pos hfits, if_neg (not_not.mpr hfits)]
  · rw [if_neg hfits, if_pos hfits]

/-- What an operator sets with `set_param.sh` to a number arrives as it was given, whatever the name
and the number: when the command is served, it is executed once and sets that parameter to that
number, unless the number does not fit or the command is to save the map. -/
theorem setParam_served (name : Word) (value : Int) {early writing polls : List Label}
    (hserved : Served early (.operatorOpens (setCommand name (number value)))
      (setCommand name (number value)) (writing ++ polls))
    (hpolls : 6 ≤ polls.count .reader) {session : Session}
    (hsession : (run step {} (early ++ .operatorOpens (setCommand name (number value)) ::
      writing)).sessions[(run step {} early).sessions.length]? = some session)
    (hstage : session.stage ≠ .opened) :
    setParam [name.text, decimal value] =
        some ((setCommand name (number value)).text ++ ['\n']) ∧
      ∃ transfer, executionsOf (run step {} early).sessions.length
          (run step {} (early ++ .operatorOpens (setCommand name (number value)) ::
            (writing ++ polls))).log =
        [(tagged (run step {} early).sessions.length (setCommand name (number value)).text,
          .ofNumber transfer name.text value)] := by
  refine ⟨setParam_words name (number value), ?_⟩
  obtain ⟨transfer, hexecuted⟩ := hserved.executionsOf_run hpolls hsession hstage
  rw [execute_setNumber] at hexecuted
  exact ⟨transfer, hexecuted⟩

theorem setParam_served_minusTwo : ∃ transfer, executionsOf 0 (run step {} ([] ++
    .operatorOpens (setCommand ⟨['x'], List.cons_ne_nil _ _, List.forall_mem_singleton.mpr rfl⟩
      (number (-2))) :: ([.write 0, .reader, .close 0] ++ List.replicate 6 .reader))).log =
    [(tagged 0 ['s', 'e', 't', ' ', 'x', ' ', '-', '2'], .ofNumber transfer ['x'] (-2))] := by
  let name : Word := ⟨['x'], List.cons_ne_nil _ _, List.forall_mem_singleton.mpr rfl⟩
  have hserved : Served [] (.operatorOpens (setCommand name (number (-2))))
      (setCommand name (number (-2)))
      ([.write 0, .reader, .close 0] ++ List.replicate 6 .reader) := by
    refine ⟨rfl, ⟨by simp, by simp [Reader.Removing]⟩, ?_⟩
    simp [EveryStep, Undisturbed, opens, List.replicate]
  exact (setParam_served name (-2) hserved (by decide) rfl (by decide)).2

end AcflyRos.CommandFile
