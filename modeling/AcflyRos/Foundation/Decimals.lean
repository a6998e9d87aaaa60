import Mathlib.Data.List.Lex
import Mathlib.Data.Nat.Log
import Mathlib.Tactic.Linarith
import Mathlib.Tactic.Ring

/-! # Decimals as text

What the order of numerals as words says about the numbers: of numerals of one length the
smaller number comes first, and otherwise they are read as the digits after a decimal point.
-/

namespace AcflyRos.Decimals

/-! ## The value of a numeral -/

/-- All characters are digits. -/
def IsNumeral (word : List Char) : Prop := ∀ c ∈ word, c.isDigit = true

def value (word : List Char) : Nat := Nat.ofDigitChars 10 word 0

variable {word word' : List Char} {c d : Char} {m n : Nat}

theorem value_cons (c : Char) (word : List Char) :
    value (c :: word) = 10 ^ word.length * (c.toNat - 48) + value word := by
  unfold value
  rw [Nat.ofDigitChars_cons, Nat.ofDigitChars_eq_ofDigitChars_zero, Nat.mul_zero, Nat.zero_add]
  rfl

theorem IsNumeral.head (hword : IsNumeral (c :: word)) : 48 ≤ c.toNat ∧ c.toNat ≤ 57 := by
  have hdigit := hword c List.mem_cons_self
  simpa [Char.isDigit_iff_toNat] using hdigit

theorem IsNumeral.tail (hword : IsNumeral (c :: word)) : IsNumeral word :=
  fun _ hd => hword _ (List.mem_cons_of_mem c hd)

theorem IsNumeral.append (hword : IsNumeral word) (hword' : IsNumeral word') :
    IsNumeral (word ++ word') := by
  intro c hc
  exact (List.mem_append.mp hc).elim (hword c) (hword' c)

theorem IsNumeral.value_lt (hword : IsNumeral word) : value word < 10 ^ word.length := by
  induction word with
  | nil => exact Nat.one_pos
  | cons c word ih =>
      have hhead := hword.head
      have htail := ih hword.tail
      rw [value_cons, List.length_cons, pow_succ]
      have hfirst : 10 ^ word.length * (c.toNat - 48) ≤ 10 ^ word.length * 9 :=
        Nat.mul_le_mul_left _ (by omega)
      omega

/-- A leading digit decides, unless it is the same. -/
theorem leading_lt_iff {p x y u v : Nat} (hu : u < p) (hv : v < p) :
    p * x + u < p * y + v ↔ x < y ∨ x = y ∧ u < v := by
  rcases Nat.lt_trichotomy x y with hlt | rfl | hgt
  · have hstep : p * (x + 1) ≤ p * y := Nat.mul_le_mul_left p hlt
    rw [Nat.mul_succ] at hstep
    simp only [hlt, true_or, iff_true]
    omega
  · simp
  · have hstep : p * (y + 1) ≤ p * x := Nat.mul_le_mul_left p hgt
    rw [Nat.mul_succ] at hstep
    constructor <;> omega

theorem leading_eq_iff {p x y u v : Nat} (hu : u < p) (hv : v < p) :
    p * x + u = p * y + v ↔ x = y ∧ u = v := by
  have hbelow := leading_lt_iff (x := x) (y := y) hu hv
  have habove := leading_lt_iff (x := y) (y := x) hv hu
  constructor
  · intro heq
    omega
  · rintro ⟨rfl, rfl⟩
    rfl

/-- Numerals are compared as the digits after a decimal point; of equal ones the shorter one comes
first. -/
theorem IsNumeral.lt_iff (hword : IsNumeral word) (hword' : IsNumeral word') :
    word < word' ↔
      value word * 10 ^ word'.length < value word' * 10 ^ word.length ∨
        value word * 10 ^ word'.length = value word' * 10 ^ word.length ∧
          word.length < word'.length := by
  induction word generalizing word' with
  | nil =>
      cases word' with
      | nil => simp
      | cons d word' =>
          have hnil : value [] = 0 := rfl
          simp only [List.nil_lt_cons, hnil, Nat.zero_mul, List.length_nil, pow_zero, Nat.mul_one,
            List.length_cons, Nat.succ_pos, and_true, true_iff]
          exact (Nat.eq_zero_or_pos _).symm.imp_right Eq.symm
  | cons c word ih =>
      cases word' with
      | nil =>
          have hnil : value [] = 0 := rfl
          simp [hnil]
      | cons d word' =>
          have hc := hword.head
          have hd := hword'.head
          have hvalue : value word * 10 ^ word'.length < 10 ^ word.length * 10 ^ word'.length :=
            Nat.mul_lt_mul_of_pos_right hword.tail.value_lt (Nat.pow_pos (by decide))
          have hvalue' : value word' * 10 ^ word.length < 10 ^ word.length * 10 ^ word'.length := by
            rw [Nat.mul_comm (10 ^ word.length)]
            exact Nat.mul_lt_mul_of_pos_right hword'.tail.value_lt (Nat.pow_pos (by decide))
          -- Both sides in units of the last place.
          have hleft : value (c :: word) * 10 ^ (d :: word').length =
              10 * (10 ^ word.length * 10 ^ word'.length * (c.toNat - 48) +
                value word * 10 ^ word'.length) := by
            rw [value_cons, List.length_cons]
            ring
          have hright : value (d :: word') * 10 ^ (c :: word).length =
              10 * (10 ^ word.length * 10 ^ word'.length * (d.toNat - 48) +
                value word' * 10 ^ word.length) := by
            rw [value_cons, List.length_cons]
            ring
          have hchars : c = d ↔ c.toNat - 48 = d.toNat - 48 := by
            rw [← Char.toNat_inj]
            omega
          have hless : c < d ↔ c.toNat - 48 < d.toNat - 48 := by
            show c.toNat < d.toNat ↔ _
            omega
          rw [List.cons_lt_cons_iff, ih hword.tail hword'.tail, hleft, hright,
            Nat.mul_lt_mul_left (by decide), Nat.mul_right_inj (by decide),
            leading_lt_iff hvalue hvalue', leading_eq_iff hvalue hvalue', hchars, hless,
            List.length_cons, List.length_cons, Nat.succ_lt_succ_iff]
          tauto

/-- Numerals of one length are compared as numbers. -/
theorem IsNumeral.lt_iff_of_length_eq (hword : IsNumeral word) (hword' : IsNumeral word')
    (hlength : word.length = word'.length) : word < word' ↔ value word < value word' := by
  rw [hword.lt_iff hword', hlength, Nat.mul_lt_mul_right (Nat.pow_pos (by decide))]
  simp

/-! ## Numerals of a number -/

/-- The digits of a number, with leading zeros up to a width. -/
def padded (width n : Nat) : List Char :=
  List.replicate (width - (Nat.toDigits 10 n).length) '0' ++ Nat.toDigits 10 n

theorem isNumeral_toDigits (n : Nat) : IsNumeral (Nat.toDigits 10 n) :=
  fun _ hc => Nat.isDigit_of_mem_toDigits (by decide) (by decide) hc

@[simp] theorem value_toDigits (n : Nat) : value (Nat.toDigits 10 n) = n :=
  Nat.ofDigitChars_ten_toDigits

@[simp] theorem length_toDigits (n : Nat) : (Nat.toDigits 10 n).length = Nat.log 10 n + 1 := by
  have hle : ∀ k, (Nat.toDigits 10 n).length ≤ k + 1 ↔ Nat.log 10 n < k + 1 := by
    intro k
    rw [Nat.length_toDigits_le_iff (by decide) (Nat.succ_pos k)]
    exact ⟨Nat.log_lt_of_lt_pow' (Nat.succ_ne_zero k), Nat.lt_pow_of_log_lt (by decide)⟩
  have hpos := Nat.length_toDigits_pos (b := 10) (n := n)
  have hlower := (hle (Nat.log 10 n)).mpr (Nat.lt_succ_self _)
  have hupper := (hle ((Nat.toDigits 10 n).length - 1)).mp (by omega)
  omega

theorem isNumeral_padded (width n : Nat) : IsNumeral (padded width n) := by
  refine IsNumeral.append ?_ (isNumeral_toDigits n)
  intro c hc
  rw [List.eq_of_mem_replicate hc]
  decide

@[simp] theorem value_padded (width n : Nat) : value (padded width n) = n := by
  unfold value padded
  rw [Nat.ofDigitChars_append, Nat.ofDigitChars_replicate_zero, Nat.mul_zero]
  exact value_toDigits n

theorem length_padded (width n : Nat) :
    (padded width n).length = max width (Nat.log 10 n + 1) := by
  simp only [padded, List.length_append, List.length_replicate, length_toDigits]
  omega

/-- Printed in equally many digits, numbers are in order as text. -/
theorem padded_lt_iff {width : Nat} (hlength : (padded width m).length = (padded width n).length) :
    padded width m < padded width n ↔ m < n := by
  rw [(isNumeral_padded width m).lt_iff_of_length_eq (isNumeral_padded width n) hlength,
    value_padded, value_padded]

theorem padded_inj {width : Nat} : padded width m = padded width n ↔ m = n := by
  constructor
  · intro heq
    have hvalue := congrArg value heq
    rwa [value_padded, value_padded] at hvalue
  · rintro rfl
    rfl

/-- The fraction `0.m` is below `0.n`, or they are the same and `m` is written shorter. -/
def FractionLt (m n : Nat) : Prop :=
  m * 10 ^ Nat.log 10 n < n * 10 ^ Nat.log 10 m ∨
    m * 10 ^ Nat.log 10 n = n * 10 ^ Nat.log 10 m ∧ m < n

instance (m n : Nat) : Decidable (FractionLt m n) := inferInstanceAs (Decidable (_ ∨ _ ∧ _))

/-- Printed as they are, numbers are in the order of fractions. -/
theorem toDigits_lt_iff : Nat.toDigits 10 m < Nat.toDigits 10 n ↔ FractionLt m n := by
  have hunits : ∀ a b : Nat, a * 10 ^ (Nat.log 10 b + 1) = 10 * (a * 10 ^ Nat.log 10 b) := by
    intro a b
    ring
  rw [(isNumeral_toDigits m).lt_iff (isNumeral_toDigits n), value_toDigits, value_toDigits,
    length_toDigits, length_toDigits, hunits, hunits, Nat.mul_lt_mul_left (by decide),
    Nat.mul_right_inj (by decide), Nat.succ_lt_succ_iff]
  apply or_congr_right
  apply and_congr_right
  intro heq
  -- Of two spellings of one fraction the longer is the greater number.
  constructor
  · intro hlog
    by_contra hle
    exact absurd (Nat.log_mono_right (Nat.not_lt.mp hle)) (Nat.not_le.mpr hlog)
  · intro hlt
    refine lt_of_le_of_ne (Nat.log_mono_right hlt.le) fun hlog => ?_
    rw [hlog] at heq
    exact hlt.ne (Nat.eq_of_mul_eq_mul_right (Nat.pow_pos (by decide)) heq)

end AcflyRos.Decimals
