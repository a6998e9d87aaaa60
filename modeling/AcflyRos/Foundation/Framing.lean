import Mathlib.Data.BitVec
import Mathlib.Data.Vector.Basic

/-! # Self-delimiting codes

A code writes a value as symbols in such a way that the value can be read off the front of
whatever follows, and that nothing can be read before the last of its symbols is there. Codes
are put together from symbols, repetitions, and fields that say how a later field is to be read.
A sequence of values, written one after the other and cut off anywhere, is read back up to the
value in which the cut falls.
-/

namespace AcflyRos.Framing

universe u v w

structure Code (α : Type u) (σ : Type v) where
  encode : α → List σ
  /-- The value at the front, and what follows it. -/
  parse : List σ → Option (α × List σ)
  parse_encode : ∀ value rest, parse (encode value ++ rest) = some (value, rest)
  parse_cut : ∀ value front, front <+: encode value → front ≠ encode value →
    parse front = none

/-- A beginning of a word and what follows it ends within the word, or goes on after it. -/
theorem prefix_cases {σ : Type v} {word front rest : List σ} (hfront : front <+: word ++ rest) :
    (front <+: word ∧ front ≠ word) ∨ ∃ more, front = word ++ more ∧ more <+: rest := by
  rcases List.prefix_or_prefix_of_prefix hfront (List.prefix_append word rest) with hshort | hlong
  · by_cases heq : front = word
    · exact Or.inr ⟨[], by simp [heq], List.nil_prefix⟩
    · exact Or.inl ⟨hshort, heq⟩
  · obtain ⟨more, rfl⟩ := hlong
    exact Or.inr ⟨more, rfl, (List.prefix_append_right_inj word).mp hfront⟩

namespace Code

variable {α : Type u} {γ : Type w} {σ : Type v}

/-! ## Building blocks -/

/-- A single symbol stands for itself. -/
def symbol : Code σ σ where
  encode value := [value]
  parse
    | [] => none
    | value :: rest => some (value, rest)
  parse_encode _ _ := rfl
  parse_cut value front hfront hne := by
    rcases List.prefix_cons_iff.mp hfront with rfl | ⟨more, rfl, hmore⟩
    · rfl
    · obtain rfl := List.prefix_nil.mp hmore
      exact absurd rfl hne

/-- Nothing is written for a value that is known. -/
def known (value : α) (hknown : ∀ other, other = value) : Code α σ where
  encode _ := []
  parse rest := some (value, rest)
  parse_encode other rest := by simp [hknown other]
  parse_cut other front hfront hne := absurd (List.prefix_nil.mp hfront) hne

/-- A field, and one that is read as the first one says. -/
def sequence {β : α → Type w} (first : Code α σ) (second : ∀ value, Code (β value) σ) :
    Code (Σ value, β value) σ where
  encode value := first.encode value.1 ++ (second value.1).encode value.2
  parse symbols :=
    (first.parse symbols).bind fun result =>
      ((second result.1).parse result.2).map fun later => (⟨result.1, later.1⟩, later.2)
  parse_encode value rest := by
    rw [List.append_assoc, first.parse_encode, Option.bind_some, (second value.1).parse_encode]
    rfl
  parse_cut value front hfront hne := by
    rcases prefix_cases hfront with ⟨hshort, hcut⟩ | ⟨more, rfl, hmore⟩
    · rw [first.parse_cut value.1 front hshort hcut]
      rfl
    · have hcut : more ≠ (second value.1).encode value.2 := fun heq => hne (by rw [heq])
      rw [first.parse_encode, Option.bind_some, (second value.1).parse_cut value.2 more hmore hcut]
      rfl

/-- Values that are written as other values. -/
def retract (code : Code α σ) (write : γ → α) (read : α → γ)
    (hread : ∀ value, read (write value) = value) : Code γ σ where
  encode value := code.encode (write value)
  parse symbols := (code.parse symbols).map fun result => (read result.1, result.2)
  parse_encode value rest := by
    rw [code.parse_encode, Option.map_some, hread]
  parse_cut value front hfront hne := by
    rw [code.parse_cut (write value) front hfront hne]
    rfl

/-- So many values, one after the other. -/
def repeated (code : Code α σ) : (count : Nat) → Code (List.Vector α count) σ
  | 0 => known List.Vector.nil List.Vector.eq_nil
  | count + 1 =>
      (sequence code fun _ => repeated code count).retract
        (fun values => ⟨values.head, values.tail⟩) (fun pair => pair.1 ::ᵥ pair.2)
        List.Vector.cons_head_tail

theorem encode_repeated (code : Code α σ) (count : Nat) (values : List.Vector α count) :
    (code.repeated count).encode values = values.toList.flatMap code.encode := by
  induction count with
  | zero =>
      rw [List.Vector.eq_nil values]
      rfl
  | succ count ih =>
      obtain ⟨head, tail, rfl⟩ := values.exists_eq_cons
      rw [List.Vector.toList_cons, List.flatMap_cons, ← ih]
      rfl

/-! ## Sequences of values -/

variable (code : Code α σ)

/-- The values at the front, and the symbols that do not make another. -/
def parseFor : Nat → List σ → List α × List σ
  | 0, symbols => ([], symbols)
  | fuel + 1, symbols =>
      if symbols.isEmpty then ([], [])
      else
        match code.parse symbols with
        | none => ([], symbols)
        | some (value, rest) => (value :: (parseFor fuel rest).1, (parseFor fuel rest).2)

def parseAll (symbols : List σ) : List α × List σ :=
  code.parseFor symbols.length symbols

variable {code}

theorem parseFor_nil (fuel : Nat) : code.parseFor fuel [] = ([], []) := by
  cases fuel <;> rfl

theorem parseFor_none {symbols : List σ} {fuel : Nat} (hparse : code.parse symbols = none) :
    code.parseFor fuel symbols = ([], symbols) := by
  cases fuel with
  | zero => rfl
  | succ fuel =>
      cases symbols with
      | nil => rfl
      | cons symbol rest => simp [parseFor, hparse]

theorem parseFor_some {symbols rest : List σ} {value : α} {fuel : Nat} (hne : symbols ≠ [])
    (hparse : code.parse symbols = some (value, rest)) :
    code.parseFor (fuel + 1) symbols =
      (value :: (code.parseFor fuel rest).1, (code.parseFor fuel rest).2) := by
  simp [parseFor, hparse, hne]

/-- Values that are written one after the other are read back as far as the symbols go. -/
theorem parseFor_prefix (hne : ∀ value, code.encode value ≠ []) {values : List α}
    {symbols : List σ} {fuel : Nat} (hsymbols : symbols <+: values.flatMap code.encode)
    (hfuel : symbols.length ≤ fuel) :
    ∃ count tail, code.parseFor fuel symbols = (values.take count, tail) ∧
      symbols = (values.take count).flatMap code.encode ++ tail ∧
      ∀ whole, whole ≤ values.length → (values.take whole).flatMap code.encode <+: symbols →
        whole ≤ count := by
  induction values generalizing symbols fuel with
  | nil =>
      obtain rfl := List.prefix_nil.mp hsymbols
      refine ⟨0, [], parseFor_nil fuel, rfl, fun whole hwhole _ => by simpa using hwhole⟩
  | cons value values ih =>
      rw [List.flatMap_cons] at hsymbols
      rcases prefix_cases hsymbols with ⟨hshort, hcut⟩ | ⟨more, rfl, hmore⟩
      · -- The symbols end within the first value.
        refine ⟨0, symbols, parseFor_none (code.parse_cut value symbols hshort hcut), by simp, ?_⟩
        rintro (_ | whole) - hwhole
        · exact Nat.le_refl 0
        · rw [List.take_succ_cons, List.flatMap_cons] at hwhole
          have hlong := (List.prefix_append _ _).trans hwhole
          exact absurd (hshort.eq_of_length_le hlong.length_le) hcut
      · have hpos := List.length_pos_iff.mpr (hne value)
        rw [List.length_append] at hfuel
        obtain ⟨fuel, rfl⟩ : ∃ less, fuel = less + 1 := ⟨fuel - 1, by omega⟩
        obtain ⟨count, tail, hparsed, htail, hmost⟩ := ih hmore (by omega : more.length ≤ fuel)
        refine ⟨count + 1, tail, ?_, ?_, ?_⟩
        · rw [parseFor_some (by simp [hne value]) (code.parse_encode value more), hparsed]
          rfl
        · rw [List.take_succ_cons, List.flatMap_cons, List.append_assoc, ← htail]
        · rintro (_ | whole) hlength hwhole
          · exact Nat.zero_le _
          · rw [List.take_succ_cons, List.flatMap_cons] at hwhole
            have hrest := (List.prefix_append_right_inj _).mp hwhole
            exact Nat.succ_le_succ (hmost whole (Nat.le_of_succ_le_succ hlength) hrest)

/-! ## Little-endian words -/

/-- The bytes of a number, the lowest first. -/
def littleEndian : (width : Nat) → Nat → List.Vector UInt8 width
  | 0, _ => List.Vector.nil
  | width + 1, number => UInt8.ofNat number ::ᵥ littleEndian width (number / 256)

/-- The number that the bytes are of. -/
def ofLittleEndian (bytes : List UInt8) : Nat :=
  bytes.foldr (fun byte number => byte.toNat + 256 * number) 0

theorem ofLittleEndian_littleEndian (width number : Nat) :
    ofLittleEndian (littleEndian width number).toList = number % 256 ^ width := by
  induction width generalizing number with
  | zero => simp [littleEndian, ofLittleEndian, Nat.mod_one]
  | succ width ih =>
      have hrest := ih (number / 256)
      rw [Nat.pow_succ', Nat.mod_mul, ← hrest]
      simp [littleEndian, ofLittleEndian]

/-- A machine word of so many bytes. -/
def word (width : Nat) : Code (BitVec (8 * width)) UInt8 :=
  (symbol.repeated width).retract (fun value => littleEndian width value.toNat)
    (fun bytes => BitVec.ofNat _ (ofLittleEndian bytes.toList)) fun value => by
      have hlt : value.toNat < 256 ^ width := by
        have hbits := value.isLt
        rwa [Nat.pow_mul] at hbits
      rw [ofLittleEndian_littleEndian, Nat.mod_eq_of_lt hlt, BitVec.ofNat_toNat, BitVec.setWidth_eq]

theorem encode_word (width : Nat) (value : BitVec (8 * width)) :
    (word width).encode value = (littleEndian width value.toNat).toList := by
  show (symbol.repeated width).encode _ = _
  rw [encode_repeated]
  exact List.flatMap_singleton' _

end Code

end AcflyRos.Framing
