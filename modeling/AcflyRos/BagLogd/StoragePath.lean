import AcflyRos.BagLogd.Removal

/-! # Which storage paths are accepted

`validate_storage_path` of `bag_logd_node.cpp`, one character after the other, next to the
grammar that it accepts. The characters of a string stand for its bytes.
-/

namespace AcflyRos.BagLogd

open AcflyRos.Paths

/-- What the call returns, and its two reference parameters afterwards. -/
structure Validation where
  accepted : Bool
  path : String
  reason : String
  deriving DecidableEq, Repr

/-- The path when it is accepted, or the reason why not. -/
def Validation.toExcept (validation : Validation) : Except String String :=
  if validation.accepted then .ok validation.path else .error validation.reason

namespace StoragePath

/-- The end of a component; `none` leaves the function. -/
def endSegment (seg : String) (parts : List String) : Option (List String) :=
  if seg ≠ "" ∧ seg ≠ "." then
    if seg = ".." then none else some (parts ++ [seg])
  else some parts

/-- The loop over the characters that are left. Its last iteration is past the end. -/
def splitLoop (seg : String) (parts : List String) : List Char → Option (List String)
  | [] => endSegment seg parts
  | c :: rest =>
      if c = '/' then (endSegment seg parts).bind fun parts => splitLoop "" parts rest
      else splitLoop (seg.push c) parts rest

def validate (path reason : String) : Validation :=
  if path = "" then ⟨false, path, "storage_path is empty"⟩
  else if path.toList.head? ≠ some '/' then
    ⟨false, path, "storage_path must be absolute: " ++ path⟩
  else match splitLoop "" [] path.toList with
  | none => ⟨false, path, "storage_path must not contain '..': " ++ path⟩
  | some parts =>
      if parts = [] then ⟨false, path, "storage_path is root '/'"⟩
      else if parts.length < 2 then
        ⟨false, path, "storage_path too shallow (need at least /x/y): " ++ path⟩
      else
        let normalized := parts.foldl (fun normalized p => normalized ++ ("/" ++ p)) ""
        if normalized ∈ denylist then
          ⟨false, path, "storage_path refuses system directory: " ++ normalized⟩
        else ⟨true, normalized, reason⟩

/-! ## The grammar -/

/-- A component that says something. -/
def Meaningful (part : String) : Prop := part ≠ "" ∧ part ≠ "."

instance (part : String) : Decidable (Meaningful part) :=
  inferInstanceAs (Decidable (_ ∧ _))

/-- The storage paths that are accepted. -/
structure InGrammar (path : String) : Prop where
  absolute : path.toList.head? = some '/'
  notUp : ".." ∉ segments path
  deep : 2 ≤ ((segments path).filter fun part => Meaningful part).length

/-- A slash, and the components that say something with single slashes in between. -/
def canonical (path : String) : String :=
  "/" ++ "/".intercalate ((segments path).filter fun part => Meaningful part)

/-- The function accepts exactly its grammar, and gives every path one form. -/
structure Validates (path reason : String) : Prop where
  accepts : (validate path reason).accepted = true ↔ InGrammar path
  form : (validate path reason).accepted = true →
    (validate path reason).path = canonical path
  again : (validate path reason).accepted = true → ∀ other,
    validate (validate path reason).path other = ⟨true, (validate path reason).path, other⟩
  refuses : (validate path reason).accepted = false →
    (validate path reason).path = path ∧ (validate path reason).reason ≠ ""
  /-- The denylist refuses no path that is not refused before. -/
  allowed : InGrammar path → canonical path ∉ denylist

theorem components_eq_meaningful (path : String) :
    components path = (segments path).filter fun part => Meaningful part :=
  components_eq_filter path

theorem endSegment_eq (seg : List Char) (parts : List String) :
    endSegment (String.ofList seg) parts =
      if ".." ∈ kept seg then none else some (parts ++ kept seg) := by
  have hempty : String.ofList seg = "" ↔ seg = [] := by
    rw [← String.toList_inj, String.toList_ofList, String.toList_empty]
  have hself : String.ofList seg = "." ↔ seg = ['.'] := by
    rw [← String.toList_inj, String.toList_ofList]
    rfl
  simp only [endSegment, kept, ne_eq, hempty, hself, ← not_or, ite_not]
  by_cases hskipped : seg = [] ∨ seg = ['.']
  · simp [hskipped]
  · simp [hskipped, eq_comm]

/-- The loop finds the components, unless one of them leads up. -/
theorem splitLoop_eq (seg : List Char) (parts : List String) (chars : List Char) :
    splitLoop (String.ofList seg) parts chars =
      if ".." ∈ split seg chars then none else some (parts ++ split seg chars) := by
  induction chars generalizing seg parts with
  | nil => exact endSegment_eq seg parts
  | cons c rest ih =>
      by_cases hslash : c = '/'
      · have hrest := ih [] (parts ++ kept seg)
        rw [String.ofList_nil] at hrest
        simp only [splitLoop, split, if_pos hslash, endSegment_eq, List.mem_append]
        by_cases hup : ".." ∈ kept seg
        · simp [hup]
        · simp [hup, hrest]
      · have hpush : (String.ofList seg).push c = String.ofList (seg ++ [c]) := by
          rw [← String.toList_inj, String.toList_push, String.toList_ofList, String.toList_ofList]
        simp only [splitLoop, split, if_neg hslash, hpush, ih]

theorem foldl_slash (parts : List String) :
    parts.foldl (fun normalized p => normalized ++ ("/" ++ p)) "" =
      String.join (parts.map ("/" ++ ·)) := by
  rw [String.join, List.foldl_map]

/-- The components in between single slashes, behind a slash. -/
theorem join_slash {parts : List String} (hparts : parts ≠ []) :
    String.join (parts.map ("/" ++ ·)) = "/" ++ "/".intercalate parts := by
  induction parts with
  | nil => exact absurd rfl hparts
  | cons name rest ih =>
      have hcons : String.join ((name :: rest).map ("/" ++ ·)) =
          "/" ++ name ++ String.join (rest.map ("/" ++ ·)) := by
        rw [List.map_cons, String.join_cons]
      rw [hcons]
      by_cases hrest : rest = []
      · simp [hrest]
      · rw [ih hrest, String.intercalate_cons_of_ne_nil hrest]
        simp only [String.append_assoc]

section Grammar

variable {path : String}

/-- A component that leads up says something. -/
theorem mem_components_up : ".." ∈ components path ↔ ".." ∈ segments path := by
  rw [components_eq_meaningful, List.mem_filter]
  simp [Meaningful]

theorem inGrammar_iff : InGrammar path ↔ path.toList.head? = some '/' ∧
    ".." ∉ components path ∧ 2 ≤ (components path).length := by
  rw [mem_components_up, components_eq_meaningful]
  exact ⟨fun h => ⟨h.absolute, h.notUp, h.deep⟩, fun h => ⟨h.1, h.2.1, h.2.2⟩⟩

theorem canonical_eq (hcomponents : components path ≠ []) :
    canonical path = String.join ((components path).map ("/" ++ ·)) := by
  rw [join_slash hcomponents, components_eq_meaningful]
  rfl

theorem InGrammar.components_ne_nil (h : InGrammar path) : components path ≠ [] := by
  intro hempty
  have hdeep := (inGrammar_iff.mp h).2.2
  rw [hempty] at hdeep
  exact absurd hdeep (by decide)

theorem InGrammar.components_canonical (h : InGrammar path) :
    components (canonical path) = components path := by
  rw [canonical_eq h.components_ne_nil]
  exact components_join fun _ => isName_of_mem_components

/-- The canonical form is its own. -/
theorem InGrammar.canonical_canonical (h : InGrammar path) :
    canonical (canonical path) = canonical path := by
  have hcomponents := h.components_canonical
  rw [canonical_eq (hcomponents ▸ h.components_ne_nil), hcomponents,
    ← canonical_eq h.components_ne_nil]

theorem InGrammar.canonical (h : InGrammar path) : InGrammar (canonical path) := by
  have hslash : (StoragePath.canonical path).toList.head? = some '/' := by
    rw [StoragePath.canonical, String.toList_append]
    rfl
  rw [inGrammar_iff, h.components_canonical]
  exact ⟨hslash, (inGrammar_iff.mp h).2⟩

/-- All that the denylist names are the root and directories in it. -/
theorem InGrammar.not_mem_denylist (h : InGrammar path) :
    StoragePath.canonical path ∉ denylist := by
  intro hmem
  have hshallow : ∀ bad ∈ denylist, (components bad).length < 2 := by decide +kernel
  have hdeep := hshallow _ hmem
  rw [h.components_canonical] at hdeep
  exact Nat.not_le.mpr hdeep (inGrammar_iff.mp h).2.2

end Grammar

/-- What the loop finds for the whole path. -/
theorem splitLoop_path (path : String) :
    splitLoop "" [] path.toList =
      if ".." ∈ components path then none else some (components path) :=
  splitLoop_eq [] [] path.toList

theorem validate_of_inGrammar {path : String} (h : InGrammar path) (reason : String) :
    validate path reason = ⟨true, canonical path, reason⟩ := by
  obtain ⟨habsolute, hup, hdeep⟩ := inGrammar_iff.mp h
  have hnonempty : path ≠ "" := by
    rintro rfl
    cases habsolute
  have hform : (components path).foldl (fun normalized p => normalized ++ ("/" ++ p)) "" =
      canonical path := by rw [foldl_slash, canonical_eq h.components_ne_nil]
  rw [validate, if_neg hnonempty, if_neg (not_not.mpr habsolute), splitLoop_path, if_neg hup]
  dsimp only
  rw [if_neg h.components_ne_nil, if_neg (Nat.not_lt.mpr hdeep), hform,
    if_neg h.not_mem_denylist]

theorem validate_of_not_inGrammar {path : String} (h : ¬ InGrammar path) (reason : String) :
    ∃ why, why ≠ "" ∧ validate path reason = ⟨false, path, why⟩ := by
  have hwhy : ∀ {why tail : String}, why ≠ "" → why ++ tail ≠ "" := by
    intro why tail hwhy hempty
    exact hwhy (String.append_eq_empty_iff.mp hempty).1
  rw [validate]
  by_cases hempty : path = ""
  · rw [if_pos hempty]
    exact ⟨_, by decide, rfl⟩
  rw [if_neg hempty]
  by_cases habsolute : path.toList.head? = some '/'
  swap
  · rw [if_pos habsolute]
    exact ⟨_, hwhy (by decide), rfl⟩
  rw [if_neg (not_not.mpr habsolute), splitLoop_path]
  by_cases hup : ".." ∈ components path
  · rw [if_pos hup]
    exact ⟨_, hwhy (by decide), rfl⟩
  rw [if_neg hup]
  dsimp only
  by_cases hroot : components path = []
  · rw [if_pos hroot]
    exact ⟨_, by decide, rfl⟩
  have hshallow : (components path).length < 2 := by
    by_contra hdeep
    exact h (inGrammar_iff.mpr ⟨habsolute, hup, Nat.not_lt.mp hdeep⟩)
  rw [if_neg hroot, if_pos hshallow]
  exact ⟨_, hwhy (by decide), rfl⟩

theorem validates (path reason : String) : Validates path reason := by
  by_cases h : InGrammar path
  · have hvalid := validate_of_inGrammar h
    refine ⟨?_, ?_, ?_, ?_, fun _ => h.not_mem_denylist⟩
    · simp only [hvalid, h]
    · intro _
      rw [hvalid]
    · intro _ other
      rw [hvalid, validate_of_inGrammar h.canonical, h.canonical_canonical]
    · intro hrefused
      rw [hvalid] at hrefused
      cases hrefused
  · obtain ⟨why, hwhy, hrefused⟩ := validate_of_not_inGrammar h reason
    refine ⟨?_, ?_, ?_, ?_, fun hin => absurd hin h⟩
    · simp only [hrefused, h, Bool.false_eq_true]
    · intro haccepted
      rw [hrefused] at haccepted
      cases haccepted
    · intro haccepted
      rw [hrefused] at haccepted
      cases haccepted
    · intro _
      rw [hrefused]
      exact ⟨rfl, hwhy⟩

/-- What the rest of the development relies on is this function. -/
theorem validateStoragePath_eq (path reason : String) :
    validateStoragePath path = (validate path reason).toExcept := by
  unfold validateStoragePath validate
  rw [splitLoop_path]
  dsimp only
  by_cases hempty : path = ""
  · rw [if_pos hempty, if_pos hempty]
    rfl
  rw [if_neg hempty, if_neg hempty]
  by_cases habsolute : path.toList.head? ≠ some '/'
  · rw [if_pos habsolute, if_pos habsolute]
    rfl
  rw [if_neg habsolute, if_neg habsolute]
  by_cases hup : ".." ∈ components path
  · rw [if_pos hup, if_pos hup]
    rfl
  rw [if_neg hup, if_neg hup]
  dsimp only
  rw [foldl_slash]
  by_cases hroot : components path = []
  · rw [if_pos hroot, if_pos hroot]
    rfl
  rw [if_neg hroot, if_neg hroot]
  by_cases hshallow : (components path).length < 2
  · rw [if_pos hshallow, if_pos hshallow]
    rfl
  rw [if_neg hshallow, if_neg hshallow]
  split <;> rfl

end StoragePath

end AcflyRos.BagLogd
