import Mathlib.Data.List.Infix
import Mathlib.Data.String.Basic

/-! # Slash-separated paths

A path is read as the list of its components. Empty components and `.` do not count,
so that a path lies at or below another one exactly if its components begin with the
other's. Links are not followed.
-/

namespace AcflyRos.Paths

/-- A component, unless it says nothing. -/
def kept (segment : List Char) : List String :=
  if segment = [] ∨ segment = ['.'] then [] else [String.ofList segment]

/-- The components of what is left to read, after the segment read last. -/
def split (segment : List Char) : List Char → List String
  | [] => kept segment
  | c :: rest =>
      if c = '/' then kept segment ++ split [] rest else split (segment ++ [c]) rest

def components (path : String) : List String := split [] path.toList

/-- The name of an entry as the kernel has it, except for the entry `.`. -/
structure IsName (name : String) : Prop where
  unslashed : '/' ∉ name.toList
  nonempty : name ≠ ""
  notSelf : name ≠ "."

instance (name : String) : Decidable (IsName name) :=
  decidable_of_iff ('/' ∉ name.toList ∧ name ≠ "" ∧ name ≠ ".")
    ⟨fun h => ⟨h.1, h.2.1, h.2.2⟩, fun h => ⟨h.unslashed, h.nonempty, h.notSelf⟩⟩

/-- The path is the other one or leads to something inside it. -/
def AtOrBelow (path dir : String) : Prop := components dir <+: components path

instance (path dir : String) : Decidable (AtOrBelow path dir) :=
  inferInstanceAs (Decidable (_ <+: _))

theorem split_append_slash (segment first second : List Char) :
    split segment (first ++ '/' :: second) = split segment first ++ split [] second := by
  induction first generalizing segment with
  | nil => simp [split]
  | cons c rest ih =>
      simp only [List.cons_append, split]
      by_cases hslash : c = '/'
      · rw [if_pos hslash, if_pos hslash, ih, List.append_assoc]
      · rw [if_neg hslash, if_neg hslash, ih]

theorem components_slash (dir name : String) :
    components (dir ++ ("/" ++ name)) = components dir ++ components name := by
  unfold components
  rw [String.toList_append, String.toList_append]
  exact split_append_slash [] dir.toList name.toList

theorem split_unslashed {segment rest : List Char} (hrest : '/' ∉ rest) :
    split segment rest = kept (segment ++ rest) := by
  induction rest generalizing segment with
  | nil => simp [split]
  | cons c rest ih =>
      rw [List.mem_cons, not_or] at hrest
      simp only [split]
      rw [if_neg fun hslash => hrest.1 hslash.symm, ih hrest.2, List.append_assoc]
      rfl

theorem modifyHead_nil_append (segments : List (List Char)) :
    segments.modifyHead ([] ++ ·) = segments := by
  cases segments <;> rfl

/-- Read to its end, a path falls into what stands between its slashes. -/
theorem split_eq (segment rest : List Char) :
    split segment rest = ((rest.splitOn '/').modifyHead (segment ++ ·)).flatMap kept := by
  induction rest generalizing segment with
  | nil => simp [split]
  | cons c rest ih =>
      rw [split, List.splitOn_cons_eq_if_modifyHead]
      by_cases hslash : c = '/'
      · rw [hslash, if_pos rfl, ih [], modifyHead_nil_append]
        simp
      · simp [hslash, ih (segment ++ [c]), Function.comp_def]

/-- The parts between the slashes, empty ones and `.` included. -/
def segments (path : String) : List String := (path.toList.splitOn '/').map String.ofList

theorem components_eq_filter (path : String) :
    components path = (segments path).filter fun part => part ≠ "" ∧ part ≠ "." := by
  have hkept : ∀ segments : List (List Char), segments.flatMap kept =
      (segments.map String.ofList).filter fun part => part ≠ "" ∧ part ≠ "." := by
    intro segments
    induction segments with
    | nil => rfl
    | cons segment rest ih =>
        have hempty : String.ofList segment = "" ↔ segment = [] := by
          rw [← String.toList_inj, String.toList_ofList, String.toList_empty]
        have hself : String.ofList segment = "." ↔ segment = ['.'] := by
          rw [← String.toList_inj, String.toList_ofList]
          rfl
        rw [List.flatMap_cons, ih, List.map_cons, List.filter_cons]
        simp only [kept, ← not_or, decide_not, hempty, hself]
        by_cases hskipped : segment = [] ∨ segment = ['.'] <;> simp [hskipped]
  unfold components
  rw [split_eq, modifyHead_nil_append, hkept, segments]

theorem IsName.components_eq {name : String} (hname : IsName name) : components name = [name] := by
  unfold components
  rw [split_unslashed hname.unslashed, List.nil_append]
  unfold kept
  rw [if_neg, String.ofList_toList]
  rintro (hempty | hdot)
  · exact hname.nonempty (String.toList_injective hempty)
  · exact hname.notSelf (String.toList_injective hdot)

theorem isName_of_mem_kept {segment : List Char} {name : String} (hsegment : '/' ∉ segment)
    (hname : name ∈ kept segment) : IsName name := by
  unfold kept at hname
  split at hname
  next => cases hname
  next hskipped =>
    rw [not_or] at hskipped
    obtain rfl := List.mem_singleton.mp hname
    constructor
    · rwa [String.toList_ofList]
    · exact fun hempty => hskipped.1 (by simpa using congrArg String.toList hempty)
    · exact fun hself => hskipped.2 (by simpa using congrArg String.toList hself)

theorem isName_of_mem_split {segment rest : List Char} {name : String} (hsegment : '/' ∉ segment)
    (hname : name ∈ split segment rest) : IsName name := by
  induction rest generalizing segment with
  | nil => exact isName_of_mem_kept hsegment hname
  | cons c rest ih =>
      rw [split] at hname
      split at hname
      next =>
        rcases List.mem_append.mp hname with hhere | hlater
        · exact isName_of_mem_kept hsegment hhere
        · exact ih List.not_mem_nil hlater
      next hslash =>
        apply ih _ hname
        rw [List.mem_append, List.mem_singleton, not_or]
        exact ⟨hsegment, fun hc => hslash hc.symm⟩

theorem isName_of_mem_components {path name : String} (hname : name ∈ components path) :
    IsName name := isName_of_mem_split List.not_mem_nil hname

/-- Names are found again in the path that they are put together to. -/
theorem components_join {names : List String} (hnames : ∀ name ∈ names, IsName name) :
    components (String.join (names.map ("/" ++ ·))) = names := by
  have hsplit : split [] ((names.map ("/" ++ ·)).flatMap String.toList) = names := by
    induction names with
    | nil => rfl
    | cons name rest ih =>
        have hrest := ih fun other hother => hnames other (List.mem_cons_of_mem name hother)
        have hname := hnames name List.mem_cons_self
        cases rest with
        | nil => simpa [split, kept, components] using hname.components_eq
        | cons other rest =>
            have hslash := split_append_slash [] name.toList
              (other.toList ++ (rest.map ("/" ++ ·)).flatMap String.toList)
            have hfirst : split [] name.toList = [name] := hname.components_eq
            have hlater : split [] (other.toList ++
                (rest.map ("/" ++ ·)).flatMap String.toList) = other :: rest := by
              simpa [split, kept] using hrest
            rw [hfirst, hlater] at hslash
            simpa [split, kept] using hslash
  unfold components
  rw [String.toList_join]
  exact hsplit

namespace AtOrBelow

variable {path dir other name : String}

theorem refl (path : String) : AtOrBelow path path := List.prefix_rfl

theorem trans (hpath : AtOrBelow path dir) (hdir : AtOrBelow dir other) : AtOrBelow path other :=
  List.IsPrefix.trans hdir hpath

/-- An entry lies below its directory. -/
theorem slash (dir name : String) : AtOrBelow (dir ++ ("/" ++ name)) dir := by
  unfold AtOrBelow
  rw [components_slash]
  exact List.prefix_append _ _

/-- What lies at or below one entry of a directory neither lies at or below another one nor
contains it. -/
theorem not_sibling (hname : IsName name) (hother : IsName other) (hne : name ≠ other)
    (hpath : AtOrBelow path (dir ++ ("/" ++ name))) :
    ¬ AtOrBelow path (dir ++ ("/" ++ other)) ∧ ¬ AtOrBelow (dir ++ ("/" ++ other)) path := by
  unfold AtOrBelow at *
  rw [components_slash, hname.components_eq] at hpath
  rw [components_slash, hother.components_eq]
  have hlength : (components dir ++ [name]).length = (components dir ++ [other]).length := by simp
  have hboth : ∀ {whole : List String}, components dir ++ [name] <+: whole →
      ¬ components dir ++ [other] <+: whole := by
    intro whole hfirst hsecond
    -- Two initial segments of one length are the same.
    have hsame := (List.prefix_of_prefix_length_le hfirst hsecond hlength.le).eq_of_length hlength
    exact hne (by simpa using hsame)
  exact ⟨hboth hpath, fun hinside => hboth (hpath.trans hinside) List.prefix_rfl⟩

end AtOrBelow

/-! ## Entries of entries -/

/-- The path of something inside, by the names that lead to it. -/
def below (path : String) : List String → String
  | [] => path
  | name :: rest => below (path ++ ("/" ++ name)) rest

theorem atOrBelow_below (path : String) (names : List String) :
    AtOrBelow (below path names) path := by
  induction names generalizing path with
  | nil => exact AtOrBelow.refl path
  | cons name rest ih => exact (ih _).trans (AtOrBelow.slash path name)

end AcflyRos.Paths
