import AcflyRos.BagLogd.Removal
import AcflyRos.Foundation.Inodes

/-! # Making the storage directory

`ensure_storage_dir` of `bag_logd_node.cpp` on a file system with links, in which `mkdir`
may be refused for any path. What is created is read off the calls.
-/

namespace AcflyRos.BagLogd

open AcflyRos.Paths AcflyRos.Inodes

section MakeDirs

variable (refused : String → Bool)

/-- The loop over the characters that are left, with the path put together so far. -/
def makeDirs (accum : List Char) : List Char → FileSystem → List (String × Outcome) × FileSystem
  | [], fs => ([], fs)
  | c :: rest, fs =>
      let accum := accum ++ [c]
      if c = '/' ∨ rest = [] then
        -- The slash is not put back, and the next component follows without one.
        let accum := if 1 < accum.length ∧ accum.getLast? = some '/' then accum.dropLast else accum
        if accum = [] then makeDirs accum rest fs
        else
          let path := String.ofList accum
          let made := fs.mkdir (refused path) path
          let later := makeDirs accum rest made.2
          ((path, made.1) :: later.1, later.2)
      else makeDirs accum rest fs

/-- The calls of `mkdir` with their outcomes, and the file system afterwards. -/
def ensureStorageDir (path : String) (fs : FileSystem) : List (String × Outcome) × FileSystem :=
  if (fs.stat path).isSome then ([], fs) else makeDirs refused [] path.toList fs

/-- `mkdir` for one path after the other. -/
def mkdirAll : List String → FileSystem → List (String × Outcome) × FileSystem
  | [], fs => ([], fs)
  | path :: rest, fs =>
      let made := fs.mkdir (refused path) path
      let later := mkdirAll rest made.2
      ((path, made.1) :: later.1, later.2)

end MakeDirs

/-- The paths that the loop puts together from the components of the storage path. -/
def putTogether (accum : List Char) : List String → List String
  | [] => []
  | name :: rest =>
      String.ofList (accum ++ name.toList) :: putTogether (accum ++ name.toList) rest

section Loop

variable {refused : String → Bool}

/-- Inside a component the loop only reads on. -/
theorem makeDirs_append {accum chars rest : List Char} {fs : FileSystem} (hchars : '/' ∉ chars)
    (hrest : rest ≠ []) :
    makeDirs refused accum (chars ++ rest) fs = makeDirs refused (accum ++ chars) rest fs := by
  induction chars generalizing accum with
  | nil => rw [List.nil_append, List.append_nil]
  | cons c chars ih =>
      rw [List.mem_cons, not_or] at hchars
      have hmore : ¬ (c = '/' ∨ chars ++ rest = []) := by
        rintro (hslash | hend)
        · exact hchars.1 hslash.symm
        · exact hrest (List.append_eq_nil_iff.mp hend).2
      rw [List.cons_append, makeDirs]
      simp only [if_neg hmore]
      rw [ih hchars.2, List.append_assoc]
      rfl

/-- At the end of a component that another one follows. -/
theorem makeDirs_slash {accum rest : List Char} {fs : FileSystem} (haccum : accum ≠ []) :
    makeDirs refused accum ('/' :: rest) fs =
      let made := fs.mkdir (refused (String.ofList accum)) (String.ofList accum)
      let later := makeDirs refused accum rest made.2
      ((String.ofList accum, made.1) :: later.1, later.2) := by
  have hpositive : 0 < accum.length := List.length_pos_iff.mpr haccum
  rw [makeDirs]
  simp [hpositive, haccum]

/-- At the end of the path. -/
theorem makeDirs_end {accum : List Char} {c : Char} {fs : FileSystem} (hc : c ≠ '/') :
    makeDirs refused accum [c] fs = mkdirAll refused [String.ofList (accum ++ [c])] fs := by
  rw [makeDirs]
  simp [hc, makeDirs, mkdirAll]

theorem makeDirs_components {accum : List Char} {name : String} {rest : List String}
    {fs : FileSystem} (haccum : accum ≠ []) (hname : IsName name)
    (hrest : ∀ other ∈ rest, IsName other) :
    makeDirs refused accum (name.toList ++ (rest.map ("/" ++ ·)).flatMap String.toList) fs =
      mkdirAll refused (putTogether accum (name :: rest)) fs := by
  induction rest generalizing accum name fs with
  | nil =>
      have hnonempty : name.toList ≠ [] :=
        fun hempty => hname.nonempty (String.toList_injective hempty)
      obtain ⟨chars, c, hchars⟩ := List.eq_nil_or_concat' name.toList |>.resolve_left hnonempty
      have hunslashed := hname.unslashed
      rw [hchars, List.mem_append, not_or, List.mem_singleton] at hunslashed
      simp only [List.map_nil, List.flatMap_nil, List.append_nil, putTogether]
      rw [hchars, makeDirs_append hunslashed.1 (List.cons_ne_nil c []),
        makeDirs_end fun hc => hunslashed.2 hc.symm, List.append_assoc]
  | cons other rest ih =>
      have hother := hrest other List.mem_cons_self
      have hlater := fun third hthird => hrest third (List.mem_cons_of_mem other hthird)
      have hlonger : accum ++ name.toList ≠ [] :=
        fun hempty => haccum (List.append_eq_nil_iff.mp hempty).1
      have hchars : ((other :: rest).map ("/" ++ ·)).flatMap String.toList =
          '/' :: (other.toList ++ (rest.map ("/" ++ ·)).flatMap String.toList) := by simp
      rw [hchars, makeDirs_append hname.unslashed (List.cons_ne_nil _ _), makeDirs_slash hlonger]
      simp only [ih hlonger hother hlater]
      rfl

/-- The directories that the loop makes or tries to make, for a path in its normal form. -/
theorem makeDirs_join {names : List String} {fs : FileSystem} (hnonempty : names ≠ [])
    (hnames : ∀ name ∈ names, IsName name) :
    makeDirs refused [] (String.join (names.map ("/" ++ ·))).toList fs =
      mkdirAll refused ("/" :: putTogether ['/'] names) fs := by
  cases names with
  | nil => exact absurd rfl hnonempty
  | cons name rest =>
      have hname := hnames name List.mem_cons_self
      have hrest := fun other hother => hnames other (List.mem_cons_of_mem name hother)
      have hchars : (String.join ((name :: rest).map ("/" ++ ·))).toList =
          '/' :: (name.toList ++ (rest.map ("/" ++ ·)).flatMap String.toList) := by
        simp [String.toList_join]
      rw [hchars, makeDirs]
      have hroot : ¬ (1 < ['/'].length ∧ ['/'].getLast? = some '/') := by simp
      have hfound : ¬ (['/'] = []) := List.cons_ne_nil '/' []
      simp only [List.nil_append, true_or, if_true, if_neg hroot, if_neg hfound,
        makeDirs_components hfound hname hrest]
      rfl

/-! ## What is made -/

/-- Calls that make nothing change nothing. -/
theorem mkdirAll_idle {paths : List String} {fs : FileSystem}
    (hidle : ∀ path ∈ paths, (path, Outcome.made) ∉ (mkdirAll refused paths fs).1) :
    (mkdirAll refused paths fs).2 = fs := by
  induction paths generalizing fs with
  | nil => rfl
  | cons path rest ih =>
      have hhead : (fs.mkdir (refused path) path).1 ≠ .made := by
        intro hmade
        apply hidle path List.mem_cons_self
        rw [mkdirAll, hmade]
        exact List.mem_cons_self
      have hsame := FileSystem.mkdir_of_not_made hhead
      rw [mkdirAll]
      dsimp only
      rw [ih]
      · exact hsame
      · intro other hother hmade
        exact hidle other (List.mem_cons_of_mem path hother) (List.mem_cons_of_mem _ hmade)

end Loop

theorem components_unslashed {chars : List Char} (hchars : '/' ∉ chars)
    (hlong : 1 < chars.length) :
    components (String.ofList ('/' :: chars)) = [String.ofList chars] := by
  have hkept : kept chars = [String.ofList chars] := by
    apply if_neg
    rintro (hempty | hself)
    · simp [hempty] at hlong
    · simp [hself] at hlong
  have hsplit := split_append_slash [] [] chars
  rw [split_unslashed hchars] at hsplit
  unfold components
  rw [String.toList_ofList]
  rw [List.nil_append, List.nil_append, hkept] at hsplit
  exact hsplit

/-- What is put together after the first component is a single name, and a longer one. -/
theorem components_putTogether {chars : List Char} {names : List String} {path : String}
    (hchars : '/' ∉ chars) (hnonempty : chars ≠ []) (hnames : ∀ name ∈ names, IsName name)
    (hpath : path ∈ putTogether ('/' :: chars) names) :
    ∃ longer, components path = [String.ofList longer] ∧ chars.length < longer.length := by
  induction names generalizing chars with
  | nil => cases hpath
  | cons name rest ih =>
      have hname := hnames name List.mem_cons_self
      have hlength : 0 < name.toList.length :=
        List.length_pos_iff.mpr fun hempty => hname.nonempty (String.toList_injective hempty)
      have hpositive := List.length_pos_iff.mpr hnonempty
      have hunslashed : '/' ∉ chars ++ name.toList := by
        rw [List.mem_append, not_or]
        exact ⟨hchars, hname.unslashed⟩
      have hlonger : (chars ++ name.toList).length = chars.length + name.toList.length :=
        List.length_append
      rw [putTogether, List.mem_cons, List.cons_append] at hpath
      rcases hpath with hhere | hlater
      · refine ⟨chars ++ name.toList, ?_, by omega⟩
        rw [hhere]
        exact components_unslashed hunslashed (by omega)
      · have hmore : chars ++ name.toList ≠ [] :=
          fun hempty => hnonempty (List.append_eq_nil_iff.mp hempty).1
        obtain ⟨longer, hcomponents, hless⟩ := ih hunslashed hmore
          (fun other hother => hnames other (List.mem_cons_of_mem name hother)) hlater
        exact ⟨longer, hcomponents, by omega⟩

/-- The path and all above it are directories, and nothing has been made elsewhere. -/
structure Ensures (refused : String → Bool) (path : String) (fs : FileSystem) : Prop where
  there : ∀ dir, AtOrBelow path dir → (ensureStorageDir refused path fs).2.isDirectory dir = true
  onTheWay : ∀ dir, (dir, Outcome.made) ∈ (ensureStorageDir refused path fs).1 →
    AtOrBelow path dir

/-- An accepted path has two components at least, and none that leads up. -/
theorem components_of_accepted {raw path : String}
    (haccepted : validateStoragePath raw = .ok path) :
    ∃ first second rest, components path = first :: second :: rest ∧
      path = String.join ((first :: second :: rest).map ("/" ++ ·)) ∧
      (∀ name ∈ first :: second :: rest, IsName name) ∧ second ≠ ".." := by
  have hnames : ∀ name ∈ components raw, IsName name := fun _ => isName_of_mem_components
  unfold validateStoragePath at haccepted
  split at haccepted
  · cases haccepted
  · split at haccepted
    · cases haccepted
    · dsimp only at haccepted
      split at haccepted
      · cases haccepted
      next hup =>
        split at haccepted
        · cases haccepted
        next hroot =>
          split at haccepted
          · cases haccepted
          next hdeep =>
            split at haccepted
            · cases haccepted
            next =>
              obtain rfl := Except.ok.inj haccepted
              rw [components_join hnames]
              generalize components raw = names at *
              match names with
              | [] => exact absurd rfl hroot
              | [_] => exact absurd (by simp) hdeep
              | first :: second :: rest =>
                  refine ⟨first, second, rest, rfl, rfl, hnames, ?_⟩
                  rintro rfl
                  exact hup (List.mem_cons_of_mem first List.mem_cons_self)

section Ensures

variable {refused : String → Bool} {path first second : String} {rest : List String}
  {fs : FileSystem}

/-- The root is there, and the first component is made below it. -/
theorem ensureStorageDir_of_missing
    (hpath : path = String.join ((first :: second :: rest).map ("/" ++ ·)))
    (hnames : ∀ name ∈ first :: second :: rest, IsName name) (hmissing : fs.stat path = none) :
    ensureStorageDir refused path fs =
      let top := fs.mkdir (refused ("/" ++ first)) ("/" ++ first)
      let later := mkdirAll refused (putTogether ('/' :: first.toList) (second :: rest)) top.2
      (("/", .exists) :: ("/" ++ first, top.1) :: later.1, later.2) := by
  have hroot : fs.mkdir (refused "/") "/" = (.exists, fs) := rfl
  have hfirst : String.ofList (['/'] ++ first.toList) = "/" ++ first :=
    String.toList_injective (by simp)
  unfold ensureStorageDir
  rw [hmissing, Option.isSome_none, if_neg Bool.false_ne_true, hpath,
    makeDirs_join (List.cons_ne_nil _ _) hnames, mkdirAll, hroot, putTogether, mkdirAll, hfirst]
  rfl

/-- What is put together later does not lead to the storage path. -/
theorem ensureStorageDir_of_onTheWay (hcomponents : components path = first :: second :: rest)
    (hpath : path = String.join ((first :: second :: rest).map ("/" ++ ·)))
    (hnames : ∀ name ∈ first :: second :: rest, IsName name) (hmissing : fs.stat path = none)
    (honTheWay : ∀ dir, (dir, Outcome.made) ∈ (ensureStorageDir refused path fs).1 →
      AtOrBelow path dir) :
    (ensureStorageDir refused path fs).2 =
      (fs.mkdir (refused ("/" ++ first)) ("/" ++ first)).2 := by
  have hfirst := hnames first List.mem_cons_self
  have hlater : ∀ name ∈ second :: rest, IsName name :=
    fun name hname => hnames name (List.mem_cons_of_mem first hname)
  have hnonempty : first.toList ≠ [] :=
    fun hempty => hfirst.nonempty (String.toList_injective hempty)
  rw [ensureStorageDir_of_missing hpath hnames hmissing] at honTheWay ⊢
  apply mkdirAll_idle
  intro dir hdir hmade
  obtain ⟨longer, hlonger, hless⟩ :=
    components_putTogether hfirst.unslashed hnonempty hlater hdir
  have hbelow := honTheWay dir (List.mem_cons_of_mem _ (List.mem_cons_of_mem _ hmade))
  unfold AtOrBelow at hbelow
  rw [hlonger, hcomponents, List.cons_prefix_cons] at hbelow
  rw [← hbelow.1, String.toList_ofList] at hless
  exact Nat.lt_irrefl _ hless

/-- When the storage path leads nowhere, at most the first directory on the way is made, and
that one is empty. -/
theorem not_ensures_of_missing (hcomponents : components path = first :: second :: rest)
    (hpath : path = String.join ((first :: second :: rest).map ("/" ++ ·)))
    (hnames : ∀ name ∈ first :: second :: rest, IsName name) (hup : second ≠ "..")
    (hmissing : fs.stat path = none) : ¬ Ensures refused path fs := by
  intro hensures
  have hfirst := hnames first List.mem_cons_self
  have hsecond := hnames second (List.mem_cons_of_mem first List.mem_cons_self)
  have hthere := hensures.there path (AtOrBelow.refl path)
  rw [ensureStorageDir_of_onTheWay hcomponents hpath hnames hmissing hensures.onTheWay] at hthere
  rcases FileSystem.mkdir_cases (refused ("/" ++ first)) ("/" ++ first) fs with
    ⟨_, hsame⟩ | ⟨name, dir, entries, hname, hdir, hentries, hfree, hmkdir⟩
  · rw [hsame, FileSystem.isDirectory, hmissing] at hthere
    cases hthere
  · have htop : components ("/" ++ first) = [first] := by
      have hslash := components_slash "" first
      rwa [hfirst.components_eq, String.empty_append] at hslash
    rw [htop] at hname hdir
    obtain rfl : first = name := by simpa using hname
    obtain rfl : 0 = dir := Option.some.inj hdir
    have hempty : (fs.addDirectory 0 entries first).resolve (components path) = none := by
      rw [hcomponents]
      exact FileSystem.resolveFrom_addDirectory hentries hfree hsecond.notSelf hup
    simp [hmkdir, FileSystem.isDirectory, FileSystem.stat, hempty] at hthere

end Ensures

/-- The function does what it is there for exactly if there is nothing to do. -/
theorem ensures_iff {raw path : String} (haccepted : validateStoragePath raw = .ok path)
    (refused : String → Bool) (fs : FileSystem) :
    Ensures refused path fs ↔ fs.isDirectory path = true := by
  by_cases hmissing : fs.stat path = none
  · obtain ⟨first, second, rest, hcomponents, hpath, hnames, hup⟩ :=
      components_of_accepted haccepted
    constructor
    · exact fun hensures =>
        absurd hensures (not_ensures_of_missing hcomponents hpath hnames hup hmissing)
    · intro hdirectory
      rw [FileSystem.isDirectory, hmissing] at hdirectory
      cases hdirectory
  · have hsome : (fs.stat path).isSome = true := Option.isSome_iff_ne_none.mpr hmissing
    have hsame : ensureStorageDir refused path fs = ([], fs) := if_pos hsome
    constructor
    · intro hensures
      have hthere := hensures.there path (AtOrBelow.refl path)
      rwa [hsame] at hthere
    · intro hdirectory
      constructor
      · intro dir hdir
        rw [hsame]
        exact FileSystem.isDirectory_of_atOrBelow hdirectory hdir
      · intro dir hmade
        rw [hsame] at hmade
        cases hmade

/-- Nothing but the root. -/
def bare : FileSystem := ⟨[.directory [(".", 0), ("..", 0)]], rfl⟩

example : (ensureStorageDir (fun _ => false) "/data/bags" bare).1 =
    [("/", .exists), ("/data", .made), ("/databags", .made)] := by decide +kernel

theorem ensures_bare_iff : Ensures (fun _ => false) "/data/bags" bare ↔
    bare.isDirectory "/data/bags" = true :=
  ensures_iff (show validateStoragePath "/data/bags" = .ok "/data/bags" by decide +kernel)
    (fun _ => false) bare

/-- The loop makes `/data` and `/databags`. -/
theorem not_ensures_bare :
    ¬ ∀ (raw path : String) (refused : String → Bool) (fs : FileSystem),
      validateStoragePath raw = .ok path →
      (∀ call ∈ (ensureStorageDir refused path fs).1, call.2 = .made ∨
        call.2 = .exists ∧ (ensureStorageDir refused path fs).2.isDirectory call.1 = true) →
        Ensures refused path fs := by
  intro hall
  have hensures := hall "/data/bags" "/data/bags" (fun _ => false) bare (by decide +kernel)
    (by decide +kernel)
  exact absurd (hensures.there "/data/bags" (AtOrBelow.refl _)) (by decide +kernel)

end AcflyRos.BagLogd
