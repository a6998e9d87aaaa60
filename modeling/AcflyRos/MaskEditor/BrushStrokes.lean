import AcflyRos.Foundation.Plane
import AcflyRos.MaskEditor.Tools
import Mathlib.Data.Rat.Floor

/-! # What a brush leaves on the mask

A stroke of the brush or the eraser is a row of discs, one where the button goes down and more along
each stretch that the mouse moves, close enough to leave no gap. The mask gets the colour all along
the line of the mouse, and nothing far from it changes.
-/

namespace AcflyRos.MaskEditor

open AcflyRos.Plane AcflyRos.Transition

def Point.toPair (pos : Point) : ℚ × ℚ := (pos.x, pos.y)

/-! ## The discs along a stretch -/

namespace BrushTool

variable {tool : BrushTool} {first last : Point}

/-- How far the discs are apart at least. -/
def gap (tool : BrushTool) : ℚ := max (tool.radius / 3) 2

theorem gap_eq (tool : BrushTool) : tool.gap = tool.radius / 3 := by
  unfold gap radius
  cases tool.sizeKey <;> norm_num [sizes]

theorem ten_le_radius (tool : BrushTool) : 10 ≤ tool.radius := by
  unfold radius
  cases tool.sizeKey <;> norm_num [sizes]

theorem gap_pos (tool : BrushTool) : 0 < tool.gap := by
  have hradius := tool.ten_le_radius
  rw [gap_eq]
  linarith

/-- The square of the distance. -/
def distSq (first last : Point) : ℚ := normSq (last.toPair - first.toPair)

/-- The distance in gaps, rounded down. -/
def steps (tool : BrushTool) (first last : Point) : Nat :=
  (distSq first last / (tool.gap * tool.gap)).floor.toNat.sqrt

/-- The point after so many more steps than one. -/
def mark (tool : BrushTool) (first last : Point) (i : Nat) : Point :=
  ⟨first.x + (last.x - first.x) * ((i + 1) / (tool.steps first last : ℚ)),
    first.y + (last.y - first.y) * ((i + 1) / (tool.steps first last : ℚ))⟩

theorem between_eq (tool : BrushTool) (first last : Point) : tool.between last first =
    if tool.gap * tool.gap < distSq first last then
      (List.range (tool.steps first last)).map (tool.mark first last)
    else [] := by
  have hdist : (last.x - first.x) * (last.x - first.x) + (last.y - first.y) * (last.y - first.y) =
      distSq first last := by
    simp only [distSq, normSq, Point.toPair, Prod.fst_sub, Prod.snd_sub]
    ring
  unfold between
  simp only [hdist, List.bind_eq_flatMap, List.pure_def, List.map_flatMap, List.map_cons,
    List.map_nil]
  rw [← List.map_eq_flatMap]
  rfl

theorem toPair_mark (tool : BrushTool) (first last : Point) (i : Nat) :
    (tool.mark first last i).toPair = along first.toPair last.toPair
      ((i + 1 : Nat) / (tool.steps first last : ℚ)) := by
  simp only [mark, Point.toPair, along, Prod.mk_sub_mk, Prod.smul_mk, Prod.mk_add_mk, smul_eq_mul,
    mul_comm, Nat.cast_add, Nat.cast_one]

/-- A step is longer than a gap, but not twice as long. -/
theorem steps_bounds (hfar : tool.gap * tool.gap < distSq first last) :
    0 < tool.steps first last ∧
      distSq first last ≤ (2 * tool.steps first last * tool.gap) ^ 2 := by
  have hgap := tool.gap_pos
  have hsquare : 0 < tool.gap * tool.gap := mul_pos hgap hgap
  obtain ⟨ratio, hratio⟩ : ∃ ratio, ratio = distSq first last / (tool.gap * tool.gap) := ⟨_, rfl⟩
  have hdist : distSq first last = ratio * (tool.gap * tool.gap) := by
    rw [hratio, div_mul_cancel₀ _ hsquare.ne']
  have hone : 1 < ratio := by
    rw [hratio, lt_div_iff₀ hsquare, one_mul]
    exact hfar
  have hfloor : 1 ≤ ratio.floor := Rat.le_floor_iff.mpr (by exact_mod_cast hone.le)
  obtain ⟨whole, hwhole⟩ := Int.eq_ofNat_of_zero_le (by omega : 0 ≤ ratio.floor)
  have hsteps : tool.steps first last = whole.sqrt := by
    rw [steps, ← hratio, hwhole, Int.toNat_natCast]
  have hpos : 0 < whole.sqrt := Nat.sqrt_pos.mpr (by omega)
  have hless : ratio < (whole + 1 : Nat) := by
    have hlt := Rat.lt_floor_add_one ratio
    rw [hwhole] at hlt
    exact_mod_cast hlt
  have hroot : whole + 1 ≤ (2 * whole.sqrt) ^ 2 :=
    (Nat.lt_succ_sqrt' whole).trans_le (Nat.pow_le_pow_left (by omega) 2)
  rw [hsteps, hdist]
  refine ⟨hpos, ?_⟩
  calc ratio * (tool.gap * tool.gap)
      ≤ ((2 * whole.sqrt) ^ 2 : Nat) * (tool.gap * tool.gap) :=
        mul_le_mul_of_nonneg_right (hless.le.trans (Nat.cast_le.mpr hroot)) hsquare.le
    _ = (2 * whole.sqrt * tool.gap) ^ 2 := by
        push_cast
        ring

/-- The points that are painted on the way to a point, and that point. -/
def marks (tool : BrushTool) (pos : Point) : List Point :=
  (truthy tool.lastPos).elim [] (tool.between pos) ++ [pos]

theorem truthy_some (pos : Point) : truthy (some pos) = if pos.isNull then none else some pos := by
  cases hnull : pos.isNull <;> simp [truthy, Option.filter_some, hnull]

theorem marks_of_some (hlast : tool.lastPos = some first) (hnull : first.isNull = false) :
    tool.marks last = tool.between last first ++ [last] := by
  simp [marks, truthy_some, hlast, hnull]

/-- No point of the stretch is far from all discs. -/
theorem exists_mark (hlast : tool.lastPos = some first) (hnull : first.isNull = false)
    {point : ℚ × ℚ} (hpoint : point ∈ segment ℚ first.toPair last.toPair) :
    ∃ center ∈ first :: tool.marks last, normSq (point - center.toPair) ≤ tool.gap ^ 2 := by
  rw [marks_of_some hlast hnull, between_eq]
  by_cases hfar : tool.gap * tool.gap < distSq first last
  · obtain ⟨hpos, hlength⟩ := steps_bounds hfar
    obtain ⟨i, hi, hnear⟩ := exists_mark_near hpos hlength hpoint
    rcases i with _ | i
    · refine ⟨first, List.mem_cons_self, ?_⟩
      simpa only [Nat.cast_zero, zero_div, along_zero] using hnear
    · refine ⟨tool.mark first last i, ?_, by rwa [toPair_mark]⟩
      rw [if_pos hfar]
      simp only [List.mem_cons, List.mem_append, List.mem_map, List.mem_range]
      exact Or.inr (Or.inl ⟨i, hi, rfl⟩)
  · have hlength : normSq (last.toPair - first.toPair) ≤ (2 * (1 : Nat) * tool.gap) ^ 2 := by
      have hgap := mul_pos tool.gap_pos tool.gap_pos
      have hnear : distSq first last ≤ tool.gap * tool.gap := not_lt.mp hfar
      rw [distSq] at hnear
      push_cast
      linarith [show (2 * 1 * tool.gap) ^ 2 = 4 * (tool.gap * tool.gap) by ring]
    obtain ⟨i, hi, hnear⟩ := exists_mark_near Nat.one_pos hlength hpoint
    obtain rfl | rfl := Nat.le_one_iff_eq_zero_or_eq_one.mp hi
    · refine ⟨first, List.mem_cons_self, ?_⟩
      simpa only [Nat.cast_zero, zero_div, along_zero] using hnear
    · refine ⟨last, by simp, ?_⟩
      simpa only [Nat.cast_one, div_one, along_one] using hnear

theorem marks_mem_segment (hlast : tool.lastPos = some first) {center : Point}
    (hcenter : center ∈ tool.marks last) : center.toPair ∈ segment ℚ first.toPair last.toPair := by
  rcases List.mem_append.mp hcenter with hbetween | hpos
  · cases hnull : first.isNull with
    | true => simp [truthy_some, hlast, hnull] at hbetween
    | false =>
        rw [hlast, truthy_some, hnull, if_neg Bool.false_ne_true, Option.elim_some, between_eq]
          at hbetween
        split at hbetween
        next hfar =>
          obtain ⟨i, hi, rfl⟩ := List.mem_map.mp hbetween
          have hsteps : (0 : ℚ) < tool.steps first last := Nat.cast_pos.mpr (steps_bounds hfar).1
          rw [toPair_mark]
          refine along_mem_segment (by positivity) ((div_le_one hsteps).mpr ?_)
          exact Nat.cast_le.mpr (List.mem_range.mp hi)
        next => cases hbetween
  · rw [List.mem_singleton.mp hpos]
    exact right_mem_segment ℚ _ _

end BrushTool

/-! ## The discs of a stroke -/

namespace BrushTool

/-- The points that are painted while the mouse moves. -/
def strokeMarks (tool : BrushTool) : List Point → List Point
  | [] => []
  | pos :: rest => tool.marks pos ++ strokeMarks { tool with lastPos := some pos } rest

variable {first : Point} {moves : List Point}

theorem within_of_line (tool : BrushTool) (hlast : tool.lastPos = some first)
    (hnull : ∀ pos ∈ (first :: moves).dropLast, pos.isNull = false) {point : ℚ × ℚ}
    (hpoint : point ∈ line first.toPair (moves.map Point.toPair)) :
    ∃ center ∈ first :: tool.strokeMarks moves, normSq (point - center.toPair) ≤ tool.gap ^ 2 := by
  induction moves generalizing tool first with
  | nil =>
      obtain rfl : point = first.toPair := hpoint
      exact ⟨first, List.mem_cons_self, by simp [normSq, sq_nonneg]⟩
  | cons pos rest ih =>
      rw [List.dropLast_cons_cons] at hnull
      obtain ⟨hfirst, hrest⟩ := List.forall_mem_cons.mp hnull
      rcases hpoint with hstretch | hlater
      · obtain ⟨center, hcenter, hnear⟩ := exists_mark hlast hfirst hstretch
        refine ⟨center, ?_, hnear⟩
        rcases List.mem_cons.mp hcenter with rfl | hmark
        · exact List.mem_cons_self
        · exact List.mem_cons_of_mem _ (List.mem_append_left _ hmark)
      · obtain ⟨center, hcenter, hnear⟩ :=
          ih { tool with lastPos := some pos } rfl hrest hlater
        refine ⟨center, List.mem_cons_of_mem _ ?_, hnear⟩
        -- Each stretch ends with a disc, where the next one begins.
        rcases List.mem_cons.mp hcenter with rfl | hmark
        · exact List.mem_append_left _ (List.mem_append_right _ List.mem_cons_self)
        · exact List.mem_append_right _ hmark

theorem mem_line_of_strokeMarks (tool : BrushTool) (hlast : tool.lastPos = some first)
    {center : Point} (hcenter : center ∈ first :: tool.strokeMarks moves) :
    center.toPair ∈ line first.toPair (moves.map Point.toPair) := by
  induction moves generalizing tool first with
  | nil =>
      obtain rfl := List.mem_singleton.mp hcenter
      rfl
  | cons pos rest ih =>
      rcases List.mem_cons.mp hcenter with rfl | hmark
      · exact Or.inl (left_mem_segment ℚ _ _)
      · rcases List.mem_append.mp hmark with hstretch | hlater
        · exact Or.inl (marks_mem_segment hlast hstretch)
        · exact Or.inr (ih { tool with lastPos := some pos } rfl
            (List.mem_cons_of_mem _ hlater))

end BrushTool

/-! ## What is painted -/

/-- An image by rows of pixels. -/
abbrev Pixels := Nat → Nat → Grey

/-- The middle of a pixel. -/
def middle (x y : Nat) : ℚ × ℚ := (x + 1 / 2, y + 1 / 2)

/-- Discs of one colour are painted; within `slack` of the edge of a disc, a pixel may be painted or
not. -/
structure Painted (radius slack : ℚ) (color : Grey) (centers : List Point)
    (before after : Pixels) : Prop where
  inside : ∀ x y, (∃ center ∈ centers, normSq (middle x y - center.toPair) ≤ (radius - slack) ^ 2) →
    after x y = color
  outside : ∀ x y, (∀ center ∈ centers,
    (radius + slack) ^ 2 < normSq (middle x y - center.toPair)) → after x y = before x y
  either : ∀ x y, after x y = color ∨ after x y = before x y

/-- What is relied on of Qt: a disc is filled up to its edge. -/
def Qt.FillsDiscs (qt : Qt Pixels) (slack : ℚ) : Prop :=
  ∀ x y radius color image,
    Painted radius slack color [⟨x, y⟩] image (qt.draw (paintAt x y radius color) image)

section Painted

variable {radius slack : ℚ} {color : Grey} {centers more : List Point}
  {before during after : Pixels}

theorem Painted.nil (image : Pixels) : Painted radius slack color [] image image where
  inside := by simp
  outside _ _ _ := rfl
  either _ _ := Or.inr rfl

theorem Painted.append (hfirst : Painted radius slack color centers before during)
    (hsecond : Painted radius slack color more during after) :
    Painted radius slack color (centers ++ more) before after where
  inside x y := by
    rintro ⟨center, hcenter, hnear⟩
    rcases List.mem_append.mp hcenter with hcenter | hcenter
    · rcases hsecond.either x y with hcolor | hsame
      · exact hcolor
      · exact hsame.trans (hfirst.inside x y ⟨center, hcenter, hnear⟩)
    · exact hsecond.inside x y ⟨center, hcenter, hnear⟩
  outside x y hfar :=
    (hsecond.outside x y fun center hcenter => hfar center (List.mem_append_right _ hcenter)).trans
      (hfirst.outside x y fun center hcenter => hfar center (List.mem_append_left _ hcenter))
  either x y := by
    rcases hsecond.either x y with hcolor | hsame
    · exact Or.inl hcolor
    · rw [hsame]
      exact hfirst.either x y

end Painted

section Runs

variable {qt : Qt Pixels} {slack : ℚ}

theorem painted_dab (hqt : qt.FillsDiscs slack) (model : MaskModel Pixels) (radius : ℚ)
    (color : Grey) (pos : Point) : Painted radius slack color [pos] model.content
      (model.paint qt (paintAt pos.x pos.y radius color)).content := by
  have hdraw : (model.paint qt (paintAt pos.x pos.y radius color)).content =
      qt.draw (paintAt pos.x pos.y radius color) model.content :=
    congrArg Timelines.Timeline.present (model.timeline_paint _)
  exact hdraw ▸ hqt pos.x pos.y radius color model.content

/-- Calls that paint discs, one after the other. -/
theorem painted_dabs (hqt : qt.FillsDiscs slack) (tool : BrushTool) (color : Grey)
    (centers : List Point) (model : MaskModel Pixels) :
    Painted tool.radius slack color centers model.content
      (run (MaskModel.step qt) model (centers.map (tool.dab color))).content := by
  induction centers generalizing model with
  | nil => exact Painted.nil _
  | cons center rest ih =>
      rw [List.map_cons, run_cons]
      exact (painted_dab hqt model tool.radius color center).append (ih _)

theorem content_beginStroke (model : MaskModel Pixels) :
    model.beginStroke.content = model.content :=
  congrArg Timelines.Timeline.present model.timeline_beginStroke

end Runs

/-! ## Strokes -/

namespace Tools

/-- The state and the colour of a tool that is a brush. -/
def brushOf (tools : Tools) : ToolName → Option (BrushTool × Grey)
  | .brush => some (tools.brush, ToolBase.getColor)
  | .eraser => some (tools.eraser, EraserTool.getColor)
  | _ => none

theorem on_brushOf {tools : Tools} {name : ToolName} {tool : BrushTool} {color : Grey}
    (hbrush : tools.brushOf name = some (tool, color)) (mouse : Mouse) (pos : Point) :
    (tools.on mouse pos name).1.brushOf name =
        some (((BrushTool.methods color).on mouse pos tool).1, color) ∧
      (tools.on mouse pos name).2 = ((BrushTool.methods color).on mouse pos tool).2 := by
  cases name with
  | brush | eraser =>
      obtain ⟨rfl, rfl⟩ := Prod.mk.inj (Option.some.inj hbrush)
      exact ⟨rfl, rfl⟩
  | rect | ellipse | polygon => cases hbrush

end Tools

namespace Editor

variable {qt : Qt Pixels} {slack : ℚ} {editor : Editor Pixels} {tool : BrushTool} {color : Grey}

/-- The active tool is a brush in this state. -/
def Uses (editor : Editor Pixels) (tool : BrushTool) (color : Grey) : Prop :=
  editor.tools.brushOf editor.currentTool = some (tool, color)

theorem Uses.onMouse (huses : editor.Uses tool color) (qt : Qt Pixels) (mouse : Mouse)
    (pos : Point) :
    (editor.onMouse qt mouse pos).Uses ((BrushTool.methods color).on mouse pos tool).1 color ∧
      (editor.onMouse qt mouse pos).model =
        run (MaskModel.step qt) editor.model ((BrushTool.methods color).on mouse pos tool).2 := by
  obtain ⟨htool, hcalls⟩ := Tools.on_brushOf huses mouse pos
  refine ⟨htool, ?_⟩
  rw [← hcalls]
  rfl

/-- Moves of a stroke that has begun. -/
theorem painted_moves (hqt : qt.FillsDiscs slack) (moves : List Point)
    (huses : editor.Uses tool color) (hdrawing : tool.drawing = true) :
    Painted tool.radius slack color (tool.strokeMarks moves) editor.model.content
      (run (step qt) editor (moves.map (.mouse .move ·))).model.content := by
  induction moves generalizing editor tool with
  | nil => exact Painted.nil _
  | cons pos rest ih =>
      obtain ⟨hnext, hmodel⟩ := huses.onMouse qt .move pos
      have hmove : (BrushTool.methods color).on .move pos tool =
          ({ tool with lastPos := some pos }, (tool.marks pos).map (tool.dab color)) :=
        if_pos hdrawing
      rw [hmove] at hnext hmodel
      have hrest := ih hnext hdrawing
      rw [hmodel] at hrest
      rw [List.map_cons, run_cons]
      exact (painted_dabs hqt tool color (tool.marks pos) editor.model).append hrest

/-- The button goes down and the mouse moves. -/
def stroke (first : Point) (moves : List Point) : List Event :=
  .mouse .press first :: moves.map (.mouse .move ·)

theorem painted_stroke (hqt : qt.FillsDiscs slack) (huses : editor.Uses tool color)
    (first : Point) (moves : List Point) :
    Painted tool.radius slack color
      (first :: BrushTool.strokeMarks { tool with drawing := true, lastPos := some first } moves)
      editor.model.content (run (step qt) editor (stroke first moves)).model.content := by
  obtain ⟨hnext, hmodel⟩ := huses.onMouse qt .press first
  have hpress : (BrushTool.methods color).on .press first tool =
      ({ tool with drawing := true, lastPos := some first },
        [.beginStroke, tool.dab color first]) := rfl
  rw [hpress] at hnext hmodel
  have hmoves := painted_moves hqt moves hnext rfl
  rw [hmodel] at hmoves
  have hdab := painted_dab hqt editor.model.beginStroke tool.radius color first
  rw [content_beginStroke] at hdab
  exact hdab.append hmoves

/-- A stroke of the brush or the eraser gives its colour to every pixel within two thirds of its
radius of the line that the mouse was led along, and changes no pixel beyond its radius; for the
first of these no stretch of the line may begin at the origin, which counts as no point. -/
theorem stroke_swept (hqt : qt.FillsDiscs slack) (hslack : slack ≤ 1)
    (huses : editor.Uses tool color) (first : Point) (moves : List Point) (x y : Nat) :
    ((∀ pos ∈ (first :: moves).dropLast, pos.isNull = false) →
      Within (2 / 3 * tool.radius - slack) (line first.toPair (moves.map Point.toPair))
        (middle x y) →
      (run (step qt) editor (stroke first moves)).model.content x y = color) ∧
    (¬ Within (tool.radius + slack) (line first.toPair (moves.map Point.toPair)) (middle x y) →
      (run (step qt) editor (stroke first moves)).model.content x y =
        editor.model.content x y) := by
  have hpainted := painted_stroke hqt huses first moves
  have hradius := tool.ten_le_radius
  constructor
  · intro hnull hwithin
    have hgap := tool.gap_eq
    have hmarks : ∀ near ∈ line first.toPair (moves.map Point.toPair),
        Within tool.gap
          {center | ∃ pos ∈ first :: BrushTool.strokeMarks
            { tool with drawing := true, lastPos := some first } moves, pos.toPair = center}
          near := by
      intro near hnear
      obtain ⟨center, hcenter, hdistance⟩ := BrushTool.within_of_line
        { tool with drawing := true, lastPos := some first } rfl hnull hnear
      exact ⟨center.toPair, ⟨center, hcenter, rfl⟩, hdistance⟩
    obtain ⟨mark, ⟨center, hcenter, rfl⟩, hdistance⟩ :=
      hwithin.trans (by linarith) tool.gap_pos.le hmarks
    refine hpainted.inside x y ⟨center, hcenter, ?_⟩
    rwa [hgap, show 2 / 3 * tool.radius - slack + tool.radius / 3 = tool.radius - slack by ring]
      at hdistance
  · intro hfar
    refine hpainted.outside x y fun center hcenter => not_le.mp fun hnear => hfar ?_
    exact ⟨center.toPair, BrushTool.mem_line_of_strokeMarks
      { tool with drawing := true, lastPos := some first } rfl hcenter, hnear⟩

end Editor

theorem raster_fillsDiscs : raster.FillsDiscs 0 := by
  intro cx cy radius color image
  have hcovers : ∀ x y : Nat, (Shape.disc ⟨cx, cy⟩ radius).covers ⟨x + 1 / 2, y + 1 / 2⟩ =
      decide (normSq (middle x y - (cx, cy)) ≤ radius ^ 2) := fun _ _ => rfl
  refine ⟨fun x y hnear => ?_, fun x y hfar => ?_, fun x y => ?_⟩
  · obtain ⟨center, hcenter, hnear⟩ := hnear
    obtain rfl := List.mem_singleton.mp hcenter
    rw [sub_zero] at hnear
    exact if_pos ((hcovers x y).trans (decide_eq_true hnear))
  · have hfar := hfar _ List.mem_cons_self
    rw [add_zero] at hfar
    exact if_neg (by
      rw [show (paintAt cx cy radius color).shape = .disc ⟨cx, cy⟩ radius from rfl, hcovers,
        decide_eq_true_iff]
      exact not_le.mpr hfar)
  · exact ite_eq_or_eq _ _ _

/-- A pixel beside the first stretch of the line, away from where the mouse was read. -/
theorem stroke_swept_between :
    (run (Editor.step raster) (Editor.initial raster)
      (Editor.stroke ⟨10, 10⟩ [⟨100, 10⟩, ⟨100, 55 / 2⟩])).model.content 60 12 = black := by
  have huses : (Editor.initial raster).Uses {} black := rfl
  have hstretch : ((60, 10) : ℚ × ℚ) ∈ segment ℚ ((10, 10) : ℚ × ℚ) (100, 10) :=
    ⟨4 / 9, 5 / 9, by norm_num, by norm_num, by norm_num, by norm_num⟩
  exact (Editor.stroke_swept raster_fillsDiscs zero_le_one huses ⟨10, 10⟩
    [⟨100, 10⟩, ⟨100, 55 / 2⟩] 60 12).1 (by decide)
    ⟨(60, 10), Or.inl hstretch, by
      norm_num [normSq, middle, BrushTool.radius, BrushTool.sizes]⟩

end AcflyRos.MaskEditor
