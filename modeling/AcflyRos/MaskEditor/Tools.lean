import AcflyRos.MaskEditor.Model
import Mathlib.Algebra.Order.Ring.Unbundled.Rat
import Mathlib.Data.Nat.Sqrt

/-! # The drawing tools

The five tools of `mask_editor.py` and the editor that passes on to them what the mouse does. A tool
never looks at the mask: a method is what becomes of the tool and the calls it makes of `MaskModel`,
in their order. Of the scene only the preview that a tool keeps is modelled. The mouse events are
those with the left button while the mask is edited, in coordinates of the scene.
-/

namespace AcflyRos.MaskEditor

open AcflyRos.Transition

universe u

inductive Mouse where
  | press
  | move
  | release
  | doubleClick
  deriving DecidableEq, Repr

/-- `QPointF.isNull`. -/
def Point.isNull (pos : Point) : Bool := pos.x == 0 && pos.y == 0

/-- What `if pos:` lets through: neither `None` nor a null point. -/
def truthy (pos : Option Point) : Option Point := pos.filter fun pos => !pos.isNull

/-- The methods of a tool, which do nothing where a class has none of its own. -/
structure ToolBase (Tool : Type) where
  onPress : Point → Tool → Tool × List MaskModel.Op := fun _ tool => (tool, [])
  onMove : Point → Tool → Tool × List MaskModel.Op := fun _ tool => (tool, [])
  onRelease : Point → Tool → Tool × List MaskModel.Op := fun _ tool => (tool, [])
  onDoubleClick : Point → Tool → Tool × List MaskModel.Op := fun _ tool => (tool, [])
  cancel : Tool → Tool := fun tool => tool

namespace ToolBase

def on {Tool : Type} (methods : ToolBase Tool) : Mouse → Point → Tool → Tool × List MaskModel.Op
  | .press => methods.onPress
  | .move => methods.onMove
  | .release => methods.onRelease
  | .doubleClick => methods.onDoubleClick

def getColor : Grey := black

end ToolBase

/-! ## Brush and eraser -/

inductive SizeKey where
  | S
  | M
  | L
  deriving DecidableEq, Repr

structure BrushTool where
  sizeKey : SizeKey := .M
  drawing : Bool := false
  lastPos : Option Point := none
  deriving DecidableEq, Repr

namespace BrushTool

/-- `SIZES`. -/
def sizes : SizeKey → ℚ
  | .S => 10
  | .M => 30
  | .L => 60

variable (color : Grey) (pos : Point) (tool : BrushTool)

def radius : ℚ := sizes tool.sizeKey

def dab (pos : Point) : MaskModel.Op := .paint (paintAt pos.x pos.y tool.radius color)

/-- The points painted between the last one and this one. Of the distance only the square is
rational; `int(dist / step)` is the integer root of the quotient of the squares. -/
def between (last : Point) : List Point :=
  let dx := pos.x - last.x
  let dy := pos.y - last.y
  let step := max (tool.radius / 3) 2
  if step * step < dx * dx + dy * dy then
    let steps := ((dx * dx + dy * dy) / (step * step)).floor.toNat.sqrt
    (List.range steps).map fun i =>
      let t : ℚ := (i + 1) / steps
      ⟨last.x + dx * t, last.y + dy * t⟩
  else []

def onPress : BrushTool × List MaskModel.Op :=
  ({ tool with drawing := true, lastPos := some pos }, [.beginStroke, tool.dab color pos])

def onMove : BrushTool × List MaskModel.Op :=
  if tool.drawing then
    ({ tool with lastPos := some pos },
      ((truthy tool.lastPos).elim [] (tool.between pos) ++ [pos]).map (tool.dab color))
  else (tool, [])

def onRelease (_ : Point) : BrushTool × List MaskModel.Op :=
  ({ tool with drawing := false, lastPos := none }, [])

def methods : ToolBase BrushTool where
  onPress := onPress color
  onMove := onMove color
  onRelease pos tool := tool.onRelease pos

end BrushTool

/-- An eraser is a brush that paints white. -/
def EraserTool.getColor : Grey := white

/-! ## Rectangle and ellipse -/

/-- The state of a `RectTool` and of an `EllipseTool`. -/
structure ShapeTool where
  start : Option Point := none
  preview : Option Rect := none
  deriving DecidableEq, Repr

namespace ShapeTool

variable (fill : Rect → Grey → Painting) (pos : Point) (tool : ShapeTool)

def onPress : ShapeTool × List MaskModel.Op :=
  ({ start := some pos, preview := some (Rect.ofCorners pos pos) }, [.beginStroke])

def onMove : ShapeTool × List MaskModel.Op :=
  match truthy tool.start, tool.preview with
  | some start, some _ => ({ tool with preview := some (Rect.ofCorners start pos).normalized }, [])
  | _, _ => (tool, [])

def onRelease : ShapeTool × List MaskModel.Op :=
  ({ start := none, preview := none },
    (truthy tool.start).toList.map fun start =>
      .paint (fill (Rect.ofCorners start pos).normalized ToolBase.getColor))

/-- The two classes differ in the call that fills the shape. -/
def methods : ToolBase ShapeTool where
  onPress pos _ := onPress pos
  onMove := onMove
  onRelease := onRelease fill

end ShapeTool

def RectTool.methods : ToolBase ShapeTool := ShapeTool.methods fillRect

def EllipseTool.methods : ToolBase ShapeTool := ShapeTool.methods fillEllipse

/-! ## Polygon -/

inductive PreviewItem where
  | marker (rect : Rect)
  | line (first second : Point)
  deriving DecidableEq, Repr

structure PolygonTool where
  points : List Point := []
  previewItems : List PreviewItem := []
  strokeBegun : Bool := false
  deriving DecidableEq, Repr

namespace PolygonTool

variable (pos : Point) (tool : PolygonTool)

def onPress : PolygonTool × List MaskModel.Op :=
  ({ points := tool.points ++ [pos]
     previewItems := tool.previewItems ++ .marker ⟨pos.x - 4, pos.y - 4, 8, 8⟩ ::
       (tool.points.getLast?.map (PreviewItem.line · pos)).toList
     strokeBegun := true },
    if tool.strokeBegun then [] else [.beginStroke])

/-- `_clear_preview`. -/
def clearPreview : PolygonTool where
  points := []
  previewItems := []
  strokeBegun := false

def onDoubleClick (_ : Point) : PolygonTool × List MaskModel.Op :=
  (clearPreview,
    if 3 ≤ tool.points.length then [.paint (fillPolygon tool.points ToolBase.getColor)] else [])

def methods : ToolBase PolygonTool where
  onPress := onPress
  onDoubleClick pos tool := tool.onDoubleClick pos
  cancel _ := clearPreview

end PolygonTool

/-! ## The editor -/

inductive ToolName where
  | brush
  | eraser
  | rect
  | ellipse
  | polygon
  deriving DecidableEq, Repr

/-- `_tools`. -/
structure Tools where
  brush : BrushTool := {}
  eraser : BrushTool := {}
  rect : ShapeTool := {}
  ellipse : ShapeTool := {}
  polygon : PolygonTool := {}
  deriving DecidableEq, Repr

namespace Tools

variable (tools : Tools)

def on (mouse : Mouse) (pos : Point) : ToolName → Tools × List MaskModel.Op
  | .brush => ((BrushTool.methods ToolBase.getColor).on mouse pos tools.brush).map
      ({ tools with brush := · }) id
  | .eraser => ((BrushTool.methods EraserTool.getColor).on mouse pos tools.eraser).map
      ({ tools with eraser := · }) id
  | .rect => (RectTool.methods.on mouse pos tools.rect).map ({ tools with rect := · }) id
  | .ellipse => (EllipseTool.methods.on mouse pos tools.ellipse).map
      ({ tools with ellipse := · }) id
  | .polygon => (PolygonTool.methods.on mouse pos tools.polygon).map
      ({ tools with polygon := · }) id

def cancel : ToolName → Tools
  | .brush => { tools with brush := (BrushTool.methods ToolBase.getColor).cancel tools.brush }
  | .eraser => { tools with eraser := (BrushTool.methods EraserTool.getColor).cancel tools.eraser }
  | .rect => { tools with rect := RectTool.methods.cancel tools.rect }
  | .ellipse => { tools with ellipse := EllipseTool.methods.cancel tools.ellipse }
  | .polygon => { tools with polygon := PolygonTool.methods.cancel tools.polygon }

/-- The size of the brush that is about to be used. -/
def sized (key : SizeKey) : ToolName → Tools
  | .brush => { tools with brush := { tools.brush with sizeKey := key } }
  | .eraser => { tools with eraser := { tools.eraser with sizeKey := key } }
  | _ => tools

end Tools

/-- The state of the window once it is open. -/
structure Editor (Image : Type u) where
  model : MaskModel Image
  tools : Tools := {}
  /-- `_current_tool_name`, and the tool that is active on the canvas. -/
  currentTool : ToolName := .brush
  brushSize : SizeKey := .M

inductive Event where
  | mouse (mouse : Mouse) (pos : Point)
  | switchTool (name : ToolName)
  | setBrushSize (key : SizeKey)
  | undo
  | redo
  deriving DecidableEq, Repr

namespace Editor

variable {Image : Type u} (qt : Qt Image)

def initial : Editor Image where
  model := MaskModel.initial qt

variable (editor : Editor Image)

/-- The mouse event goes to the active tool. -/
def onMouse (mouse : Mouse) (pos : Point) : Editor Image :=
  let (tools, calls) := editor.tools.on mouse pos editor.currentTool
  { editor with tools, model := run (MaskModel.step qt) editor.model calls }

/-- `_switch_tool`, and `set_tool`, which cancels the tool that was active. -/
def switchTool (name : ToolName) : Editor Image :=
  { editor with
    tools := (editor.tools.sized editor.brushSize name).cancel editor.currentTool
    currentTool := name }

/-- `_set_brush_size`. -/
def setBrushSize (key : SizeKey) : Editor Image :=
  { editor with
    brushSize := key
    tools := (editor.tools.sized key .brush).sized key .eraser }

def step (editor : Editor Image) : Event → Editor Image
  | .mouse mouse pos => editor.onMouse qt mouse pos
  | .switchTool name => editor.switchTool name
  | .setBrushSize key => editor.setBrushSize key
  | .undo => { editor with model := editor.model.undo }
  | .redo => { editor with model := editor.model.redo }

end Editor

/-! ## What the tools ask of the model -/

/-- A snapshot at most, and after it what is painted. -/
def Strokes (calls : List MaskModel.Op) (saves paints : Bool) : Prop :=
  ∃ paintings : List Painting, (paints = true ↔ paintings ≠ []) ∧
    calls = (if saves then [.beginStroke] else []) ++ paintings.map .paint

theorem Strokes.paints_iff {calls : List MaskModel.Op} {saves paints : Bool}
    (h : Strokes calls saves paints) : paints = true ↔ ∃ painting, .paint painting ∈ calls := by
  obtain ⟨paintings, hpaints, rfl⟩ := h
  rw [hpaints]
  cases saves <;> simp [List.eq_nil_iff_forall_not_mem]

/-- Whether the tool paints on the event. -/
def BrushTool.paints (tool : BrushTool) : Mouse → Bool
  | .press => true
  | .move => tool.drawing
  | _ => false

theorem BrushTool.strokes (color : Grey) (mouse : Mouse) (pos : Point) (tool : BrushTool) :
    Strokes ((methods color).on mouse pos tool).2 (mouse == .press) (tool.paints mouse) := by
  cases mouse with
  | press => exact ⟨[paintAt pos.x pos.y tool.radius color], by simp [paints], rfl⟩
  | move =>
      simp only [ToolBase.on, methods, onMove]
      split
      next hdrawing =>
        refine ⟨((truthy tool.lastPos).elim [] (tool.between pos) ++ [pos]).map
          fun pos => paintAt pos.x pos.y tool.radius color, ?_, ?_⟩
        · simp [paints, hdrawing]
        · rw [List.map_map]
          rfl
      next hdrawing => exact ⟨[], by simp [paints, hdrawing], rfl⟩
  | release => exact ⟨[], by simp [paints], rfl⟩
  | doubleClick => exact ⟨[], by simp [paints], rfl⟩

def ShapeTool.paints (tool : ShapeTool) : Mouse → Bool
  | .release => (truthy tool.start).isSome
  | _ => false

theorem ShapeTool.strokes (fill : Rect → Grey → Painting) (mouse : Mouse) (pos : Point)
    (tool : ShapeTool) :
    Strokes ((methods fill).on mouse pos tool).2 (mouse == .press) (tool.paints mouse) := by
  cases mouse with
  | press => exact ⟨[], by simp [paints], rfl⟩
  | move =>
      refine ⟨[], by simp [paints], ?_⟩
      simp only [ToolBase.on, methods, onMove]
      split <;> rfl
  | release =>
      refine ⟨(truthy tool.start).toList.map fun start =>
        fill (Rect.ofCorners start pos).normalized ToolBase.getColor, ?_, ?_⟩
      · cases hstart : truthy tool.start <;> simp [paints, hstart]
      · rw [List.map_map]
        rfl
  | doubleClick => exact ⟨[], by simp [paints], rfl⟩

namespace PolygonTool

variable (tool : PolygonTool)

def saves : Mouse → Bool
  | .press => !tool.strokeBegun
  | _ => false

def paints : Mouse → Bool
  | .doubleClick => decide (3 ≤ tool.points.length)
  | _ => false

variable {tool}

theorem strokes (mouse : Mouse) (pos : Point) :
    Strokes (methods.on mouse pos tool).2 (tool.saves mouse) (tool.paints mouse) := by
  cases mouse with
  | press =>
      refine ⟨[], by simp [paints], ?_⟩
      cases hbegun : tool.strokeBegun <;> simp [ToolBase.on, methods, onPress, saves, hbegun]
  | move => exact ⟨[], by simp [paints], rfl⟩
  | release => exact ⟨[], by simp [paints], rfl⟩
  | doubleClick =>
      by_cases hclosed : 3 ≤ tool.points.length
      · refine ⟨[fillPolygon tool.points ToolBase.getColor], by simp [paints, hclosed], ?_⟩
        simp [ToolBase.on, methods, onDoubleClick, saves, hclosed]
      · refine ⟨[], by simp [paints, hclosed], ?_⟩
        simp [ToolBase.on, methods, onDoubleClick, saves, hclosed]

end PolygonTool

namespace Tools

variable (tools : Tools) (mouse : Mouse)

/-- Whether the mask is saved on the event. -/
def saves : ToolName → Bool
  | .polygon => tools.polygon.saves mouse
  | _ => mouse == .press

def paints : ToolName → Bool
  | .brush => tools.brush.paints mouse
  | .eraser => tools.eraser.paints mouse
  | .rect => tools.rect.paints mouse
  | .ellipse => tools.ellipse.paints mouse
  | .polygon => tools.polygon.paints mouse

theorem strokes (pos : Point) (name : ToolName) :
    Strokes (tools.on mouse pos name).2 (tools.saves mouse name) (tools.paints mouse name) := by
  cases name with
  | brush => exact BrushTool.strokes ToolBase.getColor mouse pos tools.brush
  | eraser => exact BrushTool.strokes EraserTool.getColor mouse pos tools.eraser
  | rect => exact ShapeTool.strokes fillRect mouse pos tools.rect
  | ellipse => exact ShapeTool.strokes fillEllipse mouse pos tools.ellipse
  | polygon => exact PolygonTool.strokes mouse pos

variable {tools mouse}

theorem strokeBegun_on (pos : Point) (name : ToolName) :
    (tools.on mouse pos name).1.polygon.strokeBegun =
      if name = .polygon ∧ mouse = .press then true
      else if name = .polygon ∧ mouse = .doubleClick then false
      else tools.polygon.strokeBegun := by
  cases name <;> cases mouse <;> rfl

theorem strokeBegun_cancel (name : ToolName) : (tools.cancel name).polygon.strokeBegun =
    if name = .polygon then false else tools.polygon.strokeBegun := by
  cases name <;> rfl

theorem polygon_sized (key : SizeKey) (name : ToolName) :
    (tools.sized key name).polygon = tools.polygon := by
  cases name <;> rfl

end Tools

end AcflyRos.MaskEditor
