import AcflyRos.Foundation.Objects
import AcflyRos.Foundation.Timelines
import AcflyRos.Foundation.Transition
import Mathlib.Data.Rat.Defs

/-! # The mask and its undo stack

`MaskModel` of `mask_editor.py`. A `QImage` is an object that is painted in place, and the two
stacks hold references to such objects; `copy` makes a new one. What Qt makes of a fill, a drawing
and a file is left open, and coordinates are exact rationals. The canvas shows the mask as it was
when the model said last that it had changed.
-/

namespace AcflyRos.MaskEditor

open AcflyRos.Objects AcflyRos.Timelines AcflyRos.Transition

universe u

/-- `QPointF`. -/
structure Point where
  x : ℚ
  y : ℚ
  deriving DecidableEq, Repr

/-- `QRectF`. -/
structure Rect where
  x : ℚ
  y : ℚ
  width : ℚ
  height : ℚ
  deriving DecidableEq, Repr

/-- `QRectF(topLeft, bottomRight)`. -/
def Rect.ofCorners (topLeft bottomRight : Point) : Rect :=
  ⟨topLeft.x, topLeft.y, bottomRight.x - topLeft.x, bottomRight.y - topLeft.y⟩

def Rect.normalized (rect : Rect) : Rect where
  x := if rect.width < 0 then rect.x + rect.width else rect.x
  y := if rect.height < 0 then rect.y + rect.height else rect.y
  width := if rect.width < 0 then -rect.width else rect.width
  height := if rect.height < 0 then -rect.height else rect.height

/-- What a `QPainter` fills without an outline. -/
inductive Shape where
  | disc (center : Point) (radius : ℚ)
  | rect (rect : Rect)
  | ellipse (rect : Rect)
  | polygon (points : List Point)
  deriving DecidableEq, Repr

/-- A grey between 0 for black and 255 for white. -/
abbrev Grey := Fin 256

def black : Grey := 0

def white : Grey := 255

/-- A painting operation: the shape, and the colour of the brush. -/
structure Painting where
  shape : Shape
  color : Grey
  deriving DecidableEq, Repr

def paintAt (x y radius : ℚ) (color : Grey) : Painting := ⟨.disc ⟨x, y⟩ radius, color⟩

def fillRect (rect : Rect) (color : Grey) : Painting := ⟨.rect rect, color⟩

def fillEllipse (rect : Rect) (color : Grey) : Painting := ⟨.ellipse rect, color⟩

def fillPolygon (points : List Point) (color : Grey) : Painting := ⟨.polygon points, color⟩

/-- What Qt does to the pixels. -/
structure Qt (Image : Type u) where
  /-- An image of the size of the mask in one grey. -/
  filled : Grey → Image
  draw : Painting → Image → Image
  /-- The image in a file, scaled and converted; `none` if it is null. -/
  load : String → Option Image

/-- The point is inside, for a polygon by the odd-even rule. -/
def Shape.covers (pixel : Point) : Shape → Bool
  | .disc center radius =>
      (pixel.x - center.x) ^ 2 + (pixel.y - center.y) ^ 2 ≤ radius ^ 2
  | .rect box =>
      box.x ≤ pixel.x && pixel.x < box.x + box.width &&
        box.y ≤ pixel.y && pixel.y < box.y + box.height
  | .ellipse box =>
      (2 * (pixel.x - box.x) - box.width) ^ 2 * box.height ^ 2 +
        (2 * (pixel.y - box.y) - box.height) ^ 2 * box.width ^ 2 ≤
          box.width ^ 2 * box.height ^ 2
  | .polygon points =>
      let crosses (first second : Point) : Bool :=
        (decide (first.y ≤ pixel.y) != decide (second.y ≤ pixel.y)) && decide (pixel.x < first.x +
          (pixel.y - first.y) * (second.x - first.x) / (second.y - first.y))
      (List.zipWith crosses points (points.rotate 1)).count true % 2 == 1

/-- Images of pixels that a shape paints if it covers their middle. -/
def raster : Qt (Nat → Nat → Grey) where
  filled color _ _ := color
  draw painting image x y :=
    if painting.shape.covers ⟨x + 1 / 2, y + 1 / 2⟩ then painting.color else image x y
  load _ := none

/-- `MAX_UNDO`. -/
def maxUndo : Nat := 30

structure MaskModel (Image : Type u) where
  /-- All images. -/
  memory : Memory Image
  mask : Nat
  /-- The top comes first. -/
  undoStack : List Nat := []
  redoStack : List Nat := []
  /-- What the canvas shows. -/
  shown : Image
  /-- No image is used in two places. -/
  owned : memory.Owns (mask :: (undoStack ++ redoStack))

namespace MaskModel

variable {Image : Type u} (qt : Qt Image) (model : MaskModel Image)

/-- The image of the mask. -/
def content : Image := model.memory.read model.mask

/-- `mask_changed.emit()`. -/
def emit : MaskModel Image := { model with shown := model.content }

def initial : MaskModel Image where
  memory := ⟨fun _ => qt.filled 255, 1⟩
  mask := 0
  shown := qt.filled 255
  owned := ⟨List.nodup_singleton 0, by simp⟩

def createBlank : MaskModel Image :=
  emit
    { memory := model.memory.write model.mask (qt.filled 255)
      mask := model.mask
      shown := model.shown
      owned := (model.owned.write _ _).sublist (by simp) }

/-- Whether it has succeeded comes with the model. -/
def loadMask (path : String) : Bool × MaskModel Image :=
  match qt.load path with
  | none => (false, model)
  | some img =>
      (true, emit
        { memory := model.memory.alloc img
          mask := model.memory.next
          shown := model.shown
          owned := (model.owned.alloc img).sublist (by simp) })

/-- The copy of the mask may take its place, and an image of the stacks that of the mask. -/
theorem owned_exchange (before : List Nat) {after : List Nat} {top : Nat}
    (hstacks : model.undoStack ++ model.redoStack = before ++ top :: after) :
    (model.memory.alloc model.content).Owns (top :: model.memory.next :: (before ++ after)) := by
  have hcopied := model.owned.alloc model.content
  rw [hstacks] at hcopied
  exact ((hcopied.sublist ((List.sublist_cons_self _ _).cons_cons _)).perm
    (List.perm_middle.cons _)).perm (List.Perm.swap _ _ _)

theorem owned_saved {saved : List Nat}
    (hsaved : saved.Sublist (model.memory.next :: model.undoStack)) :
    (model.memory.alloc model.content).Owns (model.mask :: (saved ++ [])) :=
  ((model.owned.alloc model.content).perm (List.Perm.swap _ _ _)).sublist
    ((hsaved.append (List.nil_sublist _)).cons_cons _)

def beginStroke : MaskModel Image :=
  let saved := model.memory.next :: model.undoStack
  { memory := model.memory.alloc model.content
    mask := model.mask
    undoStack := if maxUndo < saved.length then saved.dropLast else saved
    shown := model.shown
    owned := by
      apply model.owned_saved
      split
      next => exact List.dropLast_sublist saved
      next => exact List.Sublist.refl saved }

def undo : MaskModel Image :=
  match hundo : model.undoStack with
  | [] => model
  | top :: rest =>
      emit
        { memory := model.memory.alloc model.content
          mask := top
          undoStack := rest
          redoStack := model.memory.next :: model.redoStack
          shown := model.shown
          owned := by
            have hstacks : model.undoStack ++ model.redoStack =
                [] ++ top :: (rest ++ model.redoStack) := by rw [hundo]; rfl
            have howned : (model.memory.alloc model.content).Owns
                (top :: model.memory.next :: (rest ++ model.redoStack)) :=
              model.owned_exchange [] hstacks
            exact howned.perm (List.perm_middle.symm.cons _) }

def redo : MaskModel Image :=
  match hredo : model.redoStack with
  | [] => model
  | top :: rest =>
      emit
        { memory := model.memory.alloc model.content
          mask := top
          undoStack := model.memory.next :: model.undoStack
          redoStack := rest
          shown := model.shown
          owned := model.owned_exchange model.undoStack (by rw [hredo]) }

def paint (painting : Painting) : MaskModel Image :=
  emit
    { model with
      memory := model.memory.write model.mask (qt.draw painting model.content)
      owned := model.owned.write _ _ }

/-! ## Runs -/

inductive Op where
  | beginStroke
  | paint (painting : Painting)
  | undo
  | redo
  | createBlank
  | loadMask (path : String)
  deriving DecidableEq, Repr

def step (model : MaskModel Image) : Op → MaskModel Image
  | .beginStroke => model.beginStroke
  | .paint painting => model.paint qt painting
  | .undo => model.undo
  | .redo => model.redo
  | .createBlank => model.createBlank qt
  | .loadMask path => (model.loadMask qt path).2

/-! ## The images behind the references -/

/-- The images, without their places in memory. -/
def timeline : Timeline Image where
  past := model.undoStack.map model.memory.read
  present := model.content
  future := model.redoStack.map model.memory.read

section Timeline

variable {qt model}

/-- A copy of the mask leaves the images where they are. -/
theorem map_read_copy {refs : List Nat}
    (hrefs : refs ⊆ model.mask :: (model.undoStack ++ model.redoStack)) :
    refs.map (model.memory.alloc model.content).read = refs.map model.memory.read :=
  model.owned.map_read_alloc model.content hrefs

theorem timeline_emit : model.emit.timeline = model.timeline := rfl

theorem timeline_beginStroke : model.beginStroke.timeline = model.timeline.record maxUndo := by
  have hsaved : (model.memory.next :: model.undoStack).map
      (model.memory.alloc model.content).read =
        model.content :: model.undoStack.map model.memory.read := by
    rw [List.map_cons, Memory.read_alloc_next,
      model.map_read_copy fun ref hmem => by simp [hmem]]
  have hmask : (model.memory.alloc model.content).read model.mask = model.content :=
    model.owned.read_alloc model.content List.mem_cons_self
  have hpast : (trim maxUndo (model.memory.next :: model.undoStack)).map
      (model.memory.alloc model.content).read =
        trim maxUndo (model.content :: model.undoStack.map model.memory.read) := by
    rw [map_trim, hsaved]
  exact congrArg₂ (Timeline.mk · · []) hpast hmask

theorem timeline_undo : model.undo.timeline = model.timeline.back := by
  unfold undo
  split
  next hundo => rw [Timeline.back_of_nil (by simp [timeline, hundo])]
  next top rest hundo =>
    have hpast : model.timeline.past = model.memory.read top :: rest.map model.memory.read := by
      rw [timeline, hundo, List.map_cons]
    have hmask : (model.memory.alloc model.content).read top = model.memory.read top :=
      model.owned.read_alloc model.content (by simp [hundo])
    have hrest : rest.map (model.memory.alloc model.content).read = rest.map model.memory.read :=
      model.map_read_copy fun ref hmem => by simp [hundo, hmem]
    have hredo : model.redoStack.map (model.memory.alloc model.content).read =
        model.redoStack.map model.memory.read :=
      model.map_read_copy fun ref hmem => by simp [hmem]
    rw [Timeline.back_of_past hpast, timeline_emit]
    simp only [timeline, content, List.map_cons, Memory.read_alloc_next] at hmask hrest hredo ⊢
    rw [hmask, hrest, hredo]

theorem timeline_redo : model.redo.timeline = model.timeline.forward := by
  unfold redo
  split
  next hredo => rw [Timeline.forward_of_nil (by simp [timeline, hredo])]
  next top rest hredo =>
    have hfuture : model.timeline.future = model.memory.read top :: rest.map model.memory.read := by
      rw [timeline, hredo, List.map_cons]
    have hmask : (model.memory.alloc model.content).read top = model.memory.read top :=
      model.owned.read_alloc model.content (by simp [hredo])
    have hrest : rest.map (model.memory.alloc model.content).read = rest.map model.memory.read :=
      model.map_read_copy fun ref hmem => by simp [hredo, hmem]
    have hundo : model.undoStack.map (model.memory.alloc model.content).read =
        model.undoStack.map model.memory.read :=
      model.map_read_copy fun ref hmem => by simp [hmem]
    rw [Timeline.forward_of_future hfuture, timeline_emit]
    simp only [timeline, content, List.map_cons, Memory.read_alloc_next] at hmask hrest hundo ⊢
    rw [hmask, hrest, hundo]

theorem timeline_paint (painting : Painting) :
    (model.paint qt painting).timeline = model.timeline.change (qt.draw painting) := by
  have hundo := model.owned.map_read_write (qt.draw painting model.content)
    (List.subset_append_left model.undoStack model.redoStack)
  have hredo := model.owned.map_read_write (qt.draw painting model.content)
    (List.subset_append_right model.undoStack model.redoStack)
  unfold paint
  rw [timeline_emit]
  simp only [timeline, content, Timeline.change, Memory.read_write_self] at hundo hredo ⊢
  rw [hundo, hredo]

theorem timeline_createBlank :
    (model.createBlank qt).timeline = Timeline.start (qt.filled 255) := by
  unfold createBlank
  rw [timeline_emit]
  simp only [timeline, content, Timeline.start, Memory.read_write_self, List.map_nil]

theorem timeline_loadMask (path : String) : (model.loadMask qt path).2.timeline =
    (qt.load path).elim model.timeline Timeline.start := by
  unfold loadMask
  cases qt.load path with
  | none => rfl
  | some img =>
      dsimp only
      rw [timeline_emit]
      simp only [timeline, content, Timeline.start, Memory.read_alloc_next, List.map_nil,
        Option.elim_some]

/-- What an operation does to the images. -/
def Op.onTimeline (qt : Qt Image) (timeline : Timeline Image) : Op → Timeline Image
  | .beginStroke => timeline.record maxUndo
  | .paint painting => timeline.change (qt.draw painting)
  | .undo => timeline.back
  | .redo => timeline.forward
  | .createBlank => Timeline.start (qt.filled 255)
  | .loadMask path => (qt.load path).elim timeline Timeline.start

/-- The references hide nothing. -/
theorem timeline_step (op : Op) :
    (model.step qt op).timeline = op.onTimeline qt model.timeline := by
  cases op with
  | beginStroke => exact timeline_beginStroke
  | paint painting => exact timeline_paint painting
  | undo => exact timeline_undo
  | redo => exact timeline_redo
  | createBlank => exact timeline_createBlank
  | loadMask path => exact timeline_loadMask path

end Timeline

end MaskModel

end AcflyRos.MaskEditor
