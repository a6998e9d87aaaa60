import AcflyRos.MaskEditor.Model

/-! # Undoing and redoing

What the two stacks of `MaskModel` amount to in every reachable state: a line of versions of the
mask with the present one among them, of which no more than `MAX_UNDO` others are kept. Every
result is one about lines of versions, for the images behind the references.
-/

namespace AcflyRos.MaskEditor

open AcflyRos.Timelines AcflyRos.Transition

universe u

namespace MaskModel

variable {Image : Type u} (qt : Qt Image) (model : MaskModel Image)

/-- `begin_stroke` and any number of painting operations. -/
def stroke (paintings : List Painting) : MaskModel Image :=
  run (step qt) model (.beginStroke :: paintings.map .paint)

/-- The painting operations of a stroke, one after the other. -/
def drawAll (paintings : List Painting) (image : Image) : Image :=
  paintings.foldl (fun image painting => qt.draw painting image) image

/-- Undo and redo as one expects them. -/
structure UndoesAndRedoes : Prop where
  bounded : model.undoStack.length + model.redoStack.length ≤ maxUndo
  redo_undo : model.undoStack ≠ [] → model.undo.redo.timeline = model.timeline
  undo_redo : model.redoStack ≠ [] → model.redo.undo.timeline = model.timeline
  /-- Neither changes what there is to go back and forward to. -/
  line : model.undo.timeline.line = model.timeline.line ∧
    model.redo.timeline.line = model.timeline.line
  strokes : ∀ strokes : List (List Painting), strokes.length ≤ maxUndo →
    (undo^[strokes.length] (run (stroke qt) model strokes)).content = model.content ∧
      (redo^[strokes.length] (undo^[strokes.length] (run (stroke qt) model strokes))).content =
        (run (stroke qt) model strokes).content
  newStroke : ∀ paintings, (model.stroke qt paintings).redo = model.stroke qt paintings

variable {qt model}

/-! ## Strokes -/

theorem timeline_paintings (paintings : List Painting) :
    (run (step qt) model (paintings.map .paint)).timeline =
      model.timeline.change (drawAll qt paintings) := by
  induction paintings generalizing model with
  | nil => rfl
  | cons painting rest ih =>
      rw [List.map_cons, run_cons, ih, step, timeline_paint]
      rfl

theorem timeline_stroke (paintings : List Painting) : (model.stroke qt paintings).timeline =
    (model.timeline.record maxUndo).change (drawAll qt paintings) := by
  rw [stroke, run_cons, timeline_paintings, step, timeline_beginStroke]

theorem timeline_strokes (strokes : List (List Painting)) :
    (run (stroke qt) model strokes).timeline =
      model.timeline.edits maxUndo (drawAll qt) strokes := by
  induction strokes generalizing model with
  | nil => rfl
  | cons paintings rest ih =>
      rw [run_cons, ih, timeline_stroke]
      rfl

theorem timeline_iterate_undo (model : MaskModel Image) (count : Nat) :
    (undo^[count] model).timeline = Timeline.back^[count] model.timeline := by
  have hundo : Function.Semiconj (timeline : MaskModel Image → Timeline Image) undo Timeline.back :=
    fun _ => timeline_undo
  exact hundo.iterate_right count model

theorem timeline_iterate_redo (model : MaskModel Image) (count : Nat) :
    (redo^[count] model).timeline = Timeline.forward^[count] model.timeline := by
  have hredo :
      Function.Semiconj (timeline : MaskModel Image → Timeline Image) redo Timeline.forward :=
    fun _ => timeline_redo
  exact hredo.iterate_right count model

theorem redo_of_nil (hnone : model.redoStack = []) : model.redo = model := by
  unfold redo
  split
  next => rfl
  next hredo =>
    rw [hnone] at hredo
    cases hredo

theorem redoStack_stroke (paintings : List Painting) :
    (model.stroke qt paintings).redoStack = [] := by
  have hpaintings : ∀ model : MaskModel Image, model.redoStack = [] →
      (run (step qt) model (paintings.map .paint)).redoStack = [] := by
    induction paintings with
    | nil => exact fun _ hnone => hnone
    | cons painting rest ih => exact fun model hnone => ih (model.paint qt painting) hnone
  exact hpaintings model.beginStroke rfl

/-! ## Every reachable state -/

theorem Op.bounded {timeline : Timeline Image} (h : timeline.Bounded maxUndo) (op : Op) :
    (op.onTimeline qt timeline).Bounded maxUndo := by
  cases op with
  | beginStroke => exact h.record
  | paint painting => exact h
  | undo => exact h.back
  | redo => exact h.forward
  | createBlank => exact .start _
  | loadMask path =>
      simp only [onTimeline]
      cases qt.load path with
      | none => exact h
      | some img => exact .start img

theorem UndoesAndRedoes.of_bounded (h : model.timeline.Bounded maxUndo) :
    UndoesAndRedoes qt model where
  bounded := by simpa [Timeline.Bounded, timeline] using h
  redo_undo hundo := by
    rw [timeline_redo, timeline_undo]
    exact Timeline.forward_back (by simpa [timeline] using hundo)
  undo_redo hredo := by
    rw [timeline_undo, timeline_redo]
    exact Timeline.back_forward (by simpa [timeline] using hredo)
  line := by
    rw [timeline_undo, timeline_redo]
    exact ⟨Timeline.line_back, Timeline.line_forward⟩
  strokes strokes hstrokes := by
    obtain ⟨hpresent, hline⟩ := Timeline.iterate_back_edits hstrokes
    rw [← timeline_strokes] at hpresent hline
    refine ⟨?_, ?_⟩
    · have hundone := congrArg Timeline.present
        (timeline_iterate_undo (run (stroke qt) model strokes) strokes.length)
      exact hundone.trans hpresent
    · have hredone := timeline_iterate_redo (undo^[strokes.length] (run (stroke qt) model strokes))
        strokes.length
      rw [timeline_iterate_undo, hline] at hredone
      exact congrArg Timeline.present hredone
  newStroke paintings := redo_of_nil (redoStack_stroke paintings)

/-- In every reachable state undo and redo are what one expects. -/
theorem run_undoesAndRedoes (qt : Qt Image) (ops : List Op) :
    UndoesAndRedoes qt (run (step qt) (initial qt) ops) := by
  apply UndoesAndRedoes.of_bounded
  refine run_invariant (step qt) (fun model => model.timeline.Bounded maxUndo)
    (fun model op h => ?_) ops (.start (qt.filled 255))
  rw [timeline_step]
  exact op.bounded h

end MaskModel

end AcflyRos.MaskEditor
