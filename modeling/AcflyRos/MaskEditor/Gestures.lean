import AcflyRos.MaskEditor.Tools
import AcflyRos.MaskEditor.UndoHistory

/-! # Gestures as steps of the undo history

A gesture lasts from a press to the release, and with the polygon tool from the first press to the
double-click; another tool, and a new press with a tool that is dragged, end it too. What one undo
makes of it is settled along runs of the editor that keep track of the gesture under way.
-/

namespace AcflyRos.MaskEditor

open AcflyRos.Timelines AcflyRos.Transition

universe u

/-! ## The gesture under way -/

structure Gesture (Image : Type u) where
  /-- The mask and the two stacks when it began. -/
  before : Timeline Image
  painted : Bool

/-- One undo leads from here to the mask as it was before the gesture, saved on the stack. -/
structure Gesture.Undoable {Image : Type u} (gesture : Gesture Image) (timeline : Timeline Image) :
    Prop where
  saved : timeline.past.head? = some gesture.before.present
  restored : timeline.back.present = gesture.before.present

/-- The event that completes a gesture. -/
def ToolName.completes : ToolName → Mouse
  | .polygon => .doubleClick
  | _ => .release

/-- The editor and the gesture under way. -/
structure Session (Image : Type u) where
  editor : Editor Image
  gesture : Option (Gesture Image)

namespace Session

variable {Image : Type u} (qt : Qt Image)

def initial : Session Image := ⟨Editor.initial qt, none⟩

variable (session : Session Image)

def timeline : Timeline Image := session.editor.model.timeline

def paints : Event → Bool
  | .mouse mouse _ => session.editor.tools.paints mouse session.editor.currentTool
  | _ => false

/-- With the polygon tool a press goes on with the gesture under way. -/
def begins : Event → Bool
  | .mouse mouse _ =>
      mouse == .press && (session.editor.currentTool != .polygon || session.gesture.isNone)
  | _ => false

def ends : Event → Bool
  | .mouse mouse _ => mouse == session.editor.currentTool.completes
  | .switchTool _ => true
  | _ => false

/-- The gesture to which the event belongs. -/
def during (event : Event) : Option (Gesture Image) :=
  if session.begins event then some ⟨session.timeline, session.paints event⟩
  else session.gesture.map fun gesture =>
    { gesture with painted := gesture.painted || session.paints event }

def step (session : Session Image) (event : Event) : Session Image where
  editor := session.editor.step qt event
  gesture := if session.ends event then none else session.during event

/-- The gesture that the event ends. -/
def ended (event : Event) : Option (Gesture Image) :=
  if session.begins event then session.gesture
  else if session.ends event then session.during event
  else none

/-- The mask and the two stacks when the gesture ends. -/
def left (event : Event) : Timeline Image :=
  if session.begins event then session.timeline else (session.step qt event).timeline

/-- Every gesture is one undoable step, and one without a painting leaves no trace. -/
structure Undoes (event : Event) : Prop where
  painting : ∀ mouse pos painting, event = .mouse mouse pos →
    .paint painting ∈ (session.editor.tools.on mouse pos session.editor.currentTool).2 →
      ∃ gesture ∈ session.during event, gesture.Undoable (session.step qt event).timeline
  /-- A tool does not change the mask in another way. -/
  unpainted : ∀ mouse pos, event = .mouse mouse pos →
    (∀ painting, .paint painting ∉
      (session.editor.tools.on mouse pos session.editor.currentTool).2) →
        (session.step qt event).timeline.present = session.timeline.present
  /-- A gesture that has painted is undone in one step, from where redo leads to. -/
  ended : ∀ gesture ∈ session.ended event,
    if gesture.painted then gesture.Undoable (session.left qt event).latest
    else session.left qt event = gesture.before

/-- A gesture does not end before it has painted, and a tool paints only during a gesture, when
nothing that has been undone meanwhile is left to redo. -/
def Careful (event : Event) : Prop :=
  (session.paints event = true → session.begins event = true ∨
    session.gesture.isSome = true ∧ session.editor.model.redoStack = []) ∧
  ∀ gesture ∈ session.ended event, gesture.painted = true

instance (event : Event) : Decidable (session.Careful event) :=
  inferInstanceAs (Decidable (_ ∧ _))

/-! ## What an event does -/

/-- The invariant of every run. -/
structure Sound : Prop where
  /-- The polygon tool has begun a stroke just when its gesture is under way. -/
  strokeBegun : session.editor.tools.polygon.strokeBegun =
    (session.editor.currentTool == .polygon && session.gesture.isSome)
  /-- As long as nothing has been painted there is the snapshot, and nothing else has changed. -/
  bare : ∀ gesture ∈ session.gesture, gesture.painted = false →
    session.timeline.line = (gesture.before.record maxUndo).line

/-- The invariant of careful runs: wherever one has gone back to, the latest version follows on the
one before the gesture. -/
def Saved : Prop :=
  ∀ gesture ∈ session.gesture, session.timeline.lastButOne = some gesture.before.present

variable {qt session} {event : Event} {gesture : Gesture Image}

theorem during_of_begins (hbegins : session.begins event = true) :
    session.during event = some ⟨session.timeline, session.paints event⟩ :=
  if_pos hbegins

theorem mem_during (hbegins : session.begins event = false) :
    gesture ∈ session.during event ↔ ∃ earlier ∈ session.gesture,
      { earlier with painted := earlier.painted || session.paints event } = gesture := by
  rw [during, if_neg (by simp [hbegins])]
  simp

theorem isSome_during (event : Event) :
    (session.during event).isSome = (session.begins event || session.gesture.isSome) := by
  unfold during
  cases session.begins event <;> simp

theorem saves_eq (h : session.Sound) (mouse : Mouse) (pos : Point) :
    session.editor.tools.saves mouse session.editor.currentTool =
      session.begins (.mouse mouse pos) := by
  have hbegun := h.strokeBegun
  cases hname : session.editor.currentTool <;> cases mouse <;>
    simp_all [Tools.saves, PolygonTool.saves, begins]

/-- The timeline takes a snapshot when a gesture begins, and changes when a tool paints. -/
theorem timeline_step (qt : Qt Image) (h : session.Sound) (event : Event) :
    (∃ edit, (session.paints event = false → edit = id) ∧ (session.step qt event).timeline =
      (if session.begins event then session.timeline.record maxUndo else session.timeline).change
        edit) ∨
    (event = .undo ∧ (session.step qt event).timeline = session.timeline.back) ∨
    (event = .redo ∧ (session.step qt event).timeline = session.timeline.forward) := by
  cases event with
  | mouse mouse pos =>
      obtain ⟨paintings, hpaints, hcalls⟩ :=
        session.editor.tools.strokes mouse pos session.editor.currentTool
      refine .inl ⟨MaskModel.drawAll qt paintings, fun hnone => ?_, ?_⟩
      · have hnil : paintings = [] := by
          by_contra hne
          exact Bool.false_ne_true (hnone.symm.trans (hpaints.mpr hne))
        subst hnil
        rfl
      · simp only [step, Editor.step, Editor.onMouse, timeline, hcalls, saves_eq h mouse pos]
        cases session.begins (.mouse mouse pos) with
        | true => exact MaskModel.timeline_stroke paintings
        | false => exact MaskModel.timeline_paintings paintings
  | switchTool name => exact .inl ⟨id, fun _ => rfl, rfl⟩
  | setBrushSize key => exact .inl ⟨id, fun _ => rfl, rfl⟩
  | undo => exact .inr (.inl ⟨rfl, MaskModel.timeline_undo⟩)
  | redo => exact .inr (.inr ⟨rfl, MaskModel.timeline_redo⟩)

theorem timeline_begins (qt : Qt Image) (h : session.Sound)
    (hbegins : session.begins event = true) :
    ∃ edit, (session.paints event = false → edit = id) ∧
      (session.step qt event).timeline = (session.timeline.record maxUndo).change edit := by
  obtain ⟨edit, hid, htimeline⟩ | ⟨rfl, -⟩ | ⟨rfl, -⟩ := timeline_step qt h event
  · rw [if_pos hbegins] at htimeline
    exact ⟨edit, hid, htimeline⟩
  · cases hbegins
  · cases hbegins

/-- Until something is painted there is the snapshot, and nothing else has changed. -/
theorem bare_during (h : session.Sound) (hmem : gesture ∈ session.during event)
    (hpainted : gesture.painted = false) :
    (session.step qt event).timeline.line = (gesture.before.record maxUndo).line := by
  cases hbegins : session.begins event with
  | true =>
      rw [during_of_begins hbegins] at hmem
      cases hmem
      obtain ⟨edit, hid, htimeline⟩ := timeline_begins qt h hbegins
      rw [htimeline, hid hpainted]
      rfl
  | false =>
      obtain ⟨earlier, hearlier, rfl⟩ := (mem_during hbegins).mp hmem
      obtain ⟨hbare, hpaints⟩ := Bool.or_eq_false_iff.mp hpainted
      rw [← h.bare earlier hearlier hbare]
      obtain ⟨edit, hid, htimeline⟩ | ⟨-, htimeline⟩ | ⟨-, htimeline⟩ :=
        timeline_step qt h event
      · rw [htimeline, hid hpaints, hbegins]
        rfl
      · rw [htimeline, Timeline.line_back]
      · rw [htimeline, Timeline.line_forward]

theorem strokeBegun_step (h : session.Sound) :
    (session.step qt event).editor.tools.polygon.strokeBegun =
      ((session.step qt event).editor.currentTool == .polygon &&
        (session.step qt event).gesture.isSome) := by
  have hbegun := h.strokeBegun
  cases event with
  | mouse mouse pos =>
      simp only [step, Editor.step, Editor.onMouse, Tools.strokeBegun_on, apply_ite Option.isSome,
        isSome_during]
      by_cases hname : session.editor.currentTool = .polygon
      · simp only [hname, beq_self_eq_true, Bool.true_and] at hbegun ⊢
        rw [hbegun]
        cases hopen : session.gesture <;> cases mouse <;>
          simp [ends, begins, ToolName.completes, hname, hopen]
      · rw [beq_false_of_ne hname] at hbegun ⊢
        simpa [hname] using hbegun
  | switchTool name =>
      simp only [step, Editor.step, Editor.switchTool, Tools.strokeBegun_cancel,
        Tools.polygon_sized, ends, if_true, Option.isSome_none, Bool.and_false]
      split
      next => rfl
      next hother =>
        rw [beq_false_of_ne hother] at hbegun
        exact hbegun
  | setBrushSize key =>
      simpa [step, Editor.step, Editor.setBrushSize, Tools.polygon_sized, ends, during, begins]
        using hbegun
  | undo => simpa [step, Editor.step, ends, during, begins] using hbegun
  | redo => simpa [step, Editor.step, ends, during, begins] using hbegun

theorem mem_gesture_step (hmem : gesture ∈ (session.step qt event).gesture) :
    gesture ∈ session.during event := by
  simp only [step] at hmem
  split at hmem
  next => cases hmem
  next => exact hmem

theorem Sound.step (h : session.Sound) (event : Event) : (session.step qt event).Sound where
  strokeBegun := strokeBegun_step h
  bare _ hmem hpainted := bare_during h (mem_gesture_step hmem) hpainted

theorem Sound.initial (qt : Qt Image) : (initial qt).Sound where
  strokeBegun := rfl
  bare _ hmem _ := by cases hmem

/-! ## Careful runs -/

theorem future_of_redoStack (hredo : session.editor.model.redoStack = []) :
    session.timeline.future = [] := by
  simp [timeline, MaskModel.timeline, hredo]

theorem lastButOne_during (h : session.Sound) (hsaved : session.Saved)
    (hcareful : session.Careful event) (hmem : gesture ∈ session.during event) :
    (session.step qt event).timeline.lastButOne = some gesture.before.present := by
  cases hbegins : session.begins event with
  | true =>
      rw [during_of_begins hbegins] at hmem
      cases hmem
      obtain ⟨edit, -, htimeline⟩ := timeline_begins qt h hbegins
      rw [htimeline, Timeline.lastButOne_change rfl]
      exact Timeline.lastButOne_record (by decide)
  | false =>
      obtain ⟨earlier, hearlier, rfl⟩ := (mem_during hbegins).mp hmem
      rw [← hsaved earlier hearlier]
      obtain ⟨edit, hid, htimeline⟩ | ⟨-, htimeline⟩ | ⟨-, htimeline⟩ :=
        timeline_step qt h event
      · rw [htimeline, hbegins]
        cases hpaints : session.paints event with
        | true =>
            have hredo := (hcareful.1 hpaints).resolve_left (by simp [hbegins])
            exact Timeline.lastButOne_change (future_of_redoStack hredo.2) edit
        | false => rw [hid hpaints]; rfl
      · rw [htimeline, Timeline.lastButOne_back]
      · rw [htimeline, Timeline.lastButOne_forward]

theorem Saved.step (hsaved : session.Saved) (h : session.Sound) (hcareful : session.Careful event) :
    (session.step qt event).Saved :=
  fun _ hmem => lastButOne_during h hsaved hcareful (mem_gesture_step hmem)

end Session

theorem Gesture.Undoable.of_latest {Image : Type u} {gesture : Gesture Image}
    {timeline : Timeline Image} (hfuture : timeline.future = [])
    (hlast : timeline.lastButOne = some gesture.before.present) : gesture.Undoable timeline := by
  have hpast := (Timeline.lastButOne_of_latest hfuture).symm.trans hlast
  exact ⟨hpast, Timeline.present_back hpast⟩

namespace Session

variable {Image : Type u} {qt : Qt Image} {session : Session Image} {event : Event}
  {gesture : Gesture Image}

/-- What a tool paints can be undone at once. -/
theorem undoable_of_paints (h : session.Sound) (hsaved : session.Saved)
    (hcareful : session.Careful event) (hpaints : session.paints event = true) :
    ∃ gesture ∈ session.during event, gesture.Undoable (session.step qt event).timeline := by
  have hundoable : ∀ gesture, gesture ∈ session.during event →
      (session.step qt event).timeline.future = [] →
        gesture.Undoable (session.step qt event).timeline :=
    fun gesture hmem hlatest => .of_latest hlatest (lastButOne_during h hsaved hcareful hmem)
  obtain ⟨edit, -, htimeline⟩ | ⟨rfl, -⟩ | ⟨rfl, -⟩ := timeline_step qt h event
  · cases hbegins : session.begins event with
    | true =>
        refine ⟨_, during_of_begins hbegins, hundoable _ (during_of_begins hbegins) ?_⟩
        rw [htimeline, if_pos hbegins]
        rfl
    | false =>
        obtain ⟨hopen, hredo⟩ := (hcareful.1 hpaints).resolve_left (by simp [hbegins])
        obtain ⟨earlier, hearlier⟩ := Option.isSome_iff_exists.mp hopen
        have hmem := (mem_during hbegins).mpr ⟨earlier, hearlier, rfl⟩
        refine ⟨_, hmem, hundoable _ hmem ?_⟩
        rw [htimeline, hbegins]
        exact future_of_redoStack hredo
  · cases hpaints
  · cases hpaints

/-- The gesture that an event ends has lasted until then. -/
theorem ended_cases (qt : Qt Image) (hended : gesture ∈ session.ended event) :
    gesture ∈ session.gesture ∧ session.left qt event = session.timeline ∨
      gesture ∈ session.during event ∧
        session.left qt event = (session.step qt event).timeline := by
  unfold ended at hended
  unfold left
  split at hended
  next hbegins => exact .inl ⟨hended, if_pos hbegins⟩
  next hbegins =>
    split at hended
    next => exact .inr ⟨hended, if_neg hbegins⟩
    next => cases hended

theorem lastButOne_left (h : session.Sound) (hsaved : session.Saved)
    (hcareful : session.Careful event) (hended : gesture ∈ session.ended event) :
    (session.left qt event).lastButOne = some gesture.before.present := by
  obtain ⟨hmem, hleft⟩ | ⟨hmem, hleft⟩ := ended_cases qt hended
  · rw [hleft]
    exact hsaved gesture hmem
  · rw [hleft]
    exact lastButOne_during h hsaved hcareful hmem

theorem Careful.undoes (hcareful : session.Careful event) (h : session.Sound)
    (hsaved : session.Saved) : session.Undoes qt event where
  painting mouse pos painting hevent hcall := by
    subst hevent
    exact undoable_of_paints h hsaved hcareful
      ((session.editor.tools.strokes mouse pos session.editor.currentTool).paints_iff.mpr
        ⟨painting, hcall⟩)
  unpainted mouse pos hevent hcalls := by
    subst hevent
    have hpaints : session.paints (.mouse mouse pos) = false := by
      rw [← Bool.not_eq_true]
      intro hpaints
      obtain ⟨painting, hcall⟩ :=
        (session.editor.tools.strokes mouse pos session.editor.currentTool).paints_iff.mp hpaints
      exact hcalls painting hcall
    obtain ⟨edit, hid, htimeline⟩ | ⟨hundo, -⟩ | ⟨hredo, -⟩ :=
      timeline_step qt h (.mouse mouse pos)
    · rw [htimeline, hid hpaints]
      split <;> rfl
    · cases hundo
    · cases hredo
  ended gesture hended := by
    rw [if_pos (hcareful.2 gesture hended)]
    exact .of_latest Timeline.future_latest
      (Timeline.lastButOne_latest.trans (lastButOne_left h hsaved hcareful hended))

/-- In a run of careful events every gesture is one undoable step. -/
theorem run_undoes (qt : Qt Image) (events : List Event)
    (hcareful : EveryStep (step qt) Careful (initial qt) events) :
    EveryStep (step qt) (Undoes qt) (initial qt) events := by
  refine hcareful.promises (step qt) (fun session => session.Sound ∧ session.Saved)
    (fun session event h hcareful => ⟨⟨h.1.step event, h.2.step h.1 hcareful⟩, ?_⟩)
    ⟨.initial qt, fun _ hmem => by cases hmem⟩
  exact hcareful.undoes h.1 h.2

theorem run_undoes_polygon : EveryStep (step raster) (Undoes raster) (initial raster)
    [.mouse .press ⟨5, 5⟩, .mouse .move ⟨80, 5⟩, .undo, .redo, .mouse .release ⟨80, 5⟩,
      .switchTool .polygon, .undo, .mouse .press ⟨1, 1⟩, .mouse .press ⟨9, 1⟩, .undo, .redo,
      .mouse .press ⟨5, 9⟩, .mouse .doubleClick ⟨5, 9⟩, .undo] :=
  run_undoes raster _ (by decide +kernel)

/-- A cancelled polygon leaves a snapshot, and a rectangle is filled in after its snapshot has been
taken off the stack by an undo. -/
theorem not_undoes :
    ¬EveryStep (step raster) (Undoes raster) (initial raster)
      [.switchTool .polygon, .mouse .press ⟨1, 1⟩, .switchTool .brush] ∧
    ¬EveryStep (step raster) (Undoes raster) (initial raster)
      [.switchTool .rect, .mouse .press ⟨1, 1⟩, .undo, .mouse .release ⟨5, 5⟩] := by
  constructor
  · rintro ⟨-, -, hcancelled, -⟩
    have hleft := congrArg (·.past.length) (hcancelled.ended _ rfl)
    revert hleft
    decide
  · rintro ⟨-, -, -, hfilled, -⟩
    obtain ⟨gesture, -, hsaved, -⟩ := hfilled.painting .release ⟨5, 5⟩ _ rfl
      List.mem_cons_self
    cases hsaved

/-! ## Gestures that do not paint -/

end Session

/-- The snapshot of the gesture is still there. -/
structure Gesture.LeavesTrace {Image : Type u} (gesture : Gesture Image)
    (timeline : Timeline Image) : Prop where
  line : timeline.line = (gesture.before.record maxUndo).line
  ne_before : gesture.before.past.length < maxUndo → gesture.before.future = [] →
    timeline ≠ gesture.before

theorem Gesture.LeavesTrace.of_line {Image : Type u} {gesture : Gesture Image}
    {timeline : Timeline Image} (hline : timeline.line = (gesture.before.record maxUndo).line) :
    gesture.LeavesTrace timeline where
  line := hline
  ne_before hroom hfuture := by
    rintro rfl
    have hlength := congrArg List.length hline
    rw [Timeline.length_line_record hroom] at hlength
    simp [Timeline.line, hfuture] at hlength

namespace Session

variable {Image : Type u}

/-- In no run does a gesture that ends before it has painted take its snapshot back. -/
theorem run_leavesTrace (qt : Qt Image) (events : List Event) :
    EveryStep (step qt) (fun session event => ∀ gesture ∈ session.ended event,
      gesture.painted = false → gesture.LeavesTrace (session.left qt event))
      (initial qt) events := by
  refine everyStep_of_invariant (step qt) Sound (fun session event h => h.step event)
    (fun session event h gesture hended hpainted => .of_line ?_) events (.initial qt)
  obtain ⟨hmem, hleft⟩ | ⟨hmem, hleft⟩ := ended_cases qt hended
  · rw [hleft]
    exact h.bare gesture hmem hpainted
  · rw [hleft]
    exact bare_during h hmem hpainted

end Session

end AcflyRos.MaskEditor
