/-
Surfaces are in step with their state.

A surface stores the runs that its text is highlighted as, and hands them to its render
layer.  It is in step if the runs are those of the state that it has now, and if the render
layer, provided that it took the last runs it was given, still has them.  The main theorem,
`in_step_whenever_an_operation_ends`, says that every surface is in step at the end of every
operation, also of operations that callbacks perform, whether the operation succeeds, fails
or panics.

What a render layer has is a matter of the layer.  The theorem takes it as a parameter
`frame`, of which it asks what rendering is for: a layer that takes runs has them afterwards.
The embedder can reach a render layer behind the surface's back; what it does there must
leave the frame as it is, and this is all that is asked of the operations of a run.
-/
import QueryView.Proofs.Surface.Quiet
import QueryView.Surface.Trial

namespace QueryView
namespace Surface

variable {E R : Type}

/-- The operation does not change the frame of a render layer behind the back of its
surface. -/
def Operation.LeavesFrames (frame : R → Option RunSequence) : Operation E R → Prop
  | .on _ (.renderLayer change) => ∀ r, frame (change r).1 = frame r
  | _ => True

namespace World

/-- The surface with a number, if it is alive, is in step. -/
structure InStepAt (frame : R → Option RunSequence) (w : World E R) (n : Nat) : Prop where
  runs : ∀ s, w.live? n = some s →
    s.runs = s.state.highlighter.highlight s.state.text s.state.language
  frame : ∀ s, w.live? n = some s → w.lastOutcome? n = some .shown →
    frame s.rendered = some s.runs

def InStep (frame : R → Option RunSequence) (w : World E R) : Prop := ∀ n, w.InStepAt frame n

variable {frame : R → Option RunSequence} {w w' : World E R} {n m : Nat}

theorem inStep_initial (theme : Theme) : (World.initial theme : World E R).InStep frame := by
  intro n
  constructor <;> intro s hs <;> simp [World.initial, live?] at hs

/-- A surface that shows the same as before is in step if it was. -/
theorem InStepAt.congr (h : w.InStepAt frame n)
    (hlive : ∀ s', w'.live? n = some s' → ∃ s, w.live? n = some s ∧ s'.state = s.state ∧
      s'.runs = s.runs ∧ s'.rendered = s.rendered)
    (houtcome : w'.lastOutcome? n = w.lastOutcome? n) : w'.InStepAt frame n := by
  constructor
  · intro s' hs'
    obtain ⟨s, hs, hstate, hruns, -⟩ := hlive s' hs'
    rw [hstate, hruns]
    exact h.runs s hs
  · intro s' hs' hshown
    obtain ⟨s, hs, -, hruns, hrendered⟩ := hlive s' hs'
    rw [hruns, hrendered]
    exact h.frame s hs (houtcome ▸ hshown)

theorem InStepAt.quiet (h : w.InStepAt frame n) (hq : Quiet w w') : w'.InStepAt frame n := by
  refine h.congr (fun s' hs' => ?_) (hq.outcome n)
  obtain ⟨s, hs, hstate, hruns, hrendered, -⟩ := hq.live n s' hs'
  exact ⟨s, hs, hstate, hruns, hrendered⟩

/-- What happens to one surface leaves the others in step. -/
theorem InStepAt.changeLive_of_ne (h : w.InStepAt frame m) (hne : n ≠ m)
    {f : Live E R → Live E R} : (w.changeLive n f).InStepAt frame m := by
  refine h.congr (fun s' hs' => ?_) (lastOutcome?_of_trace_eq rfl m)
  rw [live?_changeLive, if_neg hne] at hs'
  exact ⟨s', hs', rfl, rfl, rfl⟩

theorem InStepAt.withFresh_of_ne (h : w.InStepAt frame m) (hne : w.slots.length ≠ m)
    {editable : E} {rendered : R} : (w.withFresh editable rendered).InStepAt frame m := by
  refine h.congr (fun s' hs' => ?_) (lastOutcome?_of_trace_eq rfl m)
  rw [live?_withFresh, if_neg (Ne.symm hne)] at hs'
  exact ⟨s', hs', rfl, rfl, rfl⟩

/-! ## Showing a surface brings it in step -/

variable [RenderLayer R]

theorem lastOutcome?_refresh {s : Live E R} (h : w.live? n = some s) :
    (refresh n w).2.lastOutcome? m =
      if n = m then some (RenderLayer.render s.rendered s.state.runs).2
      else w.lastOutcome? m := by
  rw [lastOutcome?_of_trace_append (trace_refresh h) m, renderedEvent]
  by_cases hnm : n = m
  · simp [Event.outcomeOf?, hnm]
  · simp [Event.outcomeOf?, hnm]

/-- The runs are stored before they are handed to the render layer, so it makes no
difference to them what becomes of the attempt. -/
theorem inStepAt_refresh_self
    (hframe : ∀ (r : R) runs, (RenderLayer.render r runs).2 = .shown →
      frame (RenderLayer.render r runs).1 = some runs) :
    (refresh n w).2.InStepAt frame n := by
  cases h : w.live? n with
  | none =>
    rw [refresh_of_none h]
    constructor <;> intro s hs <;> rw [h] at hs <;> cases hs
  | some s =>
    have hlive : (refresh n w).2.live? n = some (rendering s) := by
      rw [live?_refresh, if_pos rfl, h]
      rfl
    constructor
    · intro s' hs'
      rw [hlive] at hs'
      cases hs'
      rfl
    · intro s' hs' hshown
      rw [hlive] at hs'
      cases hs'
      rw [lastOutcome?_refresh h, if_pos rfl] at hshown
      exact hframe _ _ (Option.some.inj hshown)

theorem InStepAt.refresh_of_ne (h : w.InStepAt frame m) (hne : n ≠ m) :
    (refresh n w).2.InStepAt frame m := by
  cases hs : w.live? n with
  | none =>
    rw [refresh_of_none hs]
    exact h
  | some s =>
    refine h.congr (fun s' hs' => ?_) ?_
    · rw [live?_refresh, if_neg hne] at hs'
      exact ⟨s', hs', rfl, rfl, rfl⟩
    · rw [lastOutcome?_refresh hs, if_neg hne]

/-- A world in which all surfaces but one are in step is in step when that one was shown. -/
theorem inStep_refresh
    (hframe : ∀ (r : R) runs, (RenderLayer.render r runs).2 = .shown →
      frame (RenderLayer.render r runs).1 = some runs)
    (h : ∀ m, n ≠ m → w.InStepAt frame m) : (refresh n w).2.InStep frame := by
  intro m
  by_cases hnm : n = m
  · rw [← hnm]
    exact inStepAt_refresh_self hframe
  · exact (h m hnm).refresh_of_ne hnm

variable [EditableLayer E]

theorem inStep_applyLayout
    (hframe : ∀ (r : R) runs, (RenderLayer.render r runs).2 = .shown →
      frame (RenderLayer.render r runs).1 = some runs)
    (h : ∀ m, n ≠ m → w.InStepAt frame m) : (applyLayout n w).2.InStep frame := by
  cases hs : w.live? n with
  | none =>
    rw [applyLayout_of_none hs]
    intro m
    by_cases hnm : n = m
    · constructor <;> intro s hs' <;> rw [← hnm, hs] at hs' <;> cases hs'
    · exact h m hnm
  | some s =>
    rw [applyLayout_of_some hs]
    refine inStep_refresh hframe fun m hnm => (h m hnm).congr (fun s' hs' => ?_) ?_
    · rw [live?_layOut, if_neg hnm] at hs'
      exact ⟨s', hs', rfl, rfl, rfl⟩
    · rw [lastOutcome?_of_trace_append trace_layOut m]
      rfl

end World

/-! ## Every move keeps surfaces in step -/

variable [EditableLayer E] [RenderLayer R]

theorem Move.inStep {frame : R → Option RunSequence} {w w' : World E R}
    (hframe : ∀ (r : R) runs, (RenderLayer.render r runs).2 = .shown →
      frame (RenderLayer.render r runs).1 = some runs)
    (h : Move (Operation.LeavesFrames frame) w w') (hw : w.InStep frame) : w'.InStep frame := by
  cases h with
  | quiet h => exact fun n => (hw n).quiet h.quiet
  | shown n f w =>
    rw [World.changeAndShow_apply]
    exact World.inStep_refresh hframe fun m hnm => (hw m).changeLive_of_ne hnm
  | laidOut n f w =>
    exact World.inStep_applyLayout hframe fun m hnm => (hw m).changeLive_of_ne hnm
  | created editable rendered w =>
    obtain ⟨f, hcreate⟩ := World.create_world editable rendered w
    rw [hcreate]
    have hlaid : ((World.applyLayout w.slots.length
        ((w.withFresh editable rendered).enter w.slots.length)).2).InStep frame := by
      refine World.inStep_applyLayout hframe fun m hnm => ?_
      exact ((hw m).withFresh_of_ne hnm).quiet (QuietMove.entered w.slots.length _).quiet
    intro m
    exact ((hlaid m).quiet (QuietMove.handled w.slots.length f _).quiet).quiet
      (QuietMove.left w.slots.length _).quiet
  | drawn n change w s hchange hs =>
    intro m
    by_cases hnm : n = m
    · subst hnm
      constructor
      · intro s' hs'
        rw [World.live?_changeLive, if_pos rfl, hs] at hs'
        cases hs'
        exact (hw n).runs s hs
      · intro s' hs' hshown
        rw [World.live?_changeLive, if_pos rfl, hs] at hs'
        cases hs'
        exact (hchange s.rendered).trans ((hw n).frame s hs hshown)
    · exact (hw m).changeLive_of_ne hnm
  | observed n body w _ =>
    intro m
    refine (hw m).congr (fun s' hs' => ?_) (World.lastOutcome?_of_trace_eq rfl m)
    rw [World.live?_changeLive] at hs'
    split at hs'
    · obtain ⟨s, hs, rfl⟩ := Option.map_eq_some_iff.mp hs'
      exact ⟨s, hs, rfl, rfl, rfl⟩
    · exact ⟨s', hs', rfl, rfl, rfl⟩
  | connected n handler w _ =>
    intro m
    refine (hw m).congr (fun s' hs' => ?_) (World.lastOutcome?_of_trace_eq rfl m)
    rw [World.live?_changeSlot_of_live (by intro _; rfl)] at hs'
    exact ⟨s', hs', rfl, rfl, rfl⟩
  | subscribed body w _ =>
    intro m
    exact (hw m).congr (fun s' hs' => ⟨s', hs', rfl, rfl, rfl⟩)
      (World.lastOutcome?_of_trace_eq rfl m)

/-! ## Runs -/

theorem closed_inStep {frame : R → Option RunSequence}
    (hframe : ∀ (r : R) runs, (RenderLayer.render r runs).2 = .shown →
      frame (RenderLayer.render r runs).1 = some runs) :
    Closed (Operation.LeavesFrames frame) fun w : World E R =>
      w.InStep frame ∧ w.Stores (Operation.LeavesFrames frame) :=
  closed_of_move fun _ _ hw hmove => hmove.inStep hframe hw

omit [EditableLayer E] [RenderLayer R] in
theorem inStep_and_stores_initial (frame : R → Option RunSequence) (theme : Theme) :
    (World.initial theme : World E R).InStep frame ∧
      (World.initial theme : World E R).Stores (Operation.LeavesFrames frame) :=
  ⟨World.inStep_initial theme, World.stores_initial _ theme⟩

/-- Every world in which an operation of a run ends, a nested one or not, is in step. -/
theorem inStep_of_lookedAt {frame : R → Option RunSequence}
    (hframe : ∀ (r : R) runs, (RenderLayer.render r runs).2 = .shown →
      frame (RenderLayer.render r runs).1 = some runs)
    {theme : Theme} {depth : Nat} {program : Script E R}
    (hprogram : program.Throughout (Operation.LeavesFrames frame)) {w : World E R}
    (h : Action.LookedAt (fun watch => program.run (Operation.watched (watch ()) depth))
      (program.run (Operation.run depth)) (World.initial theme) () w) : w.InStep frame := by
  have hkept : w.InStep frame ∧ w.Stores (Operation.LeavesFrames frame) :=
    h.holds (Q := fun _ w => w.InStep frame ∧ w.Stores (Operation.LeavesFrames frame))
      fun _ hwatch => (Operation.watched_script (closed_inStep hframe) (hwatch ()) depth hprogram
        (inStep_and_stores_initial frame theme)).1
  exact hkept.1

/-- Surfaces are in step at the end of every operation.  Whoever watches the ends of all
operations, nested ones included, and does something only in worlds with a surface out of
step, never does anything. -/
theorem in_step_whenever_an_operation_ends (frame : R → Option RunSequence)
    (hframe : ∀ (r : R) runs, (RenderLayer.render r runs).2 = .shown →
      frame (RenderLayer.render r runs).1 = some runs)
    (theme : Theme) (depth : Nat) (program : Script E R)
    (hprogram : program.Throughout (Operation.LeavesFrames frame))
    (watch : World E R → World E R) (hwatch : ∀ w, w.InStep frame → watch w = w) :
    program.run (Operation.watched watch depth) (World.initial theme) =
        program.run (Operation.run depth) (World.initial theme) ∧
      (program.run (Operation.run depth) (World.initial theme)).2.InStep frame := by
  obtain ⟨hsame, hkept, -⟩ := Operation.watched_script (closed_inStep hframe)
    (fun w hw => hwatch w hw.1) depth hprogram (inStep_and_stores_initial frame theme)
  exact ⟨hsame, hkept⟩

/-! ## A display that panics

A display keeps what it was given while it works, so its frame is what the theorem asks
for.  The embedder of this run types a text, which an observer answers with a change of
language, then breaks the display and catches the panic of the next change. -/

theorem Display.frame_render (d : Display) (runs : RunSequence)
    (h : (RenderLayer.render d runs).2 = .shown) :
    (RenderLayer.render d runs).1.frame = some runs := by
  cases hmode : d.mode with
  | works =>
    cases hscreen : d.screen <;> simp [RenderLayer.render, Display.render, hmode, hscreen]
  | fails failure => simp [RenderLayer.render, Display.render, hmode] at h
  | panics reason => simp [RenderLayer.render, Display.render, hmode] at h

def panickingDisplay : Script LimitedBuffer Display :=
  .perform (.create {} {}) fun _ =>
  .perform (.on 0 (.observe fun _ =>
    .perform (.on 0 (.setLanguage .json)) fun _ => .done)) fun _ =>
  .perform (.on 0 (.typeText "[1]".toList)) fun _ =>
  .perform (.on 0 (.renderLayer fun d =>
    ({ d with mode := .panics "lost".toList }, .ok ()))) fun _ =>
  .attempt (.on 0 (.setText "[2]".toList)) fun _ => .done

open Classical in
/-- Leaves a note if a surface is out of step. -/
noncomputable def noteOutOfStep (w : World LimitedBuffer Display) : World LimitedBuffer Display :=
  if w.InStep Display.frame then w else w.record (.note "out of step".toList)

/-- The last text is not what the display shows, yet no note is left. -/
theorem panicking_display_in_step :
    let w := (panickingDisplay.run (Operation.run 3) (World.initial .light)).2
    (w.live? 0).map (fun s => s.state.text) = some "[2]".toList ∧
      w.lastOutcome? 0 = some (.panicked "lost".toList) ∧ w.InStep Display.frame ∧
      panickingDisplay.run (Operation.watched noteOutOfStep 3) (World.initial .light) =
        panickingDisplay.run (Operation.run 3) (World.initial .light) := by
  have hprogram : panickingDisplay.Throughout (Operation.LeavesFrames Display.frame) := by
    simp [panickingDisplay, Script.Throughout, Operation.Throughout, Request.Throughout,
      Operation.LeavesFrames]
  obtain ⟨hsame, hstep⟩ := in_step_whenever_an_operation_ends Display.frame Display.frame_render
    .light 3 panickingDisplay hprogram noteOutOfStep fun w hw => if_pos hw
  exact ⟨by decide +kernel, by decide +kernel, hstep, hsame⟩

end Surface
end QueryView
