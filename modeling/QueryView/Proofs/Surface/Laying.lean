/-
The layout of a surface and of its two layers.

A layout is in three places: in the state, and in both layers, which were given it.  They are
the same at the end of every operation (`layouts_are_one`), also of operations that callbacks
perform, and whether the operation succeeds, fails or panics: a setter has given the layout to
both layers before it renders, and rendering is the only step that can go wrong.  What the layers
were given is read off the trace, so it does not take a layer that remembers it.

Of layers that do remember, the theorem says that they have the layout still.  That a layer has a
layout is a matter of the layer; `hasE` and `hasR` are asked to follow from its being given and
to outlast writing and rendering.  The embedder can reach a layer behind the surface's back; what
it does there must not take a layout away (`Operation.LeavesLayoutsOf`), and nothing else is asked
of a program.  With relations that always hold, every program is allowed.

Which setting a setter changes is `LayoutChange.fields`.  A setting of a surface is what it was
after any operation in which no setter of this setting is called on the surface, be it by the
operation itself or by a callback.
-/
import QueryView.Proofs.Surface.Appearance
import QueryView.Proofs.Surface.Edit
import QueryView.Proofs.Surface.Lasting

namespace QueryView
namespace Surface

variable {E R : Type}

/-! ## Settings of a layout -/

/-- The two layouts agree in a setting. -/
def SameIn (x : Field) (a b : Layout) : Prop :=
  match x with
  | .fontSize => a.fontSize = b.fontSize
  | .fontFamily => a.fontFamily = b.fontFamily
  | .padding => a.padding = b.padding
  | .placeholder => a.placeholder = b.placeholder
  | .readOnly => a.readOnly = b.readOnly
  | .autosize => a.autosize = b.autosize
  | .text | .language | .plainTextColor | .theme => True

theorem SameIn.refl (x : Field) (a : Layout) : SameIn x a a := by
  cases x <;> trivial

theorem SameIn.trans {x : Field} {a b c : Layout} (h : SameIn x a b) (h' : SameIn x b c) :
    SameIn x a c := by
  cases x <;> first | trivial | exact Eq.trans h h'

/-- Layouts that agree in all settings are the same. -/
theorem eq_of_sameIn {a b : Layout} (h : ∀ x, SameIn x a b) : a = b := by
  obtain ⟨_, _, _, _, _, _⟩ := a
  obtain ⟨_, _, _, _, _, _⟩ := b
  have hsize := h .fontSize
  have hfamily := h .fontFamily
  have hpadding := h .padding
  have hplaceholder := h .placeholder
  have hreadOnly := h .readOnly
  have hautosize := h .autosize
  simp only [SameIn] at hsize hfamily hpadding hplaceholder hreadOnly hautosize
  rw [hsize, hfamily, hpadding, hplaceholder, hreadOnly, hautosize]

/-- A setter leaves the settings that it is not about. -/
theorem LayoutChange.sameIn_apply {change : LayoutChange} {x : Field} (h : x ∉ change.fields)
    (layout : Layout) : SameIn x (change.apply layout) layout := by
  cases change <;> cases x <;> first | rfl | trivial | simp [fields] at h

/-! ## Layers that have a layout -/

section
variable [EditableLayer E] [RenderLayer R]

/-- What a layer has that was given a layout, and has still after writing or rendering. -/
structure Remembered (hasE : E → Layout → Prop) (hasR : R → Layout → Prop) : Prop where
  editable : ∀ e layout, hasE (EditableLayer.applyLayout e layout) layout
  written : ∀ e layout t, hasE e layout → hasE (EditableLayer.write e t).1 layout
  rendered : ∀ r layout, hasR (RenderLayer.applyLayout r layout) layout
  shown : ∀ r layout runs, hasR r layout → hasR (RenderLayer.render r runs).1 layout

end

/-- The operation takes no layout away from a layer behind the surface's back. -/
def Operation.LeavesLayoutsOf (hasE : E → Layout → Prop) (hasR : R → Layout → Prop) :
    Operation E R → Prop
  | .on _ (.editLayer change) => ∀ e layout, hasE e layout → hasE (change e).1 layout
  | .on _ (.renderLayer change) => ∀ r layout, hasR r layout → hasR (change r).1 layout
  | _ => True

/-- The layers of the surface were given the layout of its state last, and they have it. -/
structure InLayout (hasE : E → Layout → Prop) (hasR : R → Layout → Prop) (g : Given)
    (s : Live E R) : Prop where
  given : g = .both s.state.layout
  editable : hasE s.editable s.state.layout
  rendered : hasR s.rendered s.state.layout

/-- Every surface and its layers have one layout. -/
def World.LaidOut (hasE : E → Layout → Prop) (hasR : R → Layout → Prop) (w : World E R) : Prop :=
  ∀ n s, w.live? n = some s → InLayout hasE hasR (w.given n) s

/-- The operation does not set a setting of the layout of a surface. -/
def Operation.Spares (n : Nat) (x : Field) : Operation E R → Prop
  | .on m (.changeLayout change) => m = n → x ∉ change.fields
  | _ => True

variable [EditableLayer E] [RenderLayer R] {hasE : E → Layout → Prop} {hasR : R → Layout → Prop}

theorem lasting_inLayout (h : Remembered hasE hasR) :
    Lasting (Operation.LeavesLayoutsOf hasE hasR) 0 fun _ => InLayout hasE hasR where
  aside := fun _ _ _ _ _ _ hs => ⟨hs.given, hs.editable, hs.rendered⟩
  written := fun _ _ s change halters hs => by
    refine ⟨hs.given, ?_, hs.rendered⟩
    obtain ⟨t, rfl⟩ | hleaves := halters
    · exact h.written s.editable s.state.layout t hs.editable
    · exact hleaves s.editable s.state.layout hs.editable
  drawn := fun _ _ s change hleaves hs =>
    ⟨hs.given, hs.editable, hleaves s.rendered s.state.layout hs.rendered⟩
  shown := fun _ _ s state hlayout hs => by
    refine ⟨hs.given.trans (congrArg Given.both hlayout.symm), ?_, ?_⟩
    · exact hlayout ▸ hs.editable
    · exact h.shown _ _ _ (hlayout ▸ hs.rendered)
  laidOut := fun _ _ s _ layout _ _ _ =>
    ⟨rfl, h.editable s.editable layout, h.shown _ layout _ (h.rendered s.rendered layout)⟩
  created := fun _ editable rendered _ _ =>
    ⟨rfl, h.editable editable .standard, h.shown _ .standard _ (h.rendered rendered .standard)⟩

/-- A setting that nobody sets is as it was, and so it is in the layers if these were in the
layout of the surface. -/
theorem lasting_sameIn (n : Nat) (x : Field) (before : Layout) (agreed : Prop) :
    Lasting (Operation.Spares (E := E) (R := R) n x) (n + 1) fun m g s =>
      m = n → SameIn x s.state.layout before ∧ (agreed → g = .both s.state.layout) where
  aside := fun _ _ _ _ _ _ hs => hs
  written := fun _ _ _ _ _ hs => hs
  drawn := fun _ _ _ _ _ hs => hs
  shown := fun m g s state hlayout hs hm => by
    show SameIn x state.layout before ∧ (agreed → g = .both state.layout)
    rw [hlayout]
    exact hs hm
  laidOut := fun m g s change layout hspares hchange hs hm => by
    subst hchange
    exact ⟨(LayoutChange.sameIn_apply (hspares hm) s.state.layout).trans (hs hm).1, fun _ => rfl⟩
  created := fun m _ _ _ hnew hm => absurd (hm ▸ hnew) (Nat.not_succ_le_self n)

namespace World

open Surface.Action

variable {w : World E R} {n : Nat} {s : Live E R}

/-! ## A setter of the layout -/

/-- The surface with a layout in its state and in both layers, before it is shown. -/
def inLayout (layout : Layout) (s : Live E R) : Live E R :=
  laying layout { s with state := { s.state with layout } }

/-- Both layers are given a layout, and then the render layer that has it is given the runs. -/
def layingEvents (n : Nat) (layout : Layout) (s : Live E R) : List Event :=
  [.editableLayout n layout, .renderLayout n layout, renderedEvent n (inLayout layout s)]

/-- What a setter of the layout does to the surface that it is called on, whatever becomes of the
attempt to show it. -/
structure LaysOut (n : Nat) (s : Live E R) (change : LayoutChange) (w w' : World E R) : Prop where
  live : w'.live? n = some (rendering (inLayout (change.apply s.state.layout) s))
  others : ∀ m, n ≠ m → w'.live? m = w.live? m
  trace : w'.trace = w.trace ++ layingEvents n (change.apply s.state.layout) s
  spared : ∀ x ∉ change.fields, SameIn x (change.apply s.state.layout) s.state.layout

theorem trace_applyLayout (hs : w.live? n = some s) :
    (applyLayout n w).2.trace = w.trace ++ [.editableLayout n s.state.layout,
      .renderLayout n s.state.layout, renderedEvent n (laying s.state.layout s)] := by
  have hlaid : (w.layOut n s.state.layout).live? n = some (laying s.state.layout s) := by
    rw [live?_layOut, if_pos rfl, hs, Option.map_some]
  rw [applyLayout_of_some hs, trace_refresh hlaid, trace_layOut, List.append_assoc]
  rfl

theorem laysOut (hs : w.live? n = some s) (hhandles : w.handles n ≠ 0) (change : LayoutChange)
    (depth : Nat) :
    LaysOut n s change w (Operation.run (depth + 1) (.on n (.changeLayout change)) w).2 := by
  let changed := (w.enter n).changeState n fun s => { s with layout := change.apply s.layout }
  have hchanged : changed.live? n =
      some { s with state := { s.state with layout := change.apply s.state.layout } } :=
    live?_changeState (live?_enter.trans hs) _
  have hothers : ∀ m, n ≠ m → changed.live? m = w.live? m := fun m hne =>
    (live?_changeLive.trans (if_neg hne)).trans live?_enter
  have hkept : (applyLayout n changed).2.handles n ≠ 0 := by
    rw [handles_applyLayout]
    exact fun hnone => hhandles ((handles_changeLive.trans handles_enter).symm.trans hnone)
  have hworld : (Operation.run (depth + 1) (.on n (.changeLayout change)) w).2 =
      (applyLayout n changed).2.leave n := by
    rw [run_on_apply hhandles, andFinally, answer, bind_apply, modify_apply]
    exact congrArg (fun ended => ended.2.leave n) (return_apply (applyLayout n) replyOf changed)
  constructor
  · rw [hworld, live?_leave_of_handles hkept, live?_applyLayout, if_pos rfl, hchanged]
    rfl
  · intro m hne
    rw [hworld, live?_leave_of_ne hne, live?_applyLayout, if_neg hne, hothers m hne]
  · rw [hworld, trace_leave, trace_applyLayout hchanged]
    rfl
  · exact fun x hx => LayoutChange.sameIn_apply hx s.state.layout

/-- A new surface and its layers are laid out before it is shown for the first time. -/
theorem trace_run_create (hheld : w.notifier.held = true) (editable : E) (rendered : R)
    (depth : Nat) :
    (Operation.run (depth + 1) (.create editable rendered) w).2.trace = w.trace ++
      layingEvents w.slots.length .standard (w.fresh editable rendered) := by
  have hfresh : ((w.withFresh editable rendered).enter w.slots.length).live? w.slots.length =
      some (w.fresh editable rendered) := by
    rw [live?_enter, live?_withFresh, if_pos rfl]
  obtain ⟨f, hcreate⟩ := create_world editable rendered w
  have hworld : Operation.run (depth + 1) (.create editable rendered) w =
      create editable rendered w := by
    show Operation.step (Operation.run depth) (.create editable rendered) w = _
    rw [Operation.step, get_bind_apply, if_pos hheld]
  rw [hworld, hcreate, trace_leave, trace_changeSlot, trace_applyLayout hfresh]
  rfl

end World

open World

/-! ## Runs -/

/-- In every world in which an operation of a run ends, a nested one or not, surfaces and their
layers have one layout. -/
theorem laidOut_of_lookedAt (hremembered : Remembered hasE hasR) {theme : Theme} {depth : Nat}
    {program : Script E R} (hprogram : program.Throughout (Operation.LeavesLayoutsOf hasE hasR))
    {w : World E R} (h : Action.LookedAt
      (fun watch => program.run (Operation.watched (watch ()) depth))
      (program.run (Operation.run depth)) (World.initial theme) () w) : w.LaidOut hasE hasR :=
  h.holds (Q := fun _ w => w.LaidOut hasE hasR) fun watch hwatch =>
    Operation.run_watched_of_lasting (lasting_inLayout hremembered) theme depth program hprogram
      (watch ()) fun w hw => hwatch () w hw.surface

/-- A surface and its layers have one layout at the end of every operation.  A setter gives the
layout to both layers, then shows the surface, and leaves the other surfaces and the other
settings as they are; creating a surface lays it out before it is shown; and a setting that is
not set on a surface, neither by an operation nor by a callback, is there what it was.  So where
no setter is called the whole layout is. -/
theorem layouts_are_one (hremembered : Remembered hasE hasR) (theme : Theme) (depth : Nat)
    (program : Script E R) (hprogram : program.Throughout (Operation.LeavesLayoutsOf hasE hasR)) :
    (∀ watch : World E R → World E R, (∀ w, w.LaidOut hasE hasR → watch w = w) →
      program.run (Operation.watched watch depth) (World.initial theme) =
        program.run (Operation.run depth) (World.initial theme)) ∧
    (program.run (Operation.run depth) (World.initial theme)).2.LaidOut hasE hasR ∧
    (∀ (w : World E R) n s change deep, w.live? n = some s → w.handles n ≠ 0 →
      LaysOut n s change w (Operation.run (deep + 1) (.on n (.changeLayout change)) w).2) ∧
    (∀ (w : World E R) editable rendered deep, w.notifier.held = true →
      (Operation.run (deep + 1) (.create editable rendered) w).2.trace = w.trace ++
        layingEvents w.slots.length .standard (w.fresh editable rendered)) ∧
    ∀ (w : World E R) n op deep s s', w.live? n = some s →
      (Operation.run deep op w).2.live? n = some s' →
      (∀ x, w.Stores (Operation.Spares n x) → op.Throughout (Operation.Spares n x) →
        SameIn x s'.state.layout s.state.layout ∧ (w.given n = .both s.state.layout →
          (Operation.run deep op w).2.given n = .both s'.state.layout)) ∧
      ((∀ x, w.Stores (Operation.Spares n x) ∧ op.Throughout (Operation.Spares n x)) →
        s'.state.layout = s.state.layout) := by
  have hlasting := lasting_inLayout hremembered
  refine ⟨fun watch hwatch => ?_, ?_, ?_, ?_, ?_⟩
  · exact Operation.run_watched_of_lasting hlasting theme depth program hprogram
      watch fun w hw => hwatch w hw.surface
  · exact (Operation.every_of_program hlasting theme depth program hprogram).surface
  · exact fun w n s change deep hs hhandles => laysOut hs hhandles change deep
  · exact fun w editable rendered deep hheld => trace_run_create hheld editable rendered deep
  · intro w n op deep s s' hs hs'
    suffices hsame : ∀ x, w.Stores (Operation.Spares n x) → op.Throughout (Operation.Spares n x) →
        SameIn x s'.state.layout s.state.layout ∧ (w.given n = .both s.state.layout →
          (Operation.run deep op w).2.given n = .both s'.state.layout) from
      ⟨hsame, fun hspared => eq_of_sameIn fun x => (hsame x (hspared x).1 (hspared x).2).1⟩
    intro x hstores hop
    have hevery : w.Every (n + 1) fun m g s' => m = n → SameIn x s'.state.layout s.state.layout ∧
        (w.given n = .both s.state.layout → g = .both s'.state.layout) := by
      refine ⟨lt_length_of_live? hs, fun m s₁ hs₁ hm => ?_⟩
      subst hm
      cases hs.symm.trans hs₁
      exact ⟨.refl x _, id⟩
    exact (Operation.every_of_run (lasting_sameIn n x s.state.layout _) deep hop
      hstores hevery).surface n s' hs' rfl

/-! ## Setters on a display that panics

An observer answers a text with a setter.  Then the display breaks, and the panic of the next
setter is caught. -/

def settersOnBrokenDisplay : Script LimitedBuffer Display :=
  .perform (.create {} {}) fun _ =>
  .perform (.on 0 (.observe fun _ =>
    .perform (.on 0 (.changeLayout (.padding 1))) fun _ => .done)) fun _ =>
  .perform (.on 0 (.typeText "[1]".toList)) fun _ =>
  .perform (.on 0 (.renderLayer fun d =>
    ({ d with mode := .panics "lost".toList }, .ok ()))) fun _ =>
  .attempt (.on 0 (.changeLayout (.readOnly true))) fun _ => .done

def settersWorld : World LimitedBuffer Display :=
  (settersOnBrokenDisplay.run (Operation.run 3) (World.initial .light)).2

def LimitedBuffer.HasLayout (b : LimitedBuffer) (layout : Layout) : Prop :=
  b.buffer.layout = layout

def Display.HasLayout (d : Display) (layout : Layout) : Prop := d.layout = layout

theorem remembered_hasLayout : Remembered LimitedBuffer.HasLayout Display.HasLayout where
  editable := fun _ _ => rfl
  written := fun _ _ _ h => h
  rendered := fun _ _ => rfl
  shown := fun d _ runs h => (d.layout_render runs).trans h

/-- The display panicked, and everybody has the layout that the setters make. -/
theorem setters_are_laid_out :
    (settersWorld.live? 0).map (fun s => s.state.layout) =
        some { Layout.standard with padding := 1, readOnly := true } ∧
      settersWorld.lastOutcome? 0 = some (.panicked "lost".toList) ∧
      settersWorld.LaidOut LimitedBuffer.HasLayout Display.HasLayout ∧
      ∃ s s', settersWorld.live? 0 = some s ∧
        (Operation.run 3 (.on 0 (.setText "[2]".toList)) settersWorld).2.live? 0 = some s' ∧
        s'.state.layout.fontFamily = s.state.layout.fontFamily := by
  have hprogram : settersOnBrokenDisplay.Throughout
      (Operation.LeavesLayoutsOf LimitedBuffer.HasLayout Display.HasLayout) := by
    simp [settersOnBrokenDisplay, Script.Throughout, Operation.Throughout, Request.Throughout,
      Operation.LeavesLayoutsOf, Display.HasLayout]
  obtain ⟨-, hlaidOut, -, -, hspared⟩ :=
    layouts_are_one remembered_hasLayout .light 3 settersOnBrokenDisplay hprogram
  have hstores : settersWorld.Stores (Operation.Spares 0 .fontFamily) := by
    have hpermits :
        Permissive (Operation.Spares (E := LimitedBuffer) (R := Display) 0 .fontFamily) :=
      permissive_of_forall (fun _ => trivial) fun _ _ => trivial
    refine Operation.stores_of_program hpermits .light 3 settersOnBrokenDisplay ?_
    simp [settersOnBrokenDisplay, Script.Throughout, Operation.Throughout, Request.Throughout,
      Operation.Spares, LayoutChange.fields]
  obtain ⟨s, hs⟩ := Option.isSome_iff_exists.mp
    (show (settersWorld.live? 0).isSome = true by decide +kernel)
  obtain ⟨s', hs'⟩ := Option.isSome_iff_exists.mp
    (show ((Operation.run 3 (.on 0 (.setText "[2]".toList)) settersWorld).2.live? 0).isSome = true
      by decide +kernel)
  obtain ⟨hsame, -⟩ := (hspared settersWorld 0 (.on 0 (.setText "[2]".toList)) 3 s s' hs hs').1
    .fontFamily hstores (by simp [Operation.Throughout, Request.Throughout, Operation.Spares])
  exact ⟨by decide +kernel, by decide +kernel, hlaidOut, s, s', hs, hs', hsame⟩

end Surface
end QueryView
