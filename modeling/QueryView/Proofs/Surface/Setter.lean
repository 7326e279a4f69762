/-
Callbacks that set things.

An observer may answer an edit with settings: it sets a text, a language, a color or a layout,
of its own surface or of another one.  None of this is an edit, so nobody is told of it.  The
module describes such a callback by the moves that it makes (`SetMove`): as long as no render
layer panics and hooks lead to their own surfaces only, it comes to its end, and what it does
on the way is a course of moves in which no notification occurs (`goes_script`).

A course is kept together with the notifications that are made between its moves, so that the
same notion serves for a whole round of observers (`goes_callEach`).
-/
import QueryView.Proofs.Surface.Echo
import QueryView.Surface.Trial

namespace QueryView
namespace Surface

variable {E R : Type}

/-! ## Operations that set something -/

/-- The operation sets something of a surface; a text only if it is one of some. -/
def Operation.Sets (texts : Text → Prop) : Operation E R → Prop
  | .on _ (.setText t) => texts t
  | .on _ (.setLanguage _) => True
  | .on _ (.setPlainTextColor _) => True
  | .on _ .followTheme => True
  | .on _ (.changeLayout _) => True
  | _ => False

/-- The body of a callback looks, leaves notes and sets things, and does not panic. -/
def Script.Sets (texts : Text → Prop) : Script E R → Prop
  | .done => True
  | .panic _ => False
  | .note _ next => next.Sets texts
  | .look next => ∀ seen, (next seen).Sets texts
  | .perform op next => op.Sets texts ∧ ∀ reply, (next reply).Sets texts
  | .attempt op next => op.Sets texts ∧ ∀ outcome, (next outcome).Sets texts

/-- A class of render layers that may fail but do not panic. -/
structure NeverPanics [RenderLayer R] (calm : R → Prop) : Prop where
  outcome : ∀ r runs reason, calm r → (RenderLayer.render r runs).2 ≠ .panicked reason
  render : ∀ r runs, calm r → calm (RenderLayer.render r runs).1
  applyLayout : ∀ r layout, calm r → calm (RenderLayer.applyLayout r layout)

/-- An edit that an observer of a surface was told of. -/
structure Notification where
  surface : Nat
  observer : Nat
  text : Text
  deriving DecidableEq

def Event.notification? : Event → Option Notification
  | .edited n i t => some ⟨n, i, t⟩
  | _ => none

namespace World

/-- The edits that observers were told of, in order. -/
def notifications (w : World E R) : List Notification := w.trace.filterMap Event.notification?

/-- Hooks lead to their own surfaces only, and the render layers are calm. -/
structure Orderly (calm : R → Prop) (w : World E R) : Prop where
  wired : w.Wired
  calm : ∀ n s, w.live? n = some s → calm s.rendered

variable {calm : R → Prop} {w w' : World E R} {n : Nat}

theorem notifications_of_trace_append {es : List Event} (h : w'.trace = w.trace ++ es)
    (hes : es.filterMap Event.notification? = []) : w'.notifications = w.notifications := by
  rw [notifications, h, List.filterMap_append, hes, List.append_nil, notifications]

theorem notifications_edited (n i : Nat) (t : Text) :
    (w.record (.edited n i t)).notifications = w.notifications ++ [⟨n, i, t⟩] := by
  rw [notifications, trace_record, List.filterMap_append, notifications]
  rfl

/-! ## Order is kept -/

theorem Orderly.record (h : w.Orderly calm) (e : Event) : (w.record e).Orderly calm :=
  ⟨h.wired, h.calm⟩

theorem Orderly.of_live? (h : w.Orderly calm)
    (hlive : ∀ n, w'.live? n = w.live? n ∨ w'.live? n = none)
    (hhook : ∀ n, w'.hook? n = w.hook? n) : w'.Orderly calm := by
  constructor
  · intro n handler hh
    exact h.wired n handler (hhook n ▸ hh)
  · intro n s hs
    rcases hlive n with hsame | hnone
    · exact h.calm n s (hsame ▸ hs)
    · rw [hnone] at hs
      cases hs

theorem live?_of_slots {slot : Slot E R} (hslots : w.slots = [slot]) : w.live? 0 = slot.live := by
  rw [live?, hslots]
  rfl

/-- A world with one surface, to which its own editable layer reports. -/
theorem orderly_of_slots {s : Live E R} {handles guests : Nat}
    (hslots : w.slots = [{ live := some s, handles, guests, hook := some (.edits 0) }])
    (hs : calm s.rendered) : w.Orderly calm := by
  constructor
  · intro n handler hh
    rw [hook?, hslots] at hh
    cases n with
    | zero => exact (Option.some.inj hh).symm
    | succ n => cases hh
  · intro n s' hs'
    rw [live?, hslots] at hs'
    cases n with
    | zero =>
      cases hs'
      exact hs
    | succ n => cases hs'

theorem Orderly.enter (h : w.Orderly calm) : (w.enter n).Orderly calm :=
  h.of_live? (fun _ => .inl live?_enter) fun _ => hook?_enter

theorem Orderly.leave (h : w.Orderly calm) : (w.leave n).Orderly calm :=
  h.of_live? (fun _ => live?_leave) fun _ => hook?_leave

theorem Orderly.changeLive (h : w.Orderly calm) {f : Live E R → Live E R}
    (hf : ∀ s, calm s.rendered → calm (f s).rendered) : (w.changeLive n f).Orderly calm := by
  constructor
  · exact fun k => wiredAt_changeLive (h.wired k) f
  · intro k s' hs'
    rw [live?_changeLive] at hs'
    split at hs'
    · obtain ⟨s, hs, rfl⟩ := Option.map_eq_some_iff.mp hs'
      exact hf s (h.calm k s hs)
    · exact h.calm k s' hs'

theorem Orderly.changeState (h : w.Orderly calm) (f : State → State) :
    (w.changeState n f).Orderly calm := Orderly.changeLive h fun _ hs => hs

theorem Orderly.written (h : w.Orderly calm) (change : E → E × List Text) :
    (w.changeLive n (writing change)).Orderly calm := Orderly.changeLive h fun _ hs => hs

variable [RenderLayer R]

open Surface.Action

theorem Orderly.refresh (h : w.Orderly calm) (hcalm : NeverPanics calm) :
    (refresh n w).2.Orderly calm := by
  cases hs : w.live? n with
  | none =>
    rw [refresh_of_none hs]
    exact h
  | some s =>
    rw [refresh_world hs]
    refine Orderly.record ?_ _
    exact h.changeLive fun _ _ => hcalm.render _ _ (h.calm n s hs)

/-- A render layer that does not panic takes what it is given or fails. -/
theorem exists_refresh_eq_of_outcome (h : ∀ s, w.live? n = some s → ∀ reason,
    (RenderLayer.render s.rendered s.state.runs).2 ≠ .panicked reason) :
    ∃ shown, refresh n w = (.ok shown, (refresh n w).2) := by
  cases hs : w.live? n with
  | none => exact ⟨.ok (), by rw [refresh_of_none hs]⟩
  | some s =>
    rw [World.refresh, get_bind_apply, hs]
    simp only [bind_apply, modify_apply]
    cases hr : (RenderLayer.render s.rendered s.state.runs).2 with
    | shown => exact ⟨.ok (), rfl⟩
    | failed failure => exact ⟨.error failure, rfl⟩
    | panicked reason => exact absurd hr (h s hs reason)

theorem exists_refresh_eq (h : w.Orderly calm) (hcalm : NeverPanics calm) :
    ∃ shown, refresh n w = (.ok shown, (refresh n w).2) :=
  exists_refresh_eq_of_outcome fun s hs reason =>
    hcalm.outcome s.rendered s.state.runs reason (h.calm n s hs)

theorem Orderly.changeAndShow (h : w.Orderly calm) (hcalm : NeverPanics calm) (f : State → State) :
    (changeAndShow n f w).2.Orderly calm := by
  rw [changeAndShow_apply]
  exact (h.changeState f).refresh hcalm

theorem exists_changeAndShow_eq (h : w.Orderly calm) (hcalm : NeverPanics calm)
    (f : State → State) :
    ∃ shown, changeAndShow n f w = (.ok shown, (changeAndShow n f w).2) := by
  rw [changeAndShow_apply]
  exact exists_refresh_eq (h.changeState f) hcalm

theorem notifications_changeAndShow (n : Nat) (f : State → State) :
    (changeAndShow n f w).2.notifications = w.notifications := by
  rw [changeAndShow_apply]
  cases hs : (w.changeState n f).live? n with
  | none =>
    rw [refresh_of_none hs]
    rfl
  | some s => exact notifications_of_trace_append (trace_refresh hs) rfl

variable [EditableLayer E]

theorem Orderly.layOut (h : w.Orderly calm) (hcalm : NeverPanics calm) (layout : Layout) :
    (w.layOut n layout).Orderly calm := by
  have hedited : (w.changeLive n fun s =>
      { s with editable := EditableLayer.applyLayout s.editable layout }).Orderly calm :=
    h.changeLive fun _ hs => hs
  have hdrawn : (((w.changeLive n fun s =>
      { s with editable := EditableLayer.applyLayout s.editable layout }).record
      (.editableLayout n layout)).changeLive n fun s =>
      { s with rendered := RenderLayer.applyLayout s.rendered layout }).Orderly calm :=
    (hedited.record _).changeLive fun _ hs => hcalm.applyLayout _ _ hs
  exact hdrawn.record _

theorem Orderly.applyLayout (h : w.Orderly calm) (hcalm : NeverPanics calm) :
    (applyLayout n w).2.Orderly calm := by
  cases hs : w.live? n with
  | none =>
    rw [applyLayout_of_none hs]
    exact h
  | some s =>
    rw [applyLayout_of_some hs]
    exact (h.layOut hcalm s.state.layout).refresh hcalm

theorem exists_applyLayout_eq (h : w.Orderly calm) (hcalm : NeverPanics calm) :
    ∃ shown, applyLayout n w = (.ok shown, (applyLayout n w).2) := by
  cases hs : w.live? n with
  | none => exact ⟨.ok (), by rw [applyLayout_of_none hs]⟩
  | some s =>
    rw [applyLayout_of_some hs]
    exact exists_refresh_eq (h.layOut hcalm s.state.layout) hcalm

theorem notifications_applyLayout (n : Nat) :
    (applyLayout n w).2.notifications = w.notifications := by
  cases hs : w.live? n with
  | none => rw [applyLayout_of_none hs]
  | some s =>
    rw [applyLayout_of_some hs]
    cases hs' : (w.layOut n s.state.layout).live? n with
    | none =>
      rw [refresh_of_none hs']
      exact notifications_of_trace_append trace_layOut rfl
    | some s' =>
      refine (notifications_of_trace_append (trace_refresh hs') rfl).trans ?_
      exact notifications_of_trace_append trace_layOut rfl

end World

/-! ## Moves -/

variable [EditableLayer E] [RenderLayer R]

/-- One step of a world while something is set. -/
inductive SetMove (texts : Text → Prop) : World E R → World E R → Prop where
  | noted (words w) : SetMove texts w (w.record (.note words))
  | entered (n w) : SetMove texts w (w.enter n)
  | left (n w) : SetMove texts w (w.leave n)
  /-- A state is changed but for its text, and shown. -/
  | shown (n f w) (h : ∀ s, (f s).text = s.text) : SetMove texts w (World.changeAndShow n f w).2
  | laidOut (n f w) (h : ∀ s, (f s).text = s.text) :
      SetMove texts w (World.applyLayout n (w.changeState n f)).2
  /-- The editable layer is written, and the text is changed and shown. -/
  | written (n t w) (h : texts t) :
      SetMove texts w (World.changeAndShow n (fun s => { s with text := t })
        (w.changeLive n (World.writing fun e => EditableLayer.write e t))).2

/-- From one world to another by moves that set something, with these notifications made
between them. -/
inductive Course (texts : Text → Prop) : World E R → List Notification → World E R → Prop where
  | done (w) : Course texts w [] w
  | moved {w w' w'' es} (h : SetMove texts w w') (rest : Course texts w' es w'') :
      Course texts w es w''
  | told (n i t w) {w'' es} (rest : Course texts (w.record (.edited n i t)) es w'') :
      Course texts w (⟨n, i, t⟩ :: es) w''

variable {texts : Text → Prop} {calm : R → Prop} {w w' w'' : World E R}

theorem SetMove.notifications (h : SetMove texts w w') : w'.notifications = w.notifications := by
  cases h with
  | noted words w => exact World.notifications_of_trace_append World.trace_record rfl
  | entered n w => rfl
  | left n w => rw [World.notifications, World.trace_leave, World.notifications]
  | shown n f w _ => exact World.notifications_changeAndShow n f
  | laidOut n f w _ => exact World.notifications_applyLayout n
  | written n t w _ => exact World.notifications_changeAndShow n _

theorem SetMove.orderly (h : SetMove texts w w') (hcalm : NeverPanics calm)
    (hw : w.Orderly calm) : w'.Orderly calm := by
  cases h with
  | noted words w => exact hw.record _
  | entered n w => exact hw.enter
  | left n w => exact hw.leave
  | shown n f w _ => exact hw.changeAndShow hcalm f
  | laidOut n f w _ => exact (hw.changeState f).applyLayout hcalm
  | written n t w _ => exact (hw.written _).changeAndShow hcalm _

/-! ## Courses -/

namespace Course

theorem single (h : SetMove texts w w') : Course texts w [] w' := .moved h (.done w')

theorem trans {es es' : List Notification} (h : Course texts w es w')
    (h' : Course texts w' es' w'') : Course texts w (es ++ es') w'' := by
  induction h with
  | done w => exact h'
  | moved h _ ih => exact .moved h (ih h')
  | told n i t w _ ih => exact .told n i t w (ih h')

/-- What every move and every notification keeps, a course keeps. -/
theorem keeps {es : List Notification} (h : Course texts w es w') {P : World E R → Prop}
    (hmove : ∀ w w', SetMove texts w w' → P w → P w')
    (htold : ∀ w n i t, P w → P (w.record (.edited n i t))) (hw : P w) : P w' := by
  induction h with
  | done w => exact hw
  | moved h _ ih => exact ih (hmove _ _ h hw)
  | told n i t w _ ih => exact ih (htold w n i t hw)

theorem notifications {es : List Notification} (h : Course texts w es w') :
    w'.notifications = w.notifications ++ es := by
  induction h with
  | done w => rw [List.append_nil]
  | moved h _ ih => rw [ih, h.notifications]
  | told n i t w _ ih =>
    rw [ih, World.notifications_edited, List.append_assoc]
    rfl

theorem orderly {es : List Notification} (h : Course texts w es w') (hcalm : NeverPanics calm)
    (hw : w.Orderly calm) : w'.Orderly calm :=
  h.keeps (fun _ _ hmove hw => hmove.orderly hcalm hw) (fun _ _ _ _ hw => hw.record _) hw

end Course

/-! ## Actions that run their course -/

namespace Action

variable {α β : Type}

/-- The action comes to its end, by a course on which these notifications are made. -/
def Goes (texts : Text → Prop) (a : Action E R α) (w : World E R) (es : List Notification) : Prop :=
  ∃ x w', a w = (.ok x, w') ∧ Course texts w es w'

theorem goes_pure (x : α) : Goes texts (pure x) w [] := ⟨x, w, rfl, .done w⟩

theorem goes_bind (hcalm : NeverPanics calm) {a : Action E R α} {f : α → Action E R β}
    {es es' : List Notification} (hw : w.Orderly calm) (h : Goes texts a w es)
    (hf : ∀ x w', w'.Orderly calm → Goes texts (f x) w' es') :
    Goes texts (a >>= f) w (es ++ es') := by
  obtain ⟨x, w', ha, hcourse⟩ := h
  obtain ⟨y, w'', hfx, hcourse'⟩ := hf x w' (hcourse.orderly hcalm hw)
  refine ⟨y, w'', ?_, hcourse.trans hcourse'⟩
  rw [bind_apply, ha]
  exact hfx

theorem goes_catching {a : Action E R α} {es : List Notification} (h : Goes texts a w es) :
    Goes texts (catching a) w es := by
  obtain ⟨x, w', ha, hcourse⟩ := h
  exact ⟨.ok x, w', by simp only [catching, ha], hcourse⟩

end Action

namespace World

open Surface.Action

variable {n : Nat}

theorem goes_answer {m : Meaning E R} {request : Request E R} (hcalm : NeverPanics calm)
    (hw : w.Orderly calm) (hheld : w.Held n) (h : (Operation.on n request).Sets texts) :
    Goes texts (answer m n request) w [] := by
  have hshow (f : State → State) (hf : ∀ s, (f s).text = s.text) :
      Goes texts (do return replyOf (← changeAndShow n f)) w [] := by
    obtain ⟨shown, hshown⟩ := exists_changeAndShow_eq hw hcalm f (n := n)
    refine ⟨replyOf shown, _, ?_, .single (.shown n f w hf)⟩
    rw [bind_apply, hshown]
    rfl
  cases request with
  | setText t =>
    obtain ⟨shown, hshown⟩ := exists_changeAndShow_eq
      (hw.written fun e => EditableLayer.write e t) hcalm
      (fun s => { s with text := t }) (n := n)
    refine ⟨replyOf shown, _, ?_, .single (.written n t w h)⟩
    rw [answer, bind_apply, setText_apply (hw.wired n) hheld, hshown]
    rfl
  | setLanguage language => exact hshow _ fun _ => rfl
  | setPlainTextColor color => exact hshow _ fun _ => rfl
  | followTheme => exact hshow (fun s => { s with theme := w.notifier.theme }) fun _ => rfl
  | changeLayout change =>
    have hmove : SetMove texts w _ :=
      .laidOut n (fun s => { s with layout := change.apply s.layout }) w fun _ => rfl
    obtain ⟨shown, hshown⟩ := exists_applyLayout_eq
      (hw.changeState (n := n) fun s => { s with layout := change.apply s.layout }) hcalm (n := n)
    refine ⟨replyOf shown, _, ?_, .single hmove⟩
    rw [answer, bind_apply, modify_apply]
    dsimp only
    rw [bind_apply, hshown]
    rfl
  | _ => exact h.elim

/-- Operations that set something end at any depth, since nothing is nested in them. -/
theorem goes_run (hcalm : NeverPanics calm) (depth : Nat) {op : Operation E R}
    (h : op.Sets texts) (hw : w.Orderly calm) : Goes texts (Operation.run (depth + 1) op) w [] := by
  cases op with
  | on n request =>
    show Goes texts (Operation.step (Operation.run depth) (.on n request)) w []
    by_cases hhandles : w.handles n = 0
    · refine ⟨.nothing, w, ?_, .done w⟩
      rw [Operation.step, get_bind_apply, if_pos hhandles]
      rfl
    · have hheld := held_enter (held_of_handles hhandles)
      obtain ⟨reply, w', ha, hcourse⟩ :=
        goes_answer (m := Operation.run depth) hcalm hw.enter hheld h
      refine ⟨reply, w'.leave n, ?_, .moved (.entered n w) (hcourse.trans (.single (.left n w')))⟩
      rw [Operation.step, get_bind_apply, if_neg hhandles, holding, bind_apply, modify_apply]
      simp only [andFinally, ha]
  | _ => exact h.elim

theorem goes_script (hcalm : NeverPanics calm) (depth : Nat) :
    ∀ (script : Script E R) (w : World E R), script.Sets texts → w.Orderly calm →
      Goes texts (script.run (Operation.run (depth + 1))) w []
  | .done, _, _, _ => goes_pure _
  | .panic _, _, h, _ => h.elim
  | .note words next, w, h, hw => by
    obtain ⟨x, w', hnext, hcourse⟩ :=
      goes_script hcalm depth next (w.record (.note words)) h (hw.record _)
    exact ⟨x, w', hnext, .moved (.noted words w) hcourse⟩
  | .look next, w, h, hw => by
    obtain ⟨x, w', hnext, hcourse⟩ := goes_script hcalm depth (next w.snapshot) w (h _) hw
    exact ⟨x, w', hnext, hcourse⟩
  | .perform op next, w, h, hw => goes_bind hcalm hw (goes_run hcalm depth h.1 hw)
      fun reply w' hw' => goes_script hcalm depth (next reply) w' (h.2 reply) hw'
  | .attempt op next, w, h, hw => goes_bind hcalm hw (goes_catching (goes_run hcalm depth h.1 hw))
      fun outcome w' hw' => goes_script hcalm depth (next outcome) w' (h.2 outcome) hw'

/-! ## A round of observers -/

/-- Tells observers of an edit, one after the other. -/
def callEach (m : Meaning E R) (n : Nat) (t : Text) (observers : List (Text → Script E R)) :
    Action E R Unit :=
  observers.zipIdx.forM fun (body, i) => do
    modify (record (.edited n i t))
    (body t).run m

/-- Tells one observer of an edit, under its number. -/
def callOne (m : Meaning E R) (n : Nat) (t : Text) (o : (Text → Script E R) × Nat) :
    Action E R Unit := do
  modify (record (.edited n o.2 t))
  (o.1 t).run m

theorem goes_callOne (hcalm : NeverPanics calm) (depth : Nat) (n : Nat) (t : Text)
    (o : (Text → Script E R) × Nat) (h : (o.1 t).Sets texts) (hw : w.Orderly calm) :
    Goes texts (callOne (Operation.run (depth + 1)) n t o) w [⟨n, o.2, t⟩] := by
  obtain ⟨x, w', hrun, hcourse⟩ := goes_script hcalm depth (o.1 t)
    (w.record (.edited n o.2 t)) h (hw.record _)
  exact ⟨x, w', hrun, .told n o.2 t w hcourse⟩

/-- Each observer is told once, whatever the others set meanwhile. -/
theorem goes_callEach (hcalm : NeverPanics calm) (depth : Nat) (n : Nat) (t : Text)
    {observers : List (Text → Script E R)} (h : ∀ body ∈ observers, (body t).Sets texts)
    (hw : w.Orderly calm) :
    Goes texts (callEach (Operation.run (depth + 1)) n t observers) w
      (observers.zipIdx.map fun o => ⟨n, o.2, t⟩) := by
  have hround : ∀ (pairs : List ((Text → Script E R) × Nat)) (w : World E R),
      (∀ o ∈ pairs, (o.1 t).Sets texts) → w.Orderly calm →
      Goes texts (pairs.forM (callOne (Operation.run (depth + 1)) n t)) w
        (pairs.map fun o => ⟨n, o.2, t⟩) := by
    intro pairs
    induction pairs with
    | nil => exact fun _ _ _ => goes_pure _
    | cons o pairs ih =>
      intro w hpairs hw
      obtain ⟨hfirst, hrest⟩ := List.forall_mem_cons.mp hpairs
      exact goes_bind hcalm hw (goes_callOne hcalm depth n t o hfirst hw) fun _ w' hw' =>
        ih w' hrest hw'
  exact hround observers.zipIdx w (fun o ho => h o.1 (List.fst_mem_of_mem_zipIdx ho)) hw

end World

/-! ## A display that was not told to panic -/

theorem Rendering.ofResult_ne_panicked (result : Except Failure Unit) (reason : Text) :
    Rendering.ofResult result ≠ .panicked reason := by
  cases result <;> simp [Rendering.ofResult]

namespace Display

def Calm (d : Display) : Prop := ∀ reason, d.mode ≠ .panics reason

theorem calm_of_mode {d : Display} {mode : DisplayMode} (h : d.mode = mode)
    (hmode : ∀ reason, mode ≠ .panics reason) : d.Calm := fun reason => h ▸ hmode reason

theorem mode_render (d : Display) (runs : RunSequence) : (d.render runs).1.mode = d.mode := by
  cases hmode : d.mode <;> cases hscreen : d.screen <;> simp [Display.render, hmode, hscreen]

theorem layout_render (d : Display) (runs : RunSequence) :
    (d.render runs).1.layout = d.layout := by
  cases hmode : d.mode <;> cases hscreen : d.screen <;> simp [Display.render, hmode, hscreen]

theorem neverPanics : NeverPanics Calm := by
  constructor
  · intro d runs reason hcalm
    show (d.render runs).2 ≠ .panicked reason
    unfold Display.render
    cases hmode : d.mode with
    | works =>
      cases d.screen with
      | none => simp
      | some screen => exact Rendering.ofResult_ne_panicked (screen.render runs).1 reason
    | fails failure => simp
    | panics reason => exact absurd hmode (hcalm reason)
  · intro d runs hcalm reason
    show (d.render runs).1.mode ≠ .panics reason
    rw [mode_render]
    exact hcalm reason
  · exact fun d layout hcalm => hcalm

end Display
end Surface
end QueryView
