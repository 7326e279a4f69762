/-
Surfaces whose screen waits.

A screen that does not present by itself takes every frame, so nothing can fail while a surface
is set up.  Whatever was shown before is replaced: after a setting the screen is the one that
shows the state of the surface (`displaying`), as if it had shown nothing else.
`Displays` says so of a surface, one setting keeps it (`Displays.setting`), and so does a run of
settings (`Displays.settings`).
-/
import QueryView.Proofs.Surface.Edit
import QueryView.Proofs.Terminal.Cutoff
import QueryView.Surface.Screen
import QueryView.Surface.Setup

namespace QueryView

open Terminal (Screen)

namespace Surface

variable {E R : Type}

/-! ## Operations in turn -/

namespace Operation

variable [EditableLayer E] [RenderLayer R] {depth : Nat} {op : Operation E R}
  {ops : List (Operation E R)} {w w' : World E R}

theorem runInTurn_cons {reply : Reply} (h : run depth op w = (.ok reply, w'))
    (hreply : ∀ failure, reply ≠ .failed failure) (ops : List (Operation E R)) :
    runInTurn depth (op :: ops) w = runInTurn depth ops w' := by
  rw [runInTurn, Action.bind_apply, h]
  cases reply with
  | failed failure => exact absurd rfl (hreply failure)
  | _ => rfl

/-- What succeeds can be gone through first. -/
theorem runInTurn_append (h : runInTurn depth ops w = (.ok (.ok ()), w'))
    (more : List (Operation E R)) :
    runInTurn depth (ops ++ more) w = runInTurn depth more w' := by
  induction ops generalizing w with
  | nil =>
    cases h
    rfl
  | cons op ops ih =>
    rcases hop : run depth op w with ⟨abort | reply, w₁⟩
    · rw [runInTurn, Action.bind_apply, hop] at h
      cases h
    obtain ⟨failure, rfl⟩ | hreply :
        (∃ failure, reply = .failed failure) ∨ ∀ failure, reply ≠ .failed failure := by
      cases reply <;> simp
    · rw [runInTurn, Action.bind_apply, hop] at h
      cases h
    · rw [runInTurn_cons hop hreply] at h
      rw [List.cons_append, runInTurn_cons hop hreply, ih h]

end Operation

/-! ## Screens that wait -/

/-- The screen after it has shown a state. -/
def displaying (screen : Screen) (state : State) : Screen :=
  (screen.applyLayout state.layout).showing state.runs

theorem render_of_deferred (screen : Screen) (h : screen.autoPresent = false)
    (runs : RunSequence) : RenderLayer.render screen runs = (screen.showing runs, .shown) := by
  have hkept : screen.render runs = (.ok (), screen.showing runs) := by
    rw [Screen.render_eq, h]
    rfl
  show ((screen.render runs).2, Rendering.ofResult (screen.render runs).1) = _
  rw [hkept]
  rfl

namespace World

open Surface.Action

section Requests

variable {w w' : World E R} {n : Nat} {s : Live E R}

theorem replyOf_of_shown {shown : Action E R (Except Failure Unit)}
    (h : shown w = (.ok (.ok ()), w')) :
    (do return replyOf (← shown) : Action E R Reply) w = (.ok .done, w') := by
  rw [bind_apply, h]
  rfl

variable [RenderLayer R]

/-- A surface whose render layer takes the runs is shown. -/
theorem refresh_of_shown (hs : w.live? n = some s)
    (hshown : (RenderLayer.render s.rendered s.state.runs).2 = .shown) :
    refresh n w = (.ok (.ok ()), (refresh n w).2) := by
  rw [refresh, get_bind_apply, hs]
  simp only [bind_apply, modify_apply, hshown]
  rfl

variable [EditableLayer E]

theorem run_on_of_answer {request : Request E R} {depth : Nat} {reply : Reply}
    (hhandles : w.handles n ≠ 0)
    (h : answer (Operation.run depth) n request (w.enter n) = (.ok reply, w')) :
    Operation.run (depth + 1) (.on n request) w = (.ok reply, w'.leave n) := by
  rw [run_on_apply hhandles, andFinally, h]

/-- What is done to the render layer behind the surface's back changes nothing else of it. -/
theorem run_renderLayer (hs : w.live? n = some s) (hhandles : w.handles n ≠ 0)
    (change : R → R × Except Failure Unit) {rendered : R}
    (hchange : change s.rendered = (rendered, .ok ())) (depth : Nat) :
    ∃ w', Operation.run (depth + 1) (.on n (.renderLayer change)) w = (.ok .done, w') ∧
      w'.handles n = w.handles n ∧ w'.live? n = some { s with rendered } := by
  have hentered : (w.enter n).live? n = some s := live?_enter.trans hs
  have hanswer : answer (Operation.run depth) n (.renderLayer change) (w.enter n) =
      (.ok .done, (w.enter n).changeLive n fun s => { s with rendered }) := by
    rw [answer, get_bind_apply, hentered]
    simp only [hchange]
    rfl
  have hkept : ((w.enter n).changeLive n fun s => { s with rendered }).handles n = w.handles n := by
    rw [handles_changeLive, handles_enter]
  refine ⟨_, run_on_of_answer hhandles hanswer, handles_leave.trans hkept, ?_⟩
  rw [live?_leave_of_handles (hkept ▸ hhandles), live?_changeLive, if_pos rfl, hentered]
  rfl

theorem run_dispose (hs : w.live? n = some s) (hhandles : w.handles n ≠ 0) (depth : Nat) :
    ∃ w', Operation.run (depth + 1) (.on n .dispose) w = (.ok .done, w') ∧
      w'.live? n = some { s with subscription := none } := by
  have hanswer : answer (Operation.run depth) n (.dispose : Request E R) (w.enter n) =
      (.ok .done, (w.enter n).unsubscribeSurface n) := rfl
  have hkept : ((w.enter n).unsubscribeSurface n).handles n = w.handles n := by
    rw [handles_unsubscribeSurface, handles_enter]
  refine ⟨_, run_on_of_answer hhandles hanswer, ?_⟩
  rw [live?_leave_of_handles (hkept ▸ hhandles), live?_unsubscribeSurface, if_pos rfl, live?_enter,
    hs]
  rfl

end Requests

/-! ## Settings -/

/-- The surface shows its state on a screen, and nobody but itself hears of its edits. -/
structure Displays (w : World E Screen) (n : Nat) (screen : Screen) (state : State) : Prop where
  handles : w.handles n ≠ 0
  wired : w.WiredAt n
  live : ∃ s, w.live? n = some s ∧ s.state = state ∧ s.rendered = displaying screen state

namespace Displays

variable {w w' : World E Screen} {n : Nat} {screen : Screen} {state : State}

theorem of_live {state' : State} {s' : Live E Screen} (h : w.Displays n screen state)
    (hhandles : w'.handles n = w.handles n) (hhook : w'.hook? n = w.hook? n)
    (hlive : w'.live? n = some s') (hstate : s'.state = state')
    (hrendered : s'.rendered = displaying screen state') : w'.Displays n screen state' where
  handles := hhandles ▸ h.handles
  wired handler hh := h.wired handler (hhook ▸ hh)
  live := ⟨s', hlive, hstate, hrendered⟩

theorem enter (h : w.Displays n screen state) : (w.enter n).Displays n screen state := by
  obtain ⟨s, hs, hstate, hrendered⟩ := h.live
  exact h.of_live handles_enter hook?_enter (live?_enter.trans hs) hstate hrendered

theorem leave (h : w.Displays n screen state) : (w.leave n).Displays n screen state := by
  obtain ⟨s, hs, hstate, hrendered⟩ := h.live
  exact h.of_live handles_leave hook?_leave ((live?_leave_of_handles h.handles).trans hs) hstate
    hrendered

theorem written (h : w.Displays n screen state) (change : E → E × List Text) :
    (w.changeLive n (writing change)).Displays n screen state := by
  obtain ⟨s, hs, hstate, hrendered⟩ := h.live
  have hwritten : (w.changeLive n (writing change)).live? n = some (writing change s) := by
    rw [live?_changeLive, if_pos rfl, hs, Option.map_some]
  exact h.of_live handles_changeLive hook?_changeLive hwritten hstate hrendered

/-- What is shown of a state replaces what was shown of another one. -/
theorem changeAndShow (h : w.Displays n screen state) (hdeferred : screen.autoPresent = false)
    {f : State → State} (hlayout : (f state).layout = state.layout) :
    ∃ w', changeAndShow n f w = (.ok (.ok ()), w') ∧ w'.Displays n screen (f state) := by
  obtain ⟨s, hs, rfl, hrendered⟩ := h.live
  have hchanged := live?_changeState hs f
  have hrender := render_of_deferred s.rendered (by rw [hrendered]; exact hdeferred)
    (f s.state).runs
  have hdisplaying : s.rendered.showing (f s.state).runs = displaying screen (f s.state) := by
    rw [hrendered, displaying, displaying, hlayout]
    rfl
  have hlive : (refresh n (w.changeState n f)).2.live? n =
      some (rendering { s with state := f s.state }) := by
    rw [live?_refresh, if_pos rfl, hchanged, Option.map_some]
  refine ⟨_, ?_, h.of_live (handles_refresh.trans handles_changeLive)
    (hook?_refresh.trans hook?_changeLive) hlive rfl ?_⟩
  · rw [changeAndShow_apply]
    exact refresh_of_shown hchanged (congrArg Prod.snd hrender)
  · exact (congrArg Prod.fst hrender).trans hdisplaying

variable [EditableLayer E]

theorem applyLayout (h : w.Displays n screen state) (hdeferred : screen.autoPresent = false)
    (f : State → State) :
    ∃ w', applyLayout n (w.changeState n f) = (.ok (.ok ()), w') ∧
      w'.Displays n screen (f state) := by
  obtain ⟨s, hs, rfl, hrendered⟩ := h.live
  have hchanged := live?_changeState hs f
  have hlaid : ((w.changeState n f).layOut n (f s.state).layout).live? n =
      some (laying (f s.state).layout { s with state := f s.state }) := by
    rw [live?_layOut, if_pos rfl, hchanged, Option.map_some]
  have hrender := render_of_deferred (s.rendered.applyLayout (f s.state).layout)
    (by rw [hrendered]; exact hdeferred) (f s.state).runs
  have hdisplaying : (s.rendered.applyLayout (f s.state).layout).showing (f s.state).runs =
      displaying screen (f s.state) := by
    rw [hrendered]
    rfl
  have hlive : (refresh n ((w.changeState n f).layOut n (f s.state).layout)).2.live? n =
      some (rendering (laying (f s.state).layout { s with state := f s.state })) := by
    rw [live?_refresh, if_pos rfl, hlaid, Option.map_some]
  refine ⟨_, ?_, h.of_live (handles_refresh.trans (handles_layOut.trans handles_changeLive))
    (hook?_refresh.trans (hook?_layOut.trans hook?_changeLive)) hlive rfl ?_⟩
  · rw [applyLayout_of_some hchanged]
    exact refresh_of_shown hlaid (congrArg Prod.snd hrender)
  · exact (congrArg Prod.fst hrender).trans hdisplaying

/-- After a setting the surface shows the state with that setting. -/
theorem setting (h : w.Displays n screen state) (hdeferred : screen.autoPresent = false)
    (depth : Nat) (setting : Setting) :
    ∃ w', Operation.run (depth + 1) (.on n setting.request) w = (.ok .done, w') ∧
      w'.Displays n screen (setting.apply state) := by
  suffices hanswer : ∃ w', answer (Operation.run depth) n setting.request (w.enter n) =
      (.ok .done, w') ∧ w'.Displays n screen (setting.apply state) by
    obtain ⟨w', hanswer, hdisplays⟩ := hanswer
    exact ⟨w'.leave n, run_on_of_answer h.handles hanswer, hdisplays.leave⟩
  cases setting with
  | text t =>
    obtain ⟨w', hshown, hdisplays⟩ := (h.enter.written fun e => EditableLayer.write e t)
      |>.changeAndShow hdeferred (f := fun s => { s with text := t }) rfl
    have hset : setText (Operation.run depth) n t (w.enter n) = (.ok (.ok ()), w') := by
      rw [setText_apply h.enter.wired (held_of_handles h.enter.handles), hshown]
    exact ⟨w', replyOf_of_shown hset, hdisplays⟩
  | language l =>
    obtain ⟨w', hshown, hdisplays⟩ :=
      h.enter.changeAndShow hdeferred (f := fun s => { s with language := l }) rfl
    exact ⟨w', replyOf_of_shown hshown, hdisplays⟩
  | plainTextColor c =>
    obtain ⟨w', hshown, hdisplays⟩ :=
      h.enter.changeAndShow hdeferred (f := fun s => { s with plainTextColor := c }) rfl
    exact ⟨w', replyOf_of_shown hshown, hdisplays⟩
  | layout change =>
    obtain ⟨w', hshown, hdisplays⟩ :=
      h.enter.applyLayout hdeferred fun s => { s with layout := change.apply s.layout }
    refine ⟨w', ?_, hdisplays⟩
    rw [Setting.request, answer, bind_apply, modify_apply]
    exact replyOf_of_shown hshown

/-- After a run of settings the surface shows the state with all of them. -/
theorem settings (h : w.Displays n screen state) (hdeferred : screen.autoPresent = false)
    (depth : Nat) (settings : List Setting) :
    ∃ w', Operation.runInTurn (depth + 1) (settings.map fun setting => .on n setting.request) w =
        (.ok (.ok ()), w') ∧
      w'.Displays n screen (settings.foldl Setting.apply state) := by
  induction settings generalizing w state with
  | nil => exact ⟨w, rfl, h⟩
  | cons setting settings ih =>
    obtain ⟨w₁, hfirst, hdisplays⟩ := h.setting hdeferred depth setting
    obtain ⟨w', hrest, hall⟩ := ih hdisplays
    exact ⟨w', (Operation.runInTurn_cons hfirst nofun _).trans hrest, hall⟩

/-- The first surface of a world shows the state that it starts with. -/
theorem first (theme : Theme) (editable : E) (hdeferred : screen.autoPresent = false)
    (depth : Nat) :
    ∃ w', Operation.run (depth + 1) (.create editable screen) (World.initial theme) =
        (.ok (.created 0), w') ∧
      w'.Displays 0 screen (State.initial theme) := by
  obtain ⟨sink, frame, autoPresent, wrapWidth, escapes, clears, layout⟩ := screen
  cases hdeferred
  exact ⟨_, rfl, nofun, nofun, _, rfl, rfl, rfl⟩

end Displays
end World
end Surface
end QueryView
