/-
Failures to render make no difference.

The main theorem, `failures_make_no_difference`, compares two executions of the same sequence
of operations, over render layers of which one may fail where the other does not.  After every
operation the two worlds are the same but for the render layers, and the same things have
happened in them but for the outcomes of rendering.  In particular the same observers were told
of the same edits, and the same callbacks of the same themes.

The proof goes through the definitions once.  What an operation does is parallel in the two
executions if what is nested in it is; a failure that is answered to somebody is the only
difference, and it is nobody's business until the embedder has it.
-/
import QueryView.Proofs.Surface.Parallel
import QueryView.Proofs.Surface.Setter

namespace QueryView
namespace Surface

variable {E R₁ R₂ : Type} [RenderLayer R₁] [RenderLayer R₂] {like : R₁ → R₂ → Prop}

/-! ## Showing -/

namespace World

open Surface.Action

variable {n : Nat}

/-- What showing a surface ends with when its render layer answers in a certain way. -/
def answerOf : Rendering → Except Abort (Except Failure Unit)
  | .shown => .ok (.ok ())
  | .failed failure => .ok (.error failure)
  | .panicked reason => .error (.panicked reason)

theorem refresh_fst {R : Type} [RenderLayer R] {w : World E R} {s : Live E R}
    (hs : w.live? n = some s) :
    (refresh n w).1 = answerOf (RenderLayer.render s.rendered s.state.runs).2 := by
  rw [refresh, get_bind_apply, hs]
  simp only [bind_apply, modify_apply]
  cases (RenderLayer.render s.rendered s.state.runs).2 <;> rfl

theorem answerOf_eq_ok_iff (outcome : Rendering) :
    answerOf outcome = .ok (.ok ()) ↔ outcome = .shown := by
  cases outcome <;> simp [answerOf]

theorem endAlike_answerOf {outcome₁ outcome₂ : Rendering}
    (h : outcome₁.regardless = outcome₂.regardless) :
    EndAlike (Whatever _ _) (answerOf outcome₁) (answerOf outcome₂) := by
  cases outcome₁ <;> cases outcome₂ <;> simp [Rendering.regardless] at h
  case panicked.panicked => exact h ▸ .broken _
  all_goals exact .ended trivial

section
variable (hlike : Interchangeable like)
include hlike

/-- The runs are stored and handed over before anything can fail. -/
theorem parallel_refresh (n : Nat) :
    Parallel like (Whatever _ _) (refresh n : Action E R₁ _) (refresh n : Action E R₂ _) := by
  intro w₁ w₂ hw
  rcases rel_cases (hw.live? n) with ⟨hnone₁, hnone₂⟩ | ⟨s₁, s₂, hs₁, hs₂, hs⟩
  · rw [ParallelAt, refresh_of_none hnone₁, refresh_of_none hnone₂]
    exact ⟨.ended trivial, hw⟩
  · have hruns : s₁.state.runs = s₂.state.runs := by rw [hs.state]
    have hrender := hlike.render s₁.rendered s₂.rendered s₁.state.runs hs.rendered
    have houtcome := hlike.outcome s₁.rendered s₂.rendered s₁.state.runs hs.rendered
    rw [ParallelAt, refresh_fst hs₁, refresh_fst hs₂, refresh_world hs₁, refresh_world hs₂]
    rw [hruns] at hrender houtcome ⊢
    refine ⟨endAlike_answerOf houtcome, ?_⟩
    have hshown : World.Twin like
        (w₁.changeLive n fun s => { s with
          runs := s₂.state.runs, rendered := (RenderLayer.render s₁.rendered s₂.state.runs).1 })
        (w₂.changeLive n fun s => { s with
          runs := s₂.state.runs, rendered := (RenderLayer.render s₂.rendered s₂.state.runs).1 }) :=
      hw.changeLive fun _ _ hs => { hs with runs := rfl, rendered := hrender }
    refine hshown.record ?_
    show Event.rendered n s₁.state.runs _ = Event.rendered n s₂.state.runs _
    rw [hruns]
    exact congrArg (Event.rendered n s₂.state.runs) houtcome

theorem parallel_changeAndShow (n : Nat) (f : State → State) :
    Parallel like (Whatever _ _) (changeAndShow n f : Action E R₁ _)
      (changeAndShow n f : Action E R₂ _) :=
  parallel_bind (parallel_modify fun _ _ hw => hw.changeState f) fun _ _ _ =>
    parallel_refresh hlike n

theorem parallel_followTheme (n : Nat) :
    Parallel like (Whatever _ _) (followTheme n : Action E R₁ _)
      (followTheme n : Action E R₂ _) := by
  refine parallel_bind parallel_get fun w₁ w₂ hw => ?_
  rw [hw.notifier.theme]
  exact parallel_changeAndShow hlike n _

variable [EditableLayer E]

omit hlike in
theorem applyLayout_fst {R : Type} [RenderLayer R] {w : World E R} {s : Live E R}
    (hs : w.live? n = some s) :
    (applyLayout n w).1 = answerOf (RenderLayer.render
      (RenderLayer.applyLayout s.rendered s.state.layout) s.state.runs).2 := by
  have hlaid : (w.layOut n s.state.layout).live? n = some (laying s.state.layout s) := by
    rw [live?_layOut, if_pos rfl, hs]
    rfl
  rw [applyLayout_of_some hs, refresh_fst hlaid]
  rfl

theorem Twin.layOut {w₁ : World E R₁} {w₂ : World E R₂} (hw : World.Twin like w₁ w₂) (n : Nat)
    (layout : Layout) : World.Twin like (w₁.layOut n layout) (w₂.layOut n layout) := by
  have hedited : World.Twin like
      (w₁.changeLive n fun s =>
        { s with editable := EditableLayer.applyLayout s.editable layout })
      (w₂.changeLive n fun s =>
        { s with editable := EditableLayer.applyLayout s.editable layout }) :=
    hw.changeLive fun _ _ hs =>
      { hs with editable := congrArg (EditableLayer.applyLayout · layout) hs.editable }
  refine record (changeLive (hedited.record rfl) fun _ _ hs => ?_) rfl
  exact { hs with rendered := hlike.applyLayout _ _ _ hs.rendered }

theorem parallel_applyLayout (n : Nat) :
    Parallel like (Whatever _ _) (applyLayout n : Action E R₁ _)
      (applyLayout n : Action E R₂ _) := by
  intro w₁ w₂ hw
  rcases rel_cases (hw.live? n) with ⟨hnone₁, hnone₂⟩ | ⟨s₁, s₂, hs₁, hs₂, hs⟩
  · rw [ParallelAt, applyLayout_of_none hnone₁, applyLayout_of_none hnone₂]
    exact ⟨.ended trivial, hw⟩
  · rw [ParallelAt, applyLayout_of_some hs₁, applyLayout_of_some hs₂, hs.state]
    refine parallel_refresh hlike n _ _ ?_
    exact Twin.layOut hlike hw n s₂.state.layout

/-! ## Creating a surface -/

omit hlike [EditableLayer E] in
theorem Twin.withFresh {w₁ : World E R₁} {w₂ : World E R₂} (hw : World.Twin like w₁ w₂)
    (editable : E) {rendered₁ : R₁} {rendered₂ : R₂} (h : like rendered₁ rendered₂) :
    World.Twin like (w₁.withFresh editable rendered₁) (w₂.withFresh editable rendered₂) := by
  have hid := hw.notifier.nextId
  have hlive : Live.Twin like (w₁.fresh editable rendered₁) (w₂.fresh editable rendered₂) :=
    ⟨congrArg State.initial hw.notifier.theme, rfl, rfl, h, rfl, .nil, congrArg some hid⟩
  have hwatcher : Watcher.Twin like (.surface w₁.slots.length : Watcher E R₁)
      (.surface w₂.slots.length) := hw.slots.length_eq ▸ .surface _
  have hnotifier : Notifier.Twin like (w₁.withFresh editable rendered₁).notifier
      (w₂.withFresh editable rendered₂).notifier :=
    { hw.notifier with
      observers := List.rel_append hw.notifier.observers (.cons ⟨hid, hwatcher⟩ .nil)
      nextId := congrArg (· + 1) hid }
  exact { hw with
    slots := List.rel_append hw.slots (.cons ⟨.some hlive, rfl, rfl, .none⟩ .nil)
    notifier := hnotifier }

/-- A new surface is shown in both worlds or in neither. -/
theorem parallelAt_applyLayout_fresh {w₁ : World E R₁} {w₂ : World E R₂}
    (hw : World.Twin like w₁ w₂) (editable : E) {rendered₁ : R₁} {rendered₂ : R₂}
    (h : like rendered₁ rendered₂) (hfirst : ∀ theme, firstOutcome rendered₁ theme = .shown ↔
      firstOutcome rendered₂ theme = .shown) (hn : n = w₁.slots.length) :
    ParallelAt like (fun shown₁ shown₂ => shown₁ = .ok () ↔ shown₂ = .ok ()) (applyLayout n)
      (applyLayout n) ((w₁.withFresh editable rendered₁).enter n)
      ((w₂.withFresh editable rendered₂).enter n) := by
  have hs₁ : ((w₁.withFresh editable rendered₁).enter n).live? n =
      some (w₁.fresh editable rendered₁) := by
    rw [live?_enter, live?_withFresh, if_pos hn]
  have hs₂ : ((w₂.withFresh editable rendered₂).enter n).live? n =
      some (w₂.fresh editable rendered₂) := by
    rw [live?_enter, live?_withFresh, if_pos (hn.trans hw.slots.length_eq)]
  obtain ⟨hend, hworld⟩ :=
    parallel_applyLayout hlike n _ _ ((hw.withFresh editable h).enter n)
  refine ⟨hend.imp fun shown₁ shown₂ hshown₁ hshown₂ => ?_, hworld⟩
  have hboth : answerOf (firstOutcome rendered₁ w₁.notifier.theme) = .ok (.ok ()) ↔
      answerOf (firstOutcome rendered₂ w₂.notifier.theme) = .ok (.ok ()) := by
    rw [answerOf_eq_ok_iff, answerOf_eq_ok_iff, hw.notifier.theme]
    exact hfirst _
  rw [applyLayout_fst hs₁] at hshown₁
  rw [applyLayout_fst hs₂] at hshown₂
  rw [show answerOf (firstOutcome rendered₁ w₁.notifier.theme) = .ok shown₁ from hshown₁,
    show answerOf (firstOutcome rendered₂ w₂.notifier.theme) = .ok shown₂ from hshown₂] at hboth
  simpa only [Except.ok.injEq] using hboth

/-- A surface that could not be shown is given up, so this is the one place where a failure
counts. -/
theorem parallel_create (editable : E) {rendered₁ : R₁} {rendered₂ : R₂}
    (h : like rendered₁ rendered₂) (hfirst : ∀ theme, firstOutcome rendered₁ theme = .shown ↔
      firstOutcome rendered₂ theme = .shown) :
    Parallel like (fun x y => x.regardless = y.regardless) (create editable rendered₁)
      (create editable rendered₂) := by
  intro w₁ w₂ hw
  have hlaid := parallelAt_applyLayout_fresh hlike hw editable h hfirst rfl
  rw [ParallelAt, create, create, get_bind_apply, get_bind_apply, bind_apply, bind_apply,
    modify_apply, modify_apply]
  show ParallelAt like _ (holding w₁.slots.length _) (holding w₂.slots.length _)
    (w₁.withFresh editable rendered₁) (w₂.withFresh editable rendered₂)
  rw [← hw.slots.length_eq]
  refine parallelAt_holding (parallelAt_bind hlaid fun shown₁ shown₂ hiff => ?_)
  rcases shown₁ with failure₁ | ⟨⟩ <;> rcases shown₂ with failure₂ | ⟨⟩
  · exact parallel_pure rfl
  · cases hiff.mpr rfl
  · cases hiff.mp rfl
  · refine parallel_bind (parallel_modify fun _ _ hw => hw.changeSlot fun _ _ hslot => ?_)
      fun _ _ _ => parallel_pure rfl
    exact { hslot with handles := rfl }

end

/-! ## What callbacks own -/

section
open World Surface.Action

theorem parallel_dropBorrowed (belonging : Belonging) :
    Parallel like (Whatever Unit Unit) (dropBorrowed belonging : Action E R₁ Unit)
      (dropBorrowed belonging : Action E R₂ Unit) := by
  cases belonging with
  | subscription i =>
    refine parallel_bind parallel_get fun w₁ w₂ hw => ?_
    rw [hw.held? i]
    split
    · exact parallel_pure trivial
    · next id _ =>
      exact parallel_bind (parallel_modify fun _ _ hw => hw.strand i id) fun _ _ _ =>
        parallel_throw _
  | handle n =>
    refine parallel_bind parallel_get fun w₁ w₂ hw => parallel_ite ?_ (parallel_pure trivial) ?_
    · rw [hw.handles n]
    · refine parallel_bind (parallel_modify fun _ _ hw => hw.dropHandle n) fun _ _ _ => ?_
      refine parallel_bind parallel_get fun w₁ w₂ hw =>
        parallel_ite ?_ (parallel_pure trivial) ?_
      · rw [hw.isHeld n]
      · refine parallel_bind (parallel_modify fun _ _ hw => hw.strandSurface n) fun _ _ _ => ?_
        refine parallel_ite ?_ (parallel_throw _) (parallel_pure trivial)
        rw [hw.subscription n]

theorem parallel_retire {drop₁ : Belonging → Action E R₁ Unit}
    {drop₂ : Belonging → Action E R₂ Unit}
    (hdrop : ∀ belonging, Parallel like (Whatever Unit Unit) (drop₁ belonging) (drop₂ belonging))
    (i : Nat) : Parallel like (Whatever Unit Unit) (retire drop₁ i) (retire drop₂ i) := by
  refine parallel_bind parallel_get fun w₁ w₂ hw => parallel_ite ?_ (parallel_pure trivial) ?_
  · rw [hw.keeps i]
  · refine parallel_bind (parallel_modify fun _ _ hw => hw.strip i) fun _ _ _ => ?_
    rw [hw.belongingsOf i]
    exact parallel_dropEach (List.forall₂_same.mpr fun _ _ => rfl) fun belonging _ heq =>
      heq ▸ hdrop belonging

theorem parallel_giveBack (i id : Nat) :
    Parallel like (Whatever Unit Unit) (giveBack i id : Action E R₁ Unit)
      (giveBack i id : Action E R₂ Unit) := by
  refine parallel_bind (parallel_modify fun _ _ hw => hw.unsubscribe i id) fun _ _ _ => ?_
  refine parallel_bind parallel_get fun w₁ w₂ hw => parallel_ite ?_ ?_ (parallel_pure trivial)
  · rw [hw.notifierAlive]
  · exact parallel_retire parallel_dropBorrowed i

theorem parallel_dropOwned (belonging : Belonging) :
    Parallel like (Whatever Unit Unit) (dropOwned belonging : Action E R₁ Unit)
      (dropOwned belonging : Action E R₂ Unit) := by
  cases belonging with
  | subscription i =>
    refine parallel_bind parallel_get fun w₁ w₂ hw => ?_
    rw [hw.held? i]
    split
    · exact parallel_pure trivial
    · exact parallel_giveBack i _
  | handle n =>
    refine parallel_bind parallel_get fun w₁ w₂ hw => parallel_ite ?_ (parallel_pure trivial) ?_
    · rw [hw.handles n]
    · exact parallel_holding (parallel_modify fun _ _ hw => hw.dropHandle n)

theorem parallel_letGo {x₁ : Nat × Watcher E R₁} {x₂ : Nat × Watcher E R₂}
    (h : Watcher.Twin like x₁.2 x₂.2) :
    Parallel like (Whatever Unit Unit) (letGo x₁) (letGo x₂) := by
  obtain ⟨id₁, watcher₁⟩ := x₁
  obtain ⟨id₂, watcher₂⟩ := x₂
  refine parallel_bind (parallel_modify fun _ _ hw => hw.finishFirst) fun _ _ _ => ?_
  cases h with
  | surface n => exact parallel_pure trivial
  | observer i hbody => exact parallel_retire parallel_dropOwned i

theorem parallel_round {call₁ : Nat × Watcher E R₁ → Action E R₁ Unit}
    {call₂ : Nat × Watcher E R₂ → Action E R₂ Unit} {xs₁ : List (Nat × Watcher E R₁)}
    {xs₂ : List (Nat × Watcher E R₂)} (hxs : WatchersTwin like xs₁ xs₂)
    (hcall : ∀ x₁ x₂, Watcher.Twin like x₁.2 x₂.2 →
      Parallel like (Whatever Unit Unit) (call₁ x₁) (call₂ x₂)) :
    Parallel like (Whatever Unit Unit) (round call₁ xs₁) (round call₂ xs₂) := by
  refine parallel_bind (parallel_modify fun _ _ hw => hw.beginRound hxs) fun _ _ _ => ?_
  intro w₁ w₂ hw
  refine parallelAt_andFinally ?_ fun _ _ hw => hw.endRound
  refine parallel_unwinding ?_ ?_ w₁ w₂ hw
  · exact parallel_forM hxs fun x₁ x₂ hx =>
      parallel_bind (hcall x₁ x₂ hx.2) fun _ _ _ => parallel_letGo hx.2
  · refine parallel_bind parallel_get fun w₁ w₂ hw => ?_
    exact parallel_dropEach (forall₂_headD hw.rounds) fun _ _ hx => parallel_letGo hx.2

end

/-! ## Callbacks and edits -/

/-- The two replies differ at most in a failure. -/
abbrev SameReply (reply₁ reply₂ : Reply) : Prop := reply₁.regardless = reply₂.regardless

theorem parallel_changed {f₁ : World E R₁ → World E R₁} {f₂ : World E R₂ → World E R₂}
    {reply : Reply}
    (h : ∀ w₁ w₂, World.Twin like w₁ w₂ → World.Twin like (f₁ w₁) (f₂ w₂)) :
    Parallel like SameReply (do modify f₁; return reply) (do modify f₂; return reply) :=
  parallel_bind (parallel_modify h) fun _ _ _ => parallel_pure rfl

section
variable {m₁ : Meaning E R₁} {m₂ : Meaning E R₂}
variable (hm : ∀ op₁ op₂, Operation.Twin like op₁ op₂ → Parallel like SameReply (m₁ op₁) (m₂ op₂))
include hm

theorem parallel_script : ∀ (script₁ : Script E R₁) (script₂ : Script E R₂),
    Script.Twin like script₁ script₂ →
      Parallel like (Whatever _ _) (script₁.run m₁) (script₂.run m₂)
  | .done, _, h => by
    cases h
    exact parallel_pure trivial
  | .panic reason, _, h => by
    cases h
    exact parallel_throw _
  | .note words next, _, h => by
    cases h with
    | note _ hnext =>
      exact parallel_bind (parallel_modify fun _ _ hw => hw.record rfl) fun _ _ _ =>
        parallel_script next _ hnext
  | .look next, _, h => by
    cases h with
    | look hnext =>
      exact parallel_bind parallel_get fun w₁ w₂ hw =>
        parallel_script (next w₁.snapshot) _ (hnext _ _ hw.snapshot)
  | .perform op next, _, h => by
    cases h with
    | perform hop hnext =>
      exact parallel_bind (hm _ _ hop) fun reply₁ reply₂ hreply =>
        parallel_script (next reply₁) _ (hnext reply₁ reply₂ hreply)
  | .attempt op next, _, h => by
    cases h with
    | attempt hop hnext =>
      exact parallel_bind (parallel_catching (hm _ _ hop)) fun outcome₁ outcome₂ houtcome =>
        parallel_script (next outcome₁) _ (hnext outcome₁ outcome₂ houtcome)

theorem parallel_notifyObservers (n : Nat) (t : Text) :
    Parallel like (Whatever _ _) (notifyObservers m₁ n t) (notifyObservers m₂ n t) := by
  refine parallel_bind parallel_get fun w₁ w₂ hw => ?_
  have hobservers : List.Forall₂ (fun body₁ body₂ => ∀ t, Script.Twin like (body₁ t) (body₂ t))
      (((w₁.live? n).map Live.observers).getD []) (((w₂.live? n).map Live.observers).getD []) := by
    rcases rel_cases (hw.live? n) with ⟨hnone₁, hnone₂⟩ | ⟨s₁, s₂, hs₁, hs₂, hs⟩
    · rw [hnone₁, hnone₂]
      exact .nil
    · rw [hs₁, hs₂]
      exact hs.observers
  refine parallel_forM (forall₂_zipIdx hobservers 0) ?_
  rintro ⟨body₁, i⟩ ⟨body₂, j⟩ ⟨hbody, hij⟩
  obtain rfl : i = j := hij
  exact parallel_bind (parallel_modify fun _ _ hw => hw.record rfl) fun _ _ _ =>
    parallel_script hm _ _ (hbody t)

variable (hlike : Interchangeable like)
include hlike

/-- The observers are told before it matters what became of showing the text. -/
theorem parallel_takeEdit (n : Nat) (t : Text) :
    Parallel like (Whatever _ _) (takeEdit m₁ n t) (takeEdit m₂ n t) := by
  refine parallel_bind parallel_get fun w₁ w₂ hw => ?_
  refine parallel_ite ?_ (parallel_pure trivial) ?_
  · rw [hw.any_live? n fun _ _ hs => hs.suppressing]
  · refine parallel_bind (parallel_changeAndShow hlike n _) fun _ _ _ => ?_
    exact parallel_bind (parallel_notifyObservers hm n t) fun _ _ _ => parallel_pure trivial

theorem parallel_report (n : Nat) (t : Text) :
    Parallel like (Whatever _ _) (report m₁ n t) (report m₂ n t) := by
  refine parallel_bind parallel_get fun w₁ w₂ hw => ?_
  rcases rel_cases (hw.hook? n) with ⟨hnone₁, hnone₂⟩ | ⟨handler₁, handler₂, hh₁, hh₂, hh⟩
  · rw [hnone₁, hnone₂]
    exact parallel_pure trivial
  · rw [hh₁, hh₂]
    cases hh with
    | edits k =>
      refine parallel_bind parallel_get fun w₁ w₂ hw => parallel_ite ?_ ?_ (parallel_pure trivial)
      · rw [hw.isSome_live? k]
      · refine parallel_holding ?_
        exact parallel_bind (parallel_takeEdit hm hlike k t) fun _ _ _ => parallel_pure trivial
    | script hbody => exact parallel_script hm _ _ (hbody t)

theorem parallel_editLayer (n : Nat) (change : E → E × List Text) :
    Parallel like (Whatever _ _) (editLayer m₁ n change) (editLayer m₂ n change) := by
  refine parallel_bind parallel_get fun w₁ w₂ hw => ?_
  rcases rel_cases (hw.live? n) with ⟨hnone₁, hnone₂⟩ | ⟨s₁, s₂, hs₁, hs₂, hs⟩
  · rw [hnone₁, hnone₂]
    exact parallel_pure trivial
  · rw [hs₁, hs₂]
    dsimp only
    rw [hs.editable]
    rcases change s₂.editable with ⟨editable, reports⟩
    dsimp only
    refine parallel_bind (parallel_modify fun _ _ hw => hw.changeLive fun _ _ hs => ?_)
      fun _ _ _ => ?_
    · exact { hs with editable := rfl }
    · exact parallel_forM (List.forall₂_same.mpr fun t _ => rfl) fun t _ ht =>
        ht ▸ parallel_report hm hlike n t

theorem parallel_tell (theme : Theme) {watcher₁ : Watcher E R₁} {watcher₂ : Watcher E R₂}
    (h : Watcher.Twin like watcher₁ watcher₂) :
    Parallel like (Whatever _ _) (tell m₁ theme watcher₁) (tell m₂ theme watcher₂) := by
  cases h with
  | surface n =>
    refine parallel_bind parallel_get fun w₁ w₂ hw => parallel_ite ?_ ?_ (parallel_pure trivial)
    · rw [hw.isSome_live? n]
    · refine parallel_holding ?_
      exact parallel_bind (parallel_followTheme hlike n) fun _ _ _ => parallel_pure trivial
  | observer i hbody =>
    exact parallel_bind (parallel_modify fun _ _ hw => hw.record rfl) fun _ _ _ =>
      parallel_script hm _ _ (hbody theme)

theorem parallel_setTheme (theme : Theme) :
    Parallel like (Whatever _ _) (setTheme m₁ theme) (setTheme m₂ theme) := by
  refine parallel_bind parallel_get fun w₁ w₂ hw => parallel_ite ?_ (parallel_pure trivial) ?_
  · rw [hw.notifier.theme]
  · refine parallel_bind (parallel_modify fun _ _ hw => hw.withTheme theme) fun _ _ _ => ?_
    exact parallel_round hw.notifier.observers fun x y hxy => parallel_tell hm hlike theme hxy

variable [EditableLayer E]

theorem parallel_setText (n : Nat) (t : Text) :
    Parallel like (Whatever _ _) (setText m₁ n t) (setText m₂ n t) :=
  parallel_bind (parallel_suppressing (parallel_editLayer hm hlike n _)) fun _ _ _ =>
    parallel_changeAndShow hlike n _

theorem parallel_typeText (n : Nat) (t : Text) :
    Parallel like (Whatever _ _) (typeText m₁ n t) (typeText m₂ n t) := by
  refine parallel_bind parallel_get fun w₁ w₂ hw => parallel_ite ?_ (parallel_pure trivial) ?_
  · rw [hw.any_live? n fun _ _ hs => congrArg (·.layout.readOnly) hs.state]
  · refine parallel_bind (U := fun typed₁ typed₂ => typed₁ = typed₂) (parallel_suppressing ?_) ?_
    · refine parallel_bind (parallel_editLayer hm hlike n _) fun _ _ _ => ?_
      refine parallel_bind parallel_get fun w₁ w₂ hw => parallel_pure ?_
      exact map_eq_of_rel (hw.live? n) fun _ _ hs => congrArg EditableLayer.text hs.editable
    · rintro typed _ rfl
      cases typed with
      | none => exact parallel_pure trivial
      | some typed => exact parallel_takeEdit hm hlike n typed

/-! ## Operations -/

omit hm hlike [EditableLayer E] [RenderLayer R₁] [RenderLayer R₂] in
theorem regardless_replyOf (shown : Except Failure Unit) : (replyOf shown).regardless = .done := by
  cases shown <;> rfl

omit hm hlike [EditableLayer E] in
theorem parallel_replyOf {a₁ : Action E R₁ (Except Failure Unit)}
    {a₂ : Action E R₂ (Except Failure Unit)} (h : Parallel like (Whatever _ _) a₁ a₂) :
    Parallel like SameReply (do return replyOf (← a₁)) (do return replyOf (← a₂)) := by
  refine parallel_bind h fun shown₁ shown₂ _ => parallel_pure ?_
  exact (regardless_replyOf shown₁).trans (regardless_replyOf shown₂).symm

theorem parallel_answer (n : Nat) {request₁ : Request E R₁} {request₂ : Request E R₂}
    (h : Request.Twin like request₁ request₂) :
    Parallel like SameReply (answer m₁ n request₁) (answer m₂ n request₂) := by
  cases h with
  | setText t => exact parallel_replyOf (parallel_setText hm hlike n t)
  | typeText t => exact parallel_replyOf (parallel_typeText hm hlike n t)
  | edited t => exact parallel_replyOf (parallel_takeEdit hm hlike n t)
  | setLanguage language => exact parallel_replyOf (parallel_changeAndShow hlike n _)
  | setPlainTextColor color => exact parallel_replyOf (parallel_changeAndShow hlike n _)
  | followTheme => exact parallel_replyOf (parallel_followTheme hlike n)
  | changeLayout change =>
    exact parallel_bind (parallel_modify fun _ _ hw => hw.changeState _) fun _ _ _ =>
      parallel_replyOf (parallel_applyLayout hlike n)
  | observe hbody =>
    refine parallel_changed fun _ _ hw => hw.changeLive fun _ _ hs => ?_
    exact { hs with observers := List.rel_append hs.observers (.cons hbody .nil) }
  | editLayer change =>
    exact parallel_bind (parallel_editLayer hm hlike n change) fun _ _ _ => parallel_pure rfl
  | renderLayer hchange =>
    refine parallel_bind parallel_get fun w₁ w₂ hw => ?_
    rcases rel_cases (hw.live? n) with ⟨hnone₁, hnone₂⟩ | ⟨s₁, s₂, hs₁, hs₂, hs⟩
    · rw [hnone₁, hnone₂]
      exact parallel_pure rfl
    · rw [hs₁, hs₂]
      refine parallel_bind (parallel_modify fun _ _ hw => hw.changeLive fun _ _ hs' => ?_)
        fun _ _ _ => parallel_pure ?_
      · exact { hs' with rendered := hchange _ _ hs.rendered }
      · exact (regardless_replyOf _).trans (regardless_replyOf _).symm
  | connect hhandler =>
    refine parallel_changed fun _ _ hw => hw.changeSlot fun _ _ hslot => ?_
    exact { hslot with hook := .some hhandler }
  | dispose =>
    exact parallel_changed fun _ _ hw => hw.unsubscribeSurface n
  | clone =>
    refine parallel_changed fun _ _ hw => hw.changeSlot fun _ _ hslot => ?_
    exact { hslot with handles := congrArg (· + 1) hslot.handles }
  | drop =>
    refine parallel_changed fun _ _ hw => hw.changeSlot fun _ _ hslot => ?_
    exact { hslot with handles := congrArg (· - 1) hslot.handles }

end
end World

namespace Operation

open Surface.Action World

variable [EditableLayer E]

theorem parallel_step (hlike : Interchangeable like) {m₁ : Meaning E R₁} {m₂ : Meaning E R₂}
    (hm : ∀ op₁ op₂, Operation.Twin like op₁ op₂ → Parallel like SameReply (m₁ op₁) (m₂ op₂))
    {op₁ : Operation E R₁} {op₂ : Operation E R₂} (h : Operation.Twin like op₁ op₂) :
    Parallel like SameReply (step m₁ op₁) (step m₂ op₂) := by
  cases h with
  | create editable hrendered hfirst =>
    refine parallel_bind parallel_get fun w₁ w₂ hw => parallel_ite ?_ ?_ (parallel_pure rfl)
    · rw [hw.notifier.held]
    · exact parallel_create hlike editable hrendered hfirst
  | on n hrequest =>
    refine parallel_bind parallel_get fun w₁ w₂ hw => parallel_ite ?_ (parallel_pure rfl) ?_
    · rw [hw.handles n]
    · exact parallel_holding (parallel_answer hm hlike n hrequest)
  | report n t =>
    exact parallel_bind (parallel_report hm hlike n t) fun _ _ _ => parallel_pure rfl
  | disconnect n =>
    refine parallel_changed fun _ _ hw => hw.changeSlot fun _ _ hslot => ?_
    exact { hslot with hook := .none }
  | subscribe hbody =>
    refine parallel_bind parallel_get fun w₁ w₂ hw => parallel_ite ?_ ?_ (parallel_pure rfl)
    · rw [hw.notifier.held]
    · exact parallel_changed fun _ _ hw => hw.subscribe hbody
  | unsubscribe i =>
    refine parallel_bind parallel_get fun w₁ w₂ hw => ?_
    rw [hw.held? i]
    split
    · exact parallel_bind (parallel_giveBack i _) fun _ _ _ => parallel_pure rfl
    · exact parallel_pure rfl
  | entrust i belonging =>
    refine parallel_bind parallel_get fun w₁ w₂ hw => parallel_ite ?_ ?_ (parallel_pure rfl)
    · rw [hw.keeps i, hw.offers belonging]
    · exact parallel_changed fun _ _ hw => hw.entrust i belonging
  | setTheme theme =>
    refine parallel_bind parallel_get fun w₁ w₂ hw => parallel_ite ?_ ?_ (parallel_pure rfl)
    · rw [hw.notifier.held]
    · exact parallel_bind (parallel_setTheme hm hlike theme) fun _ _ _ => parallel_pure rfl
  | releaseNotifier =>
    exact parallel_changed fun _ _ hw => hw.release

theorem parallel_run (hlike : Interchangeable like) (depth : Nat) {op₁ : Operation E R₁}
    {op₂ : Operation E R₂} (h : Operation.Twin like op₁ op₂) :
    Parallel like SameReply (run depth op₁) (run depth op₂) := by
  induction depth generalizing op₁ op₂ with
  | zero => exact parallel_throw _
  | succ depth ih => exact parallel_step hlike (fun _ _ hop => ih hop) h

/-- The world that a sequence of operations leaves behind. -/
def runAll {R : Type} [RenderLayer R] (depth : Nat) (ops : List (Operation E R)) (w : World E R) :
    World E R :=
  ops.foldl (fun w op => (run depth op w).2) w

theorem twin_runAll (hlike : Interchangeable like) (depth : Nat) {ops₁ : List (Operation E R₁)}
    {ops₂ : List (Operation E R₂)} (hops : List.Forall₂ (Operation.Twin like) ops₁ ops₂)
    {w₁ : World E R₁} {w₂ : World E R₂} (hw : World.Twin like w₁ w₂) :
    World.Twin like (runAll depth ops₁ w₁) (runAll depth ops₂ w₂) := by
  induction hops generalizing w₁ w₂ with
  | nil => exact hw
  | cons hop _ ih => exact ih (parallel_run hlike depth hop w₁ w₂ hw).2

end Operation

/-! ## Two executions -/

open Operation

/-- After every operation of a sequence the worlds of the two executions have the same surfaces
but for their render layers, which are alike, and the next operation ends alike but for the
failure it may answer with.  What has happened in them is the same, in the same order, but for
the outcomes of rendering. -/
theorem failures_make_no_difference [EditableLayer E] (hlike : Interchangeable like)
    (theme : Theme) (depth : Nat) {ops₁ : List (Operation E R₁)} {ops₂ : List (Operation E R₂)}
    (hops : List.Forall₂ (Operation.Twin like) ops₁ ops₂) (k : Nat) :
    let w₁ := runAll depth (ops₁.take k) (World.initial theme)
    let w₂ := runAll depth (ops₂.take k) (World.initial theme)
    (∀ n, Option.Rel (fun s₁ s₂ => s₁.state = s₂.state ∧ s₁.runs = s₂.runs ∧
        s₁.suppressing = s₂.suppressing ∧ s₁.editable = s₂.editable ∧
        like s₁.rendered s₂.rendered) (w₁.live? n) (w₂.live? n)) ∧
      w₁.trace.map Event.regardless = w₂.trace.map Event.regardless ∧
      Option.Rel (fun op₁ op₂ => Action.EndAlike World.SameReply (run depth op₁ w₁).1
        (run depth op₂ w₂).1) ops₁[k]? ops₂[k]? := by
  intro w₁ w₂
  have hw : World.Twin like w₁ w₂ :=
    twin_runAll hlike depth (List.forall₂_take k hops) (World.Twin.initial theme)
  refine ⟨fun n => ?_, hw.trace, ?_⟩
  · exact rel_imp (hw.live? n) fun s₁ s₂ hs =>
      ⟨hs.state, hs.runs, hs.suppressing, hs.editable, hs.rendered⟩
  · exact rel_imp (forall₂_getElem? hops k) fun op₁ op₂ hop =>
      (parallel_run hlike depth hop w₁ w₂ hw).1

/-! ## A device that is lost in one execution

Two displays that do not panic may stand for each other as long as they have the same layout. -/

def Display.Like (d₁ d₂ : Display) : Prop := d₁.layout = d₂.layout ∧ d₁.Calm ∧ d₂.Calm

/-- A display that does not panic shows what it is given, or fails. -/
theorem Display.Calm.regardless {d : Display} (h : d.Calm) (runs : RunSequence) :
    (RenderLayer.render d runs).2.regardless = .shown := by
  cases houtcome : (RenderLayer.render d runs).2 with
  | shown => rfl
  | failed failure => rfl
  | panicked reason => exact absurd houtcome (Display.neverPanics.outcome d runs reason h)

theorem Display.interchangeable : Interchangeable Display.Like where
  render d₁ d₂ runs h :=
    ⟨(d₁.layout_render runs).trans (h.1.trans (d₂.layout_render runs).symm),
      Display.neverPanics.render d₁ runs h.2.1, Display.neverPanics.render d₂ runs h.2.2⟩
  outcome _ _ runs h := (h.2.1.regardless runs).trans (h.2.2.regardless runs).symm
  applyLayout _ _ _ h := ⟨rfl, h.2⟩

/-- The display is put into a mode, then a text is typed and the theme changes. -/
def showing (mode : DisplayMode) : List (Operation LimitedBuffer Display) :=
  [.create {} {}, .on 0 (.observe fun t => .note t .done),
    .on 0 (.renderLayer fun d => ({ d with mode }, .ok ())), .on 0 (.typeText "[1]".toList),
    .setTheme .dark]

/-- The frame is not the same at the end, but the runs and the events are. -/
theorem lost_device_makes_no_difference :
    let w₁ := runAll 2 (showing .works) (World.initial .light)
    let w₂ := runAll 2 (showing (.fails (.renderFailed "lost".toList))) (World.initial .light)
    (w₁.live? 0).map (fun s => s.rendered.frame) ≠ (w₂.live? 0).map (fun s => s.rendered.frame) ∧
      (w₁.live? 0).map Live.runs = (w₂.live? 0).map Live.runs ∧
      w₁.trace.map Event.regardless = w₂.trace.map Event.regardless := by
  have hcalm : Display.Calm {} := fun _ => nofun
  have hops : List.Forall₂ (Operation.Twin Display.Like) (showing .works)
      (showing (.fails (.renderFailed "lost".toList))) := by
    unfold showing
    refine .cons (.create _ ?_ fun _ => Iff.rfl) (.cons (.on 0 (.observe fun t => ?_))
      (.cons (.on 0 (.renderLayer ?_)) (.cons (.on 0 (.typeText _))
        (.cons (.setTheme .dark) .nil))))
    · exact ⟨rfl, hcalm, hcalm⟩
    · exact .note t .done
    · exact fun _ _ h => ⟨h.1, fun _ => nofun, fun _ => nofun⟩
  obtain ⟨hlive, htrace, -⟩ :=
    failures_make_no_difference Display.interchangeable .light 2 hops 5
  exact ⟨by decide +kernel, map_eq_of_rel (hlive 0) fun _ _ hs => hs.2.1, htrace⟩

end Surface
end QueryView
