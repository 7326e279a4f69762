/-
Typing into the editable layer, and typing into the surface.

A user types into the editable layer, which reports the text, and the report comes to the
surface through the hook of the layer.  An embedder may also ask the surface to type.  Then the
layer is written, its report is taken for an echo, and the surface makes the edit itself.
`native_typing_is_typing` says that over a buffer that reports to its own surface the two
are the same in every world that a program can lead to: they leave the same world, in which the
same runs were shown once, whatever became of that, and the same observers were told.

Two things stand between the two ways.  The report comes while the surface is held by one more
guest than otherwise, and no observer is aware of that (`Action.Unaware`).  And it is the buffer
that refuses to be typed into when it is read-only in the one case, and the surface in the
other, so the layout of the buffer has to be that of the state.  Every operation of the surface
keeps it so; changing the layout in the buffer itself is what a program must not do
(`Operation.LeavesLayouts`).
-/
import QueryView.Proofs.Surface.Edit
import QueryView.Proofs.Surface.Guest
import QueryView.Proofs.Surface.Indifference
import QueryView.Proofs.Surface.Lasting
import QueryView.Surface.Buffer

namespace QueryView
namespace Surface

variable {R : Type}

/-! ## The layout of the buffer -/

/-- What is done to the buffer behind the surface's back leaves its layout alone. -/
def Operation.LeavesLayouts : Operation Buffer R → Prop
  | .on _ (.editLayer change) => ∀ b, (change b).1.layout = b.layout
  | _ => True

namespace World

/-- The buffer of every surface has the layout of its state. -/
def LayoutsAgree (w : World Buffer R) : Prop :=
  ∀ n s, w.live? n = some s → s.editable.layout = s.state.layout

end World

theorem lasting_layoutsAgree [RenderLayer R] : Lasting (Operation.LeavesLayouts (R := R)) 0
    fun _ _ s => s.editable.layout = s.state.layout where
  aside := fun _ _ _ _ _ _ hs => hs
  written := fun _ _ s change halters hs => by
    obtain ⟨t, rfl⟩ | hleaves := halters
    · exact hs
    · exact (hleaves s.editable).trans hs
  drawn := fun _ _ _ _ _ hs => hs
  shown := fun _ _ _ _ hlayout hs => hs.trans hlayout.symm
  laidOut := fun _ _ _ _ _ _ _ _ => rfl
  created := fun _ _ _ _ _ => rfl

namespace World

open Surface.Action

variable [RenderLayer R]

/-- The layouts agree, and no callback is going to change that. -/
structure KeepsLayouts (w : World Buffer R) : Prop where
  stores : w.Stores Operation.LeavesLayouts
  layouts : w.LayoutsAgree

theorem keepsLayouts_of_program (theme : Theme) (depth : Nat) (program : Script Buffer R)
    (h : program.Throughout Operation.LeavesLayouts) :
    (program.run (Operation.run depth) (World.initial theme)).2.KeepsLayouts where
  stores := Operation.stores_of_program
    (permissive_of_forall (fun _ => trivial) fun _ _ => trivial) theme depth program h
  layouts := (Operation.every_of_program lasting_layoutsAgree theme depth program h).surface

/-! ## The edit -/

variable {w : World Buffer R} {n : Nat} {s : Live Buffer R} {m : Meaning Buffer R} {t : Text}

/-- What the typing of a text makes of a surface, before it is shown. -/
def typedInto (t : Text) (s : Live Buffer R) : Live Buffer R :=
  { s with state := { s.state with text := t }, editable := { s.editable with text := t } }

/-- The surface when its observers are told of what was typed: it was shown once. -/
theorem live?_rewritten_typed (hs : w.live? n = some s) :
    (w.rewritten n t t).live? n = some (rendering (typedInto t s)) ∧
      (w.rewritten n t t).trace = w.trace ++ [renderedEvent n (typedInto t s)] := by
  have hwritten : (((w.enter n).changeLive n (writing fun e => EditableLayer.write e t)).changeState
      n fun s => { s with text := t }).live? n = some (typedInto t s) := by
    rw [changeState, live?_changeLive, if_pos rfl, live?_changeLive, if_pos rfl, live?_enter, hs]
    rfl
  rw [rewritten, edited, changeAndShow_apply, live?_refresh, if_pos rfl, hwritten,
    trace_refresh hwritten]
  exact ⟨rfl, rfl⟩

/-- An edit is shown, and unless that panics the observers are told of it. -/
theorem takeEdit_typed (hs : w.live? n = some s) (hidle : w.Idle n) :
    takeEdit m n t ((w.enter n).changeLive n (writing fun e => EditableLayer.write e t)) =
      match answerOf (RenderLayer.render s.rendered (typedInto t s).state.runs).2 with
      | .ok shown => (do callEach m n t s.observers; return shown) (w.rewritten n t t)
      | .error e => (.error e, w.rewritten n t t) := by
  let written := (w.enter n).changeLive n (writing fun e => EditableLayer.write e t)
  have hwritten : written.live? n = some (writing (fun e => EditableLayer.write e t) s) := by
    rw [live?_changeLive, if_pos rfl, live?_enter, hs, Option.map_some]
  have hchanged := live?_changeState hwritten fun s => { s with text := t }
  have hshown : changeAndShow n (fun s => { s with text := t }) written =
      (answerOf (RenderLayer.render s.rendered (typedInto t s).state.runs).2,
        w.rewritten n t t) := by
    refine Prod.ext ?_ rfl
    rw [changeAndShow_apply, refresh_fst hchanged]
    rfl
  have hobservers : (((w.rewritten n t t).live? n).map Live.observers).getD [] = s.observers := by
    rw [(live?_rewritten_typed hs).1]
    rfl
  have hdown : (written.live? n).any Live.suppressing = false := by
    rw [hwritten]
    exact hidle s hs
  show takeEdit m n t written = _
  rw [takeEdit, get_bind_apply, if_neg (by rw [hdown]; exact Bool.false_ne_true), bind_apply,
    hshown]
  cases answerOf (RenderLayer.render s.rendered (typedInto t s).state.runs).2 with
  | error e => rfl
  | ok shown =>
    show (notifyObservers m n t >>= fun _ => pure shown) (w.rewritten n t t) =
      (do callEach m n t s.observers; return shown) (w.rewritten n t t)
    rw [bind_apply, notifyObservers, get_bind_apply, hobservers, bind_apply]
    rfl

/-- While the surface has a guest, a report is taken as an edit without another one. -/
theorem report_typed (hm : ∀ op, Unaware n (m op)) (hhook : w.hook? n = some (.edits n))
    (hlive : (w.live? n).isSome) (hguests : w.guests n ≠ 0) :
    report m n t w = ((takeEdit m n t w).1.map fun _ => (), (takeEdit m n t w).2) := by
  obtain ⟨hsame, hkept⟩ := unaware_takeEdit hm (k := n) t w hguests
  rw [report, get_bind_apply, hhook]
  dsimp only
  rw [get_bind_apply, if_pos hlive, holding, bind_apply, modify_apply]
  simp only [andFinally, return_apply (takeEdit m n t) fun _ => (), hsame,
    leave_enter (held_of_guests (hkept ▸ hguests))]

/-! ## Two ways to type -/

/-- Typing into the layer, as a native control is typed into. -/
def typingNatively (n : Nat) (t : Text) : Operation Buffer R :=
  .on n (.editLayer fun b => b.type t)

/-- A buffer that is read-only takes nothing. -/
theorem native_readOnly (hs : w.live? n = some s) (hclosed : s.editable.layout.readOnly = true) :
    editLayer m n (fun b => b.type t) w = (.ok ⟨⟩, w) := by
  have hsame : w.changeLive n (fun s' => { s' with editable := s.editable }) = w := by
    refine changeLive_eq_self fun s' hs' => ?_
    cases hs.symm.trans hs'
    rfl
  rw [editLayer, get_bind_apply, hs]
  simp only [Buffer.type, hclosed, if_true, bind_apply, modify_apply, hsame]
  rfl

/-- A buffer that is not read-only is written, and its report is the edit. -/
theorem native_open (hm : ∀ op, Unaware n (m op)) (hs : w.live? n = some s)
    (hopen : s.editable.layout.readOnly = false) (hhook : w.hook? n = some (.edits n))
    (hguests : w.guests n ≠ 0) {written : World Buffer R}
    (hw : written = w.changeLive n (writing fun e => EditableLayer.write e t)) :
    editLayer m n (fun b => b.type t) w =
      ((takeEdit m n t written).1.map fun _ => (), (takeEdit m n t written).2) := by
  have hwritten : w.changeLive n (fun s' => { s' with editable := { s.editable with text := t } }) =
      written := by
    rw [hw]
    refine changeLive_congr fun s' hs' => ?_
    cases hs.symm.trans hs'
    rfl
  have hreport : report m n t written =
      ((takeEdit m n t written).1.map fun _ => (), (takeEdit m n t written).2) := by
    refine report_typed hm ?_ ?_ ?_
    · rw [hw, hook?_changeLive, hhook]
    · rw [hw, live?_changeLive, if_pos rfl, hs]
      rfl
    · rw [hw, changeLive, guests_changeSlot (by intro _; rfl)]
      exact hguests
  have htype : s.editable.type t = ({ s.editable with text := t }, [t]) := by
    rw [Buffer.type, hopen]
    rfl
  rw [editLayer, get_bind_apply, hs]
  simp only [htype, bind_apply, modify_apply, hwritten]
  -- The buffer has one report to make.
  show (report m n t >>= fun _ => pure PUnit.unit) written = _
  rw [bind_apply, hreport]
  rcases takeEdit m n t written with ⟨_ | _, _⟩ <;> rfl

/-- Typing the text into the buffer of the surface does what typing it into the surface does.
Nothing if it is read-only, and otherwise one edit, which is shown once and of which every
observer is told unless showing it panics. -/
structure TypesAlike (w : World Buffer R) (n : Nat) (s : Live Buffer R) (depth : Nat) (t : Text) :
    Prop where
  world : (Operation.run (depth + 1) (typingNatively n t) w).2 =
    (Operation.run (depth + 1) (.on n (.typeText t)) w).2
  ending : (Operation.run (depth + 1) (typingNatively n t) w).1 =
    (Operation.run (depth + 1) (.on n (.typeText t)) w).1.map fun _ => .done
  idle : (Operation.run (depth + 1) (.on n (.typeText t)) w).2.Idle n
  closed : s.state.layout.readOnly = true →
    Operation.run (depth + 1) (.on n (.typeText t)) w = (.ok .done, w)
  shown : s.state.layout.readOnly = false →
    (w.rewritten n t t).live? n = some (rendering (typedInto t s)) ∧
      (w.rewritten n t t).trace = w.trace ++ [renderedEvent n (typedInto t s)] ∧
      Operation.run (depth + 1) (.on n (.typeText t)) w =
        match answerOf (RenderLayer.render s.rendered (typedInto t s).state.runs).2 with
        | .ok shown =>
          andFinally (do
            callEach (Operation.run depth) n t s.observers
            return replyOf shown) (leave n) (w.rewritten n t t)
        | .error e => (.error e, (w.rewritten n t t).leave n)

/-- The buffer has the layout of the state, and nothing but the surface hears of its reports. -/
theorem typesAlike (hs : w.live? n = some s) (hhandles : w.handles n ≠ 0)
    (hhook : w.hook? n = some (.edits n)) (hlayout : s.editable.layout = s.state.layout)
    (hidle : w.Idle n) (depth : Nat) (t : Text) : w.TypesAlike n s depth t := by
  have hentered : (w.enter n).live? n = some s := live?_enter.trans hs
  have hnative : Operation.run (depth + 1) (typingNatively n t) w =
      ((editLayer (Operation.run depth) n (fun b => b.type t) (w.enter n)).1.map fun _ => .done,
        (editLayer (Operation.run depth) n (fun b => b.type t) (w.enter n)).2.leave n) :=
    run_on_of_return hhandles rfl
  have htyped : Operation.run (depth + 1) (.on n (.typeText t)) w =
      ((typeText (Operation.run depth) n t (w.enter n)).1.map replyOf,
        (typeText (Operation.run depth) n t (w.enter n)).2.leave n) :=
    run_on_of_return hhandles rfl
  have hquiet : (Operation.run (depth + 1) (.on n (.typeText t)) w).2.Idle n :=
    idle_iff_raisedIn.mpr (Operation.raisedIn_run (depth + 1) (.on n (.typeText t)) w _
      (idle_iff_raisedIn.mp hidle) False.elim).2
  cases hread : s.state.layout.readOnly with
  | true =>
    have hclosed := run_typeText_readOnly hs hhandles hread depth t
    rw [native_readOnly hentered (by rw [hlayout, hread]),
      leave_enter (held_of_handles hhandles)] at hnative
    exact ⟨by rw [hnative, hclosed], by rw [hnative, hclosed]; rfl, hquiet, fun _ => hclosed,
      fun hopen => absurd (hread.symm.trans hopen) (by decide)⟩
  | false =>
    have hwired : (w.enter n).WiredAt n := by
      intro handler hh
      rw [hook?_enter, hhook] at hh
      exact (Option.some.inj hh).symm
    have htake := takeEdit_typed (m := Operation.run depth) (t := t) hs hidle
    rw [native_open (Operation.unaware_run depth) hentered (by rw [hlayout, hread])
      (hook?_enter.trans hhook) (guests_enter_ne_zero hhandles) rfl] at hnative
    rw [typeText_apply hentered hwired (held_enter (held_of_handles hhandles)) hread] at htyped
    refine ⟨by rw [hnative, htyped]; rfl, ?_, hquiet,
      fun hclosed => absurd (hread.symm.trans hclosed) (by decide), fun _ => ?_⟩
    · have hmap (ended : Except Abort (Except Failure Unit)) :
          (ended.map fun _ => ()).map (fun _ => Reply.done) =
            (ended.map replyOf).map fun _ => Reply.done := by
        cases ended <;> rfl
      rw [hnative, htyped]
      exact hmap _
    · obtain ⟨hlive, htrace⟩ := live?_rewritten_typed (t := t) hs
      refine ⟨hlive, htrace, htyped.trans ?_⟩
      show ((takeEdit _ n t _).1.map replyOf, (takeEdit _ n t _).2.leave n) = _
      rw [htake]
      cases answerOf (RenderLayer.render s.rendered (typedInto t s).state.runs).2 with
      | error e => rfl
      | ok shown =>
        simp only [andFinally, bind_apply]
        rcases callEach (Operation.run depth) n t s.observers (w.rewritten n t t) with
          ⟨_ | _, _⟩ <;> rfl

end World

open World

variable [RenderLayer R]

/-- After every program that leaves the layouts of the buffers alone, it makes no difference
whether a text is typed into a buffer that reports to its surface or into the surface.  Observers
that ask for the buffer meanwhile are included, but that the buffer is borrowed then is not. -/
theorem native_typing_is_typing (theme : Theme) (depth : Nat) (program : Script Buffer R)
    (hprogram : program.Throughout Operation.LeavesLayouts) {w : World Buffer R}
    (hw : w = (program.run (Operation.run depth) (World.initial theme)).2) {n : Nat}
    {s : Live Buffer R} (hs : w.live? n = some s) (hhandles : w.handles n ≠ 0)
    (hhook : w.hook? n = some (.edits n)) (deep : Nat) (t : Text) :
    w.TypesAlike n s deep t := by
  have hkeeps : w.KeepsLayouts := hw ▸ keepsLayouts_of_program theme depth program hprogram
  have hidle : w.Idle n := hw ▸ (idle_initial theme n).script depth program
  exact typesAlike hs hhandles hhook (hkeeps.layouts n s hs) hidle deep t

/-! ## An observer that notes what is typed

A surface over a buffer that reports to it, with an observer that notes what it is told. -/

def notingObserver : Script Buffer Display :=
  .perform (.create {} {}) fun _ =>
  .perform (.on 0 (.connect (.edits 0))) fun _ =>
  .perform (.on 0 (.observe fun t => .note t .done)) fun _ => .done

def notingWorld : World Buffer Display :=
  (notingObserver.run (Operation.run 2) (World.initial .light)).2

/-- The text is shown and noted once, in whichever way it is typed. -/
theorem typed_text_is_noted_once : ∃ s, notingWorld.live? 0 = some s ∧
    notingWorld.TypesAlike 0 s 2 "[1]".toList ∧
    (Operation.run 3 (typingNatively 0 "[1]".toList) notingWorld).2.trace =
      notingWorld.trace ++ [renderedEvent 0 (typedInto "[1]".toList s),
        .edited 0 0 "[1]".toList, .note "[1]".toList] := by
  have hprogram : notingObserver.Throughout Operation.LeavesLayouts := by
    simp [notingObserver, Script.Throughout, Operation.Throughout, Request.Throughout,
      Handler.Throughout, Operation.LeavesLayouts]
  obtain ⟨s, hs⟩ : ∃ s, notingWorld.live? 0 = some s := ⟨_, rfl⟩
  have halike := native_typing_is_typing .light 2 notingObserver hprogram rfl hs
    (by decide +kernel) rfl 2 "[1]".toList
  refine ⟨s, hs, halike, ?_⟩
  obtain rfl : _ = s := Option.some.inj (rfl.trans hs)
  decide +kernel

end Surface
end QueryView
