/-
Edits, and who is told of them.

The main theorem, `edits_are_told_once_and_echoes_never`, says which operations on a surface
count as edits.  Setting a text is none, however often the editable layer reports it.  Typing
a text and handing on a report are one each: every observer that the surface has at that
moment is told once, in the order of registration, whether or not the text could be shown.
What is typed into a surface that is read-only is lost without a trace.

Two things are asked of the world in which this happens.  It is orderly: what an editable
layer reports goes to its own surface, and render layers do not panic.  And the surface is
idle, that is, not in the middle of a write.  It is idle before anything happens and when its
observers are told of an edit, and whatever is done outside a write leaves it so.
-/
import QueryView.Proofs.Surface.Flag
import QueryView.Proofs.Surface.Setter
import QueryView.Surface.Trial

namespace QueryView
namespace Surface

variable {E R : Type}

namespace World

open Surface.Action

variable {calm : R → Prop} {w : World E R} {n : Nat} {s : Live E R} {m : Meaning E R}

theorem Idle.enter (h : w.Idle n) : (w.enter n).Idle n := fun s hs => h s (live?_enter ▸ hs)

theorem Idle.written (h : w.Idle n) (change : E → E × List Text) :
    (w.changeLive n (writing change)).Idle n := by
  intro s' hs'
  obtain ⟨s, hs, hflag⟩ := exists_flag_of_changeLive hs' fun _ => rfl
  exact hflag.trans (h s hs)

variable [RenderLayer R]

/-- The world in which a surface has a new text and was shown with it. -/
def edited (n : Nat) (t : Text) (w : World E R) : World E R :=
  (changeAndShow n (fun s => { s with text := t }) w).2

theorem Idle.edited (h : w.Idle n) (t : Text) : (w.edited n t).Idle n := by
  intro s' hs'
  rw [World.edited, live?_changeAndShow, if_pos rfl] at hs'
  obtain ⟨s, hs, rfl⟩ := Option.map_eq_some_iff.mp hs'
  exact h s hs

/-- Outside a write a report changes the text and is passed on to the observers. -/
theorem exists_takeEdit_eq (hcalm : NeverPanics calm) (hw : w.Orderly calm)
    (hs : w.live? n = some s) (hidle : w.Idle n) (t : Text) :
    ∃ shown, takeEdit m n t w =
      (do callEach m n t s.observers; return shown) (w.edited n t) := by
  obtain ⟨shown, hshown⟩ :=
    exists_changeAndShow_eq hw hcalm (fun s => { s with text := t }) (n := n)
  have hobservers : (((w.edited n t).live? n).map Live.observers).getD [] = s.observers := by
    rw [edited, changeAndShow_apply, live?_refresh, if_pos rfl, changeState, live?_changeLive,
      if_pos rfl, hs]
    rfl
  refine ⟨shown, ?_⟩
  rw [takeEdit, get_bind_apply, if_neg (by simp [hs, hidle s hs]), bind_apply, hshown]
  show (notifyObservers m n t >>= fun _ => pure shown) (w.edited n t) = _
  rw [bind_apply, notifyObservers, get_bind_apply, hobservers, bind_apply]
  rfl

variable [EditableLayer E]

/-- The world in which a surface has written a text to its editable layer and was shown with
what came of it. -/
def rewritten (n : Nat) (t typed : Text) (w : World E R) : World E R :=
  ((w.enter n).changeLive n (writing fun e => EditableLayer.write e t)).edited n typed

theorem Orderly.rewritten (h : w.Orderly calm) (hcalm : NeverPanics calm) (t typed : Text) :
    (w.rewritten n t typed).Orderly calm := (h.enter.written _).changeAndShow hcalm _

theorem notifications_rewritten (n : Nat) (t typed : Text) :
    (w.rewritten n t typed).notifications = w.notifications :=
  notifications_changeAndShow n _

theorem run_on_apply (hhandles : w.handles n ≠ 0) (depth : Nat) (request : Request E R) :
    Operation.run (depth + 1) (.on n request) w =
      andFinally (answer (Operation.run depth) n request) (leave n) (w.enter n) := by
  show Operation.step (Operation.run depth) (.on n request) w = _
  rw [Operation.step, get_bind_apply, if_neg hhandles, holding, bind_apply, modify_apply]

/-- A request whose reply is read off what one action answers. -/
theorem run_on_of_return {α : Type} (hhandles : w.handles n ≠ 0) {depth : Nat}
    {request : Request E R} {a : Action E R α} {f : α → Reply}
    (h : answer (Operation.run depth) n request = do return f (← a)) :
    Operation.run (depth + 1) (.on n request) w =
      ((a (w.enter n)).1.map f, (a (w.enter n)).2.leave n) := by
  rw [run_on_apply hhandles, h, andFinally, return_apply]

/-- In the world `w` the operation makes an edit of a surface.  The observers are told of it
in the world `w₀`, one after the other, and then the operation is over. -/
def MakesEdit (depth : Nat) (op : Operation E R) (n : Nat) (t : Text)
    (observers : List (Text → Script E R)) (w w₀ : World E R) : Prop :=
  ∃ reply, Operation.run (depth + 1) op w =
    andFinally (do callEach (Operation.run depth) n t observers; return reply) (leave n) w₀

theorem makesEdit_of_answer {depth : Nat} {request : Request E R} {t : Text} {w₀ : World E R}
    {observers : List (Text → Script E R)} (hhandles : w.handles n ≠ 0)
    (shown : Except Failure Unit) (h : answer (Operation.run depth) n request (w.enter n) =
      ((do callEach (Operation.run depth) n t observers; return shown) >>= fun shown =>
        pure (replyOf shown)) w₀) :
    MakesEdit depth (.on n request) n t observers w w₀ := by
  refine ⟨replyOf shown, ?_⟩
  rw [run_on_apply hhandles, andFinally, andFinally, h]
  simp only [bind_apply]
  rcases callEach (Operation.run depth) n t observers w₀ with ⟨_ | _, _⟩ <;> rfl

theorem edited_makesEdit (hcalm : NeverPanics calm) (hw : w.Orderly calm)
    (hs : w.live? n = some s) (hhandles : w.handles n ≠ 0) (hidle : w.Idle n)
    (depth : Nat) (t : Text) :
    MakesEdit depth (.on n (.edited t)) n t s.observers w ((w.enter n).edited n t) := by
  have hentered : (w.enter n).live? n = some s := live?_enter.trans hs
  obtain ⟨shown, htake⟩ :=
    exists_takeEdit_eq (m := Operation.run depth) hcalm hw.enter hentered hidle.enter t
  refine makesEdit_of_answer hhandles shown ?_
  rw [answer, bind_apply, htake]
  simp only [bind_apply]

theorem typed_makesEdit (hcalm : NeverPanics calm) (hw : w.Orderly calm)
    (hs : w.live? n = some s) (hhandles : w.handles n ≠ 0) (hidle : w.Idle n)
    (hopen : s.state.layout.readOnly = false) (depth : Nat) (t : Text) :
    MakesEdit depth (.on n (.typeText t)) n
      (EditableLayer.text (EditableLayer.write s.editable t).1) s.observers w
      (w.rewritten n t (EditableLayer.text (EditableLayer.write s.editable t).1)) := by
  have hentered : (w.enter n).live? n = some s := live?_enter.trans hs
  have hheld := held_enter (held_of_handles hhandles)
  have hwritten : ((w.enter n).changeLive n (writing fun e => EditableLayer.write e t)).live? n =
      some (writing (fun e => EditableLayer.write e t) s) := by
    rw [live?_changeLive, if_pos rfl, hentered, Option.map_some]
  obtain ⟨shown, htake⟩ := exists_takeEdit_eq (m := Operation.run depth) hcalm
    (hw.enter.written fun e => EditableLayer.write e t) hwritten (hidle.enter.written _)
    (EditableLayer.text (EditableLayer.write s.editable t).1)
  refine makesEdit_of_answer hhandles shown ?_
  rw [answer, bind_apply, typeText_apply hentered (hw.enter.wired n) hheld hopen, htake]
  simp only [bind_apply, writing, rewritten]

/-- If the observers only set things, the edit is over once each of them was told. -/
theorem MakesEdit.exists_course {depth : Nat} {op : Operation E R} {t : Text}
    {observers : List (Text → Script E R)} {w₀ : World E R} {texts : Text → Prop}
    (h : MakesEdit (depth + 1) op n t observers w w₀) (hcalm : NeverPanics calm)
    (hw : w₀.Orderly calm) (hsets : ∀ body ∈ observers, (body t).Sets texts) :
    ∃ reply w', Operation.run (depth + 2) op w = (.ok reply, w') ∧
      Course texts w₀ (observers.zipIdx.map fun o => ⟨n, o.2, t⟩) w' := by
  obtain ⟨reply, hrun⟩ := h
  obtain ⟨x, w', hround, hcourse⟩ := goes_callEach hcalm depth n t hsets hw
  refine ⟨reply, w'.leave n, ?_, ?_⟩
  · rw [hrun, andFinally, bind_apply, hround]
    rfl
  · have hleft := hcourse.trans (.single (.left n w'))
    rwa [List.append_nil] at hleft

/-- The operation is an edit of a surface, and tells these observers of it. -/
structure Delivers (depth : Nat) (op : Operation E R) (n : Nat) (t : Text)
    (observers : List (Text → Script E R)) (w : World E R) : Prop where
  /-- Nobody is told of anything before the observers are, one after the other, each once,
  whatever they do. -/
  round : ∃ w₀, w₀.notifications = w.notifications ∧ w₀.Idle n ∧
    MakesEdit depth op n t observers w w₀
  /-- If the observers only set things, nobody is told of anything else. -/
  once : 0 < depth → (∀ body ∈ observers, (body t).Sets fun _ => True) →
    ∃ reply w', Operation.run (depth + 1) op w = (.ok reply, w') ∧
      w'.notifications = w.notifications ++ observers.zipIdx.map fun o => ⟨n, o.2, t⟩

theorem MakesEdit.delivers {depth : Nat} {op : Operation E R} {t : Text}
    {observers : List (Text → Script E R)} {w₀ : World E R}
    (h : MakesEdit depth op n t observers w w₀) (hcalm : NeverPanics calm)
    (hw : w₀.Orderly calm) (hidle : w₀.Idle n)
    (hnotifications : w₀.notifications = w.notifications) :
    Delivers depth op n t observers w := by
  refine ⟨⟨w₀, hnotifications, hidle, h⟩, fun hdepth hsets => ?_⟩
  obtain ⟨depth, rfl⟩ := Nat.exists_eq_add_of_lt hdepth
  rw [Nat.zero_add] at h ⊢
  obtain ⟨reply, w', hrun, hcourse⟩ := h.exists_course hcalm hw hsets
  exact ⟨reply, w', hrun, hcourse.notifications.trans (by rw [hnotifications])⟩

/-- What is typed into a surface that is read-only changes nothing. -/
theorem run_typeText_readOnly (hs : w.live? n = some s) (hhandles : w.handles n ≠ 0)
    (hclosed : s.state.layout.readOnly = true) (depth : Nat) (t : Text) :
    Operation.run (depth + 1) (.on n (.typeText t)) w = (.ok .done, w) := by
  have hentered : (w.enter n).live? n = some s := live?_enter.trans hs
  have hanswer : answer (Operation.run depth) n (.typeText t) (w.enter n) =
      (.ok .done, w.enter n) := by
    rw [answer, bind_apply, typeText_readOnly hentered hclosed]
    rfl
  rw [run_on_apply hhandles, andFinally, hanswer]
  show (Except.ok Reply.done, (w.enter n).leave n) = _
  rw [leave_enter (held_of_handles hhandles)]

end World

open World

variable [EditableLayer E] [RenderLayer R]

theorem edits_are_told_once_and_echoes_never {calm : R → Prop} (hcalm : NeverPanics calm) :
    (∀ theme n, (World.initial theme : World E R).Idle n) ∧
    (∀ (w : World E R) n depth (script : Script E R), w.Idle n →
      (script.run (Operation.run depth) w).2.Idle n) ∧
    ∀ (w : World E R) n s depth t, w.live? n = some s → w.handles n ≠ 0 → w.Orderly calm →
      (∃ reply w', Operation.run (depth + 1) (.on n (.setText t)) w = (.ok reply, w') ∧
        w'.notifications = w.notifications) ∧
      (s.state.layout.readOnly = true →
        Operation.run (depth + 1) (.on n (.typeText t)) w = (.ok .done, w)) ∧
      (w.Idle n →
        (s.state.layout.readOnly = false →
          Delivers depth (.on n (.typeText t)) n
            (EditableLayer.text (EditableLayer.write s.editable t).1) s.observers w) ∧
        Delivers depth (.on n (.edited t)) n t s.observers w) := by
  refine ⟨idle_initial, fun w n depth script hidle => hidle.script depth script, ?_⟩
  intro w n s depth t hs hhandles hw
  refine ⟨?_, fun hclosed => run_typeText_readOnly hs hhandles hclosed depth t,
    fun hidle => ⟨?_, ?_⟩⟩
  · have hsets : (Operation.on n (.setText t) : Operation E R).Sets fun _ => True := trivial
    obtain ⟨reply, w', hrun, hcourse⟩ := goes_run hcalm depth hsets hw
    exact ⟨reply, w', hrun, hcourse.notifications.trans (List.append_nil _)⟩
  · intro hopen
    have hedit := typed_makesEdit hcalm hw hs hhandles hidle hopen depth t
    refine hedit.delivers hcalm ?_ ((hidle.enter.written _).edited _) ?_
    · exact (hw.enter.written _).changeAndShow hcalm _
    · exact notifications_changeAndShow n _
  · have hedit := edited_makesEdit hcalm hw hs hhandles hidle depth t
    refine hedit.delivers hcalm ?_ (hidle.enter.edited t) ?_
    · exact hw.enter.changeAndShow hcalm _
    · exact notifications_changeAndShow n _

theorem LimitedBuffer.text_write_of_capacity {e : LimitedBuffer} {max : Nat}
    (h : e.capacity = some max) (t : Text) :
    EditableLayer.text (EditableLayer.write e t).1 = t.take max := by
  show e.kept t = t.take max
  rw [LimitedBuffer.kept, h]

/-! ## Observers that answer an edit

The editable layer of this surface keeps three characters and reports every write to the
surface, and its display fails.  Of its two observers one answers an edit with a longer text
and the other with a change of language. -/

def answeringObservers : Script LimitedBuffer Display :=
  .perform (.create { capacity := some 3 } {}) fun _ =>
  .perform (.on 0 (.connect (.edits 0))) fun _ =>
  .perform (.on 0 (.observe fun t =>
    .perform (.on 0 (.setText (t ++ t))) fun _ => .done)) fun _ =>
  .perform (.on 0 (.observe fun _ =>
    .perform (.on 0 (.setLanguage .json)) fun _ => .done)) fun _ =>
  .perform (.on 0 (.renderLayer fun d =>
    ({ d with mode := .fails (.renderFailed "lost".toList) }, .ok ()))) fun _ => .done

def answeringWorld : World LimitedBuffer Display :=
  (answeringObservers.run (Operation.run 2) (World.initial .light)).2

theorem exists_answeringWorld_slots : ∃ s first second, answeringWorld.slots =
      [{ live := some s, handles := 1, guests := 0, hook := some (.edits 0) }] ∧
    s.rendered.mode = .fails (.renderFailed "lost".toList) ∧ s.state.layout.readOnly = false ∧
    s.editable.capacity = some 3 ∧ s.observers = [first, second] ∧
    (∀ t, (first t).Sets fun _ => True) ∧ ∀ t, (second t).Sets fun _ => True :=
  ⟨_, _, _, rfl, rfl, rfl, rfl, rfl, fun _ => ⟨trivial, fun _ => trivial⟩,
    fun _ => ⟨trivial, fun _ => trivial⟩⟩

theorem answeringWorld_orderly : answeringWorld.Orderly Display.Calm := by
  obtain ⟨s, -, -, hslots, hmode, -⟩ := exists_answeringWorld_slots
  exact orderly_of_slots hslots (Display.calm_of_mode hmode fun _ => nofun)

/-- Both observers are told what the editable layer kept, and nobody is told of the answers. -/
theorem answering_observers_are_told_once : ∃ reply w',
    Operation.run 2 (.on 0 (.typeText "[1, 2]".toList)) answeringWorld = (.ok reply, w') ∧
      w'.notifications = [⟨0, 0, "[1,".toList⟩, ⟨0, 1, "[1,".toList⟩] := by
  obtain ⟨s, first, second, hslots, -, hopen, hcapacity, hobservers, hfirst, hsecond⟩ :=
    exists_answeringWorld_slots
  have hs : answeringWorld.live? 0 = some s := live?_of_slots hslots
  have hkept : EditableLayer.text (EditableLayer.write s.editable "[1, 2]".toList).1 =
      "[1,".toList := LimitedBuffer.text_write_of_capacity hcapacity _
  have hsilent : answeringWorld.notifications = [] := by decide +kernel
  obtain ⟨hstart, hidle, hedits⟩ :=
    edits_are_told_once_and_echoes_never (E := LimitedBuffer) Display.neverPanics
  obtain ⟨-, -, hdelivers⟩ := hedits answeringWorld 0 s 1 "[1, 2]".toList hs (by decide +kernel)
    answeringWorld_orderly
  obtain ⟨htyped, -⟩ := hdelivers (hidle _ 0 2 answeringObservers (hstart .light 0))
  have htold := htyped hopen
  rw [hkept, hobservers] at htold
  obtain ⟨reply, w', hrun, hnotifications⟩ := htold.once Nat.zero_lt_one <| by
    intro body hbody
    rcases List.mem_cons.mp hbody with rfl | hbody
    · exact hfirst _
    · rw [List.mem_singleton.mp hbody]
      exact hsecond _
  rw [hsilent] at hnotifications
  exact ⟨reply, w', hrun, hnotifications⟩

end Surface
end QueryView
