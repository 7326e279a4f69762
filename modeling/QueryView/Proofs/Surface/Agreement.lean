/-
The text of a surface and the text of its editable layer.

An editable layer need not keep what is written to it: it may cut a text off, or put it into a
normal form.  Typing reads back what the layer made of the text, so that afterwards both texts
agree, whatever the layer does.  Setting a text records what was asked for instead.  The main
theorem, `agrees_after_typing`, says so of every world that can be reached; the texts agree
after a text was set if and only if the layer kept it.

Observers that set things, languages, colors, themes and layouts leave an agreement alone, as
long as they set only texts that every layer keeps.
-/
import QueryView.Proofs.Surface.Edit

namespace QueryView
namespace Surface

variable {E R : Type} [EditableLayer E]

/-- A text that editable layers keep as it is written to them. -/
def Kept (E : Type) [EditableLayer E] (t : Text) : Prop :=
  ∀ e : E, EditableLayer.text (EditableLayer.write e t).1 = t

namespace World

variable {w w' : World E R} {n : Nat}

/-- The embedder has a handle to the surface, which has the text of its editable layer, and
whose runs are that text, highlighted. -/
structure Agrees (w : World E R) (n : Nat) : Prop where
  handles : w.handles n ≠ 0
  live : ∃ s, w.live? n = some s ∧ s.state.text = EditableLayer.text s.editable ∧
    s.runs = s.state.highlighter.highlight (EditableLayer.text s.editable) s.state.language

theorem Agrees.congr (h : w.Agrees n) (hhandles : w'.handles n = w.handles n)
    (hlive : w'.live? n = w.live? n) : w'.Agrees n :=
  ⟨hhandles ▸ h.handles, hlive ▸ h.live⟩

variable [RenderLayer R]

/-- A surface that was shown has the runs of its text, so only the texts have to agree. -/
theorem agrees_of_rendering {s : Live E R} (hhandles : w.handles n ≠ 0)
    (hlive : w.live? n = some (rendering s))
    (htext : s.state.text = EditableLayer.text s.editable) :
    w.Agrees n := by
  refine ⟨hhandles, rendering s, hlive, htext, ?_⟩
  show s.state.highlighter.highlight s.state.text s.state.language = _
  rw [htext]
  rfl

/-- A step in which one surface is changed and shown. -/
theorem Agrees.shown (h : w.Agrees n) {k : Nat} {f : Live E R → Live E R}
    (hhandles : w'.handles n = w.handles n)
    (hlive : w'.live? n = if k = n then (w.live? n).map fun s => rendering (f s) else w.live? n)
    (hf : ∀ s, s.state.text = EditableLayer.text s.editable →
      (f s).state.text = EditableLayer.text (f s).editable) : w'.Agrees n := by
  obtain ⟨s, hs, htext, -⟩ := h.live
  by_cases hk : k = n
  · refine agrees_of_rendering (s := f s) (hhandles ▸ h.handles) ?_ (hf s htext)
    rw [hlive, if_pos hk, hs, Option.map_some]
  · refine h.congr hhandles ?_
    rw [hlive, if_neg hk]

end World

variable [RenderLayer R]

theorem SetMove.agrees {w w' : World E R} {n : Nat}
    (hlayout : ∀ (e : E) layout, EditableLayer.text (EditableLayer.applyLayout e layout) =
      EditableLayer.text e)
    (h : SetMove (Kept E) w w') (hw : w.Agrees n) : w'.Agrees n := by
  cases h with
  | noted words w => exact hw.congr rfl rfl
  | entered k w => exact hw.congr World.handles_enter World.live?_enter
  | left k w => exact hw.congr World.handles_leave (World.live?_leave_of_handles hw.handles)
  | shown k f w hf =>
    refine hw.shown World.handles_changeAndShow World.live?_changeAndShow fun s htext => ?_
    exact (hf s.state).trans htext
  | laidOut k f w hf =>
    refine hw.shown (k := k) (f := fun s =>
      World.laying (f s.state).layout { s with state := f s.state }) ?_ ?_ fun s htext => ?_
    · rw [World.handles_applyLayout, World.changeState, World.handles_changeLive]
    · rw [World.live?_applyLayout, World.changeState, World.live?_changeLive]
      split
      · exact Option.map_map ..
      · rfl
    · exact ((hf s.state).trans htext).trans (hlayout _ _).symm
  | written k t w ht =>
    refine hw.shown (k := k) (f := fun s => { s with
      state := { s.state with text := t }, editable := (EditableLayer.write s.editable t).1 })
      ?_ ?_ fun s _ => (ht s.editable).symm
    · rw [World.handles_changeAndShow, World.handles_changeLive]
    · rw [World.live?_changeAndShow, World.live?_changeLive]
      split
      · exact Option.map_map ..
      · rfl

namespace World

open Surface.Action

variable {calm : R → Prop} {w : World E R} {n : Nat} {s : Live E R}

/-- The world is left behind by a run of an embedder. -/
def Reachable (w : World E R) : Prop :=
  ∃ theme depth, ∃ program : Script E R,
    (program.run (Operation.run depth) (World.initial theme)).2 = w

theorem Reachable.idle (h : w.Reachable) (n : Nat) : w.Idle n := by
  obtain ⟨theme, depth, program, rfl⟩ := h
  exact (idle_initial theme n).script depth program

/-- A surface after a text was written to its editable layer and recorded as its own. -/
def rewriting (t typed : Text) (s : Live E R) : Live E R :=
  { s with
    state := { s.state with text := typed }, editable := (EditableLayer.write s.editable t).1 }

/-- The world in which a surface has written its editable layer and was shown. -/
theorem live?_rewritten (hs : w.live? n = some s) (t typed : Text) :
    (w.rewritten n t typed).live? n = some (rendering (rewriting t typed s)) := by
  rw [rewritten, edited, live?_changeAndShow, if_pos rfl, live?_changeLive, if_pos rfl, live?_enter,
    hs]
  rfl

theorem handles_rewritten (hhandles : w.handles n ≠ 0) (t typed : Text) :
    (w.rewritten n t typed).handles n ≠ 0 := by
  rwa [rewritten, edited, handles_changeAndShow, handles_changeLive, handles_enter]

/-- Setting a text records what was asked for. -/
theorem exists_run_setText_eq (hcalm : NeverPanics calm) (hw : w.Orderly calm)
    (hhandles : w.handles n ≠ 0) (depth : Nat) (t : Text) :
    ∃ reply, Operation.run (depth + 1) (.on n (.setText t)) w =
      (.ok reply, (w.rewritten n t t).leave n) := by
  have hheld := held_enter (held_of_handles hhandles)
  obtain ⟨shown, hshown⟩ := exists_changeAndShow_eq
    (hw.enter.written (n := n) fun e => EditableLayer.write e t) hcalm
    (fun s => { s with text := t }) (n := n)
  have hanswer : answer (Operation.run depth) n (.setText t) (w.enter n) =
      (.ok (replyOf shown), w.rewritten n t t) := by
    rw [answer, bind_apply, setText_apply (hw.enter.wired n) hheld, hshown]
    rfl
  refine ⟨replyOf shown, ?_⟩
  rw [run_on_apply hhandles, andFinally, hanswer]

/-- Typing a text makes the two texts agree, and observers that set things leave it at that. -/
theorem exists_run_typeText_agrees (hcalm : NeverPanics calm) (hw : w.Orderly calm)
    (hlayout : ∀ (e : E) layout, EditableLayer.text (EditableLayer.applyLayout e layout) =
      EditableLayer.text e)
    (hs : w.live? n = some s) (hhandles : w.handles n ≠ 0) (hidle : w.Idle n)
    (hopen : s.state.layout.readOnly = false)
    (hsets : ∀ body ∈ s.observers, ∀ t, (body t).Sets (Kept E)) (depth : Nat) (t : Text) :
    ∃ reply w', Operation.run (depth + 2) (.on n (.typeText t)) w = (.ok reply, w') ∧
      w'.Agrees n := by
  have hedit := typed_makesEdit hcalm hw hs hhandles hidle hopen (depth + 1) t
  obtain ⟨reply, w', hrun, hcourse⟩ := hedit.exists_course hcalm
    ((hw.enter.written _).changeAndShow hcalm _) fun body hbody => hsets body hbody _
  refine ⟨reply, w', hrun, ?_⟩
  refine hcourse.keeps (P := fun w => w.Agrees n) (fun _ _ hmove hw => hmove.agrees hlayout hw)
    (fun _ _ _ _ hw => hw.congr rfl rfl) ?_
  exact agrees_of_rendering (handles_rewritten hhandles t _) (live?_rewritten hs t _) rfl

end World

open World

theorem agrees_after_typing {calm : R → Prop} (hcalm : NeverPanics calm)
    (hlayout : ∀ (e : E) layout, EditableLayer.text (EditableLayer.applyLayout e layout) =
      EditableLayer.text e)
    (w : World E R) (hreachable : w.Reachable) (hw : w.Orderly calm)
    (n : Nat) (s : Live E R) (hs : w.live? n = some s) (hhandles : w.handles n ≠ 0)
    (depth : Nat) (t : Text) :
    (s.state.layout.readOnly = false → 0 < depth →
      (∀ body ∈ s.observers, ∀ t, (body t).Sets (Kept E)) →
      ∃ reply w', Operation.run (depth + 1) (.on n (.typeText t)) w = (.ok reply, w') ∧
        w'.Agrees n) ∧
    ∃ reply w', Operation.run (depth + 1) (.on n (.setText t)) w = (.ok reply, w') ∧
      (w'.live? n).map (fun s => s.state.text) = some t ∧
      (w'.Agrees n ↔ EditableLayer.text (EditableLayer.write s.editable t).1 = t) := by
  constructor
  · intro hopen hdepth hsets
    obtain ⟨depth, rfl⟩ := Nat.exists_eq_add_of_lt hdepth
    rw [Nat.zero_add]
    exact exists_run_typeText_agrees hcalm hw hlayout hs hhandles (hreachable.idle n) hopen hsets
      depth t
  · obtain ⟨reply, hrun⟩ := exists_run_setText_eq hcalm hw hhandles depth t
    have hheld := handles_rewritten hhandles t t
    have hlive := (live?_leave_of_handles (n := n) hheld).trans (live?_rewritten hs t t)
    refine ⟨reply, _, hrun, by rw [hlive]; rfl, ?_, ?_⟩
    · intro hagrees
      obtain ⟨s', hs', htext, -⟩ := hagrees.live
      rw [hlive] at hs'
      cases hs'
      exact htext.symm
    · intro hkept
      refine agrees_of_rendering (s := rewriting t t s) ?_ hlive hkept.symm
      rwa [handles_leave]

/-! ## A field of limited length -/

def limited : Script LimitedBuffer Display :=
  .perform (.create { capacity := some 3 } {}) fun _ =>
  .perform (.on 0 (.connect (.edits 0))) fun _ =>
  .perform (.on 0 (.observe fun _ =>
    .perform (.on 0 (.setLanguage .json)) fun _ => .done)) fun _ => .done

def limitedWorld : World LimitedBuffer Display :=
  (limited.run (Operation.run 2) (World.initial .light)).2

/-- The surface has a text that its editable layer cut off. -/
theorem limited_field_disagrees :
    let w := (Operation.run 2 (.on 0 (.setText "abcdef".toList)) limitedWorld).2
    (w.live? 0).map (fun s => s.state.text) = some "abcdef".toList ∧
      (w.live? 0).map (fun s => EditableLayer.text s.editable) = some "abc".toList := by
  decide +kernel

theorem exists_limitedWorld_slots : ∃ s observer, limitedWorld.slots =
      [{ live := some s, handles := 1, guests := 0, hook := some (.edits 0) }] ∧
    s.rendered.mode = .works ∧ s.state.layout.readOnly = false ∧ s.editable.capacity = some 3 ∧
    s.observers = [observer] ∧ ∀ t, (observer t).Sets (Kept LimitedBuffer) :=
  ⟨_, _, rfl, rfl, rfl, rfl, rfl, fun _ => ⟨trivial, fun _ => trivial⟩⟩

theorem limitedWorld_orderly : limitedWorld.Orderly Display.Calm := by
  obtain ⟨s, -, hslots, hmode, -⟩ := exists_limitedWorld_slots
  exact orderly_of_slots hslots (Display.calm_of_mode hmode fun _ => nofun)

/-- Typing a text that is too long makes the texts agree, and so does setting one that is not. -/
theorem limited_field_agrees :
    (∃ reply w', Operation.run 2 (.on 0 (.typeText "abcdef".toList)) limitedWorld =
      (.ok reply, w') ∧ w'.Agrees 0) ∧
    ∃ reply w', Operation.run 2 (.on 0 (.setText "abc".toList)) limitedWorld =
      (.ok reply, w') ∧ w'.Agrees 0 := by
  obtain ⟨s, observer, hslots, -, hopen, hcapacity, hobservers, hsets⟩ := exists_limitedWorld_slots
  have hs : limitedWorld.live? 0 = some s := live?_of_slots hslots
  have hkept : EditableLayer.text (EditableLayer.write s.editable "abc".toList).1 =
      "abc".toList := LimitedBuffer.text_write_of_capacity hcapacity _
  have hagrees := agrees_after_typing Display.neverPanics (fun _ _ => rfl) limitedWorld
    ⟨.light, 2, limited, rfl⟩ limitedWorld_orderly 0 s hs (by decide +kernel) 1
  constructor
  · refine (hagrees "abcdef".toList).1 hopen Nat.zero_lt_one ?_
    intro body hbody t
    rw [hobservers] at hbody
    rw [List.mem_singleton.mp hbody]
    exact hsets t
  · obtain ⟨-, reply, w', hrun, -, hiff⟩ := hagrees "abc".toList
    exact ⟨reply, w', hrun, hiff.mpr hkept⟩

end Surface
end QueryView
