/-
What showing a surface does to the world.

Three actions show a surface: one shows it as it is, one lays it out first, and one creates
it.  Each is described by the world that it leaves, whatever becomes of the attempt to
render: a render layer that fails or panics leaves the same surfaces behind as one that
does not, but for itself.
-/
import QueryView.Proofs.Surface.Alike
import QueryView.Proofs.Surface.Slots
import QueryView.Surface.Run

namespace QueryView
namespace Surface
namespace World

open Surface.Action

variable {E R : Type} [RenderLayer R] {w : World E R}

/-! ## Showing a surface as it is -/

/-- A surface after its runs were handed to the render layer. -/
def rendering (s : Live E R) : Live E R :=
  { s with runs := s.state.runs, rendered := (RenderLayer.render s.rendered s.state.runs).1 }

/-- The runs that are handed over and what becomes of them. -/
def renderedEvent (n : Nat) (s : Live E R) : Event :=
  .rendered n s.state.runs (RenderLayer.render s.rendered s.state.runs).2

theorem refresh_of_none {n : Nat} (h : w.live? n = none) :
    refresh n w = (.ok (.ok ()), w) := by
  rw [refresh, get_bind_apply, h]
  rfl

theorem refresh_world {n : Nat} {s : Live E R} (h : w.live? n = some s) :
    (refresh n w).2 = ((w.changeLive n fun s' => { s' with
      runs := s.state.runs
      rendered := (RenderLayer.render s.rendered s.state.runs).1 }).record
        (renderedEvent n s)) := by
  rw [refresh, get_bind_apply, h]
  simp only [bind_apply, modify_apply, renderedEvent]
  rcases (RenderLayer.render s.rendered s.state.runs).2 with _ | _ | _ <;> rfl

@[simp] theorem live?_refresh {n m : Nat} :
    (refresh n w).2.live? m = if n = m then (w.live? m).map rendering else w.live? m := by
  cases h : w.live? n with
  | none =>
    rw [refresh_of_none h]
    split
    · next hnm => rw [← hnm, h]; rfl
    · rfl
  | some s =>
    rw [refresh_world h, live?_record, live?_changeLive]
    split
    · next hnm => rw [← hnm, h]; rfl
    · rfl

@[simp] theorem hook?_refresh {n m : Nat} : (refresh n w).2.hook? m = w.hook? m := by
  cases h : w.live? n with
  | none => rw [refresh_of_none h]
  | some s => rw [refresh_world h, hook?_record, hook?_changeLive]

@[simp] theorem handles_refresh {n m : Nat} : (refresh n w).2.handles m = w.handles m := by
  cases h : w.live? n with
  | none => rw [refresh_of_none h]
  | some s => rw [refresh_world h, handles_record, handles_changeLive]

@[simp] theorem notifier_refresh {n : Nat} : (refresh n w).2.notifier = w.notifier := by
  cases h : w.live? n with
  | none => rw [refresh_of_none h]
  | some s => rw [refresh_world h, notifier_record, notifier_changeLive]

@[simp] theorem length_refresh {n : Nat} :
    (refresh n w).2.slots.length = w.slots.length := by
  cases h : w.live? n with
  | none => rw [refresh_of_none h]
  | some s => rw [refresh_world h, length_record, length_changeLive]

theorem trace_refresh {n : Nat} {s : Live E R} (h : w.live? n = some s) :
    (refresh n w).2.trace = w.trace ++ [renderedEvent n s] := by
  rw [refresh_world h, trace_record, trace_changeLive]

theorem changeAndShow_apply (n : Nat) (f : State → State) (w : World E R) :
    changeAndShow n f w = refresh n (w.changeState n f) := by
  rw [changeAndShow, bind_apply, modify_apply]

theorem followTheme_apply (n : Nat) (w : World E R) :
    followTheme n w = changeAndShow n (fun s => { s with theme := w.notifier.theme }) w := by
  rw [followTheme, get_bind_apply]

@[simp] theorem live?_changeAndShow {n m : Nat} {f : State → State} :
    (changeAndShow n f w).2.live? m =
      if n = m then (w.live? m).map fun s => rendering { s with state := f s.state }
      else w.live? m := by
  rw [changeAndShow_apply, live?_refresh, changeState, live?_changeLive]
  split
  · rw [Option.map_map]
    rfl
  · rfl

@[simp] theorem handles_changeAndShow {n m : Nat} {f : State → State} :
    (changeAndShow n f w).2.handles m = w.handles m := by
  rw [changeAndShow_apply, handles_refresh, changeState, handles_changeLive]

theorem length_changeAndShow (n : Nat) (f : State → State) :
    (changeAndShow n f w).2.slots.length = w.slots.length := by
  rw [changeAndShow_apply, length_refresh, changeState, length_changeLive]

/-! ## Laying a surface out -/

variable [EditableLayer E]

/-- The world in which both layers of a surface have been given a layout. -/
def layOut (n : Nat) (layout : Layout) (w : World E R) : World E R :=
  (((w.changeLive n fun s =>
        { s with editable := EditableLayer.applyLayout s.editable layout }).record
      (.editableLayout n layout)).changeLive n fun s =>
        { s with rendered := RenderLayer.applyLayout s.rendered layout }).record
      (.renderLayout n layout)

theorem applyLayout_of_none {n : Nat} (h : w.live? n = none) :
    applyLayout n w = (.ok (.ok ()), w) := by
  rw [applyLayout, get_bind_apply, h]
  rfl

theorem applyLayout_of_some {n : Nat} {s : Live E R} (h : w.live? n = some s) :
    applyLayout n w = refresh n (w.layOut n s.state.layout) := by
  rw [applyLayout, get_bind_apply, h]
  simp only [bind_apply, modify_apply]
  rfl

/-- A surface whose layers have been given a layout. -/
def laying (layout : Layout) (s : Live E R) : Live E R :=
  { s with
    editable := EditableLayer.applyLayout s.editable layout
    rendered := RenderLayer.applyLayout s.rendered layout }

@[simp] theorem live?_layOut {n m : Nat} {layout : Layout} :
    (w.layOut n layout).live? m =
      if n = m then (w.live? m).map (laying layout) else w.live? m := by
  simp only [layOut, live?_record, live?_changeLive]
  split
  · cases w.live? m <;> rfl
  · rfl

@[simp] theorem hook?_layOut {n m : Nat} {layout : Layout} :
    (w.layOut n layout).hook? m = w.hook? m := by
  simp only [layOut, hook?_record, hook?_changeLive]

@[simp] theorem handles_layOut {n m : Nat} {layout : Layout} :
    (w.layOut n layout).handles m = w.handles m := by
  simp only [layOut, handles_record, handles_changeLive]

theorem trace_layOut {n : Nat} {layout : Layout} :
    (w.layOut n layout).trace =
      w.trace ++ [.editableLayout n layout, .renderLayout n layout] := by
  simp only [layOut, trace_record, trace_changeLive, List.append_assoc, List.cons_append,
    List.nil_append]

@[simp] theorem live?_applyLayout {n m : Nat} :
    (applyLayout n w).2.live? m =
      if n = m then (w.live? m).map fun s => rendering (laying s.state.layout s)
      else w.live? m := by
  cases h : w.live? n with
  | none =>
    rw [applyLayout_of_none h]
    split
    · next hnm => rw [← hnm, h]; rfl
    · rfl
  | some s =>
    rw [applyLayout_of_some h, live?_refresh, live?_layOut]
    split
    · next hnm => rw [← hnm, h]; rfl
    · rfl

@[simp] theorem handles_applyLayout {n m : Nat} :
    (applyLayout n w).2.handles m = w.handles m := by
  cases h : w.live? n with
  | none => rw [applyLayout_of_none h]
  | some s => rw [applyLayout_of_some h, handles_refresh, handles_layOut]

@[simp] theorem length_applyLayout {n : Nat} :
    (applyLayout n w).2.slots.length = w.slots.length := by
  cases h : w.live? n with
  | none => rw [applyLayout_of_none h]
  | some s =>
    rw [applyLayout_of_some h, length_refresh]
    simp only [layOut, length_record, length_changeLive]

/-! ## Creating a surface -/

/-- Creating a surface ends with giving it up again as a guest.  Until then it is laid out
and shown, and if that succeeds the embedder gets a handle to it. -/
theorem create_world (editable : E) (rendered : R) (w : World E R) :
    ∃ f : Nat → Nat, (create editable rendered w).2 =
      (((applyLayout w.slots.length
          ((w.withFresh editable rendered).enter w.slots.length)).2.changeSlot w.slots.length
        fun slot => { slot with handles := f slot.handles }).leave w.slots.length) := by
  rw [create, get_bind_apply, bind_apply, modify_apply]
  show ∃ f : Nat → Nat, (holding w.slots.length _ (w.withFresh editable rendered)).2 = _
  rw [holding, bind_apply, modify_apply]
  simp only [andFinally, bind_apply]
  rcases applyLayout w.slots.length
    ((w.withFresh editable rendered).enter w.slots.length) with ⟨_ | _ | _, w'⟩
  · exact ⟨id, by rw [changeSlot_handles]⟩
  · exact ⟨id, by rw [changeSlot_handles]; rfl⟩
  · exact ⟨fun _ => 1, rfl⟩

/-- A surface that is alive after another one was made is an old one, or the new one when
it was laid out and shown. -/
theorem live?_create {n : Nat} {editable : E} {rendered : R} {s' : Live E R}
    (h : (create editable rendered w).2.live? n = some s') : w.live? n = some s' ∨
      n = w.slots.length ∧
        s' = rendering (laying Layout.standard (w.fresh editable rendered)) := by
  obtain ⟨f, hcreate⟩ := create_world editable rendered w
  rw [hcreate] at h
  rcases live?_leave (n := w.slots.length) (m := n) with hleave | hleave
  · rw [hleave, live?_changeSlot_of_live (by intro _; rfl), live?_applyLayout, live?_enter,
      live?_withFresh] at h
    split at h
    · next hn =>
      rw [if_pos hn.symm] at h
      exact .inr ⟨hn.symm, (Option.some.inj h).symm⟩
    · next hn =>
      rw [if_neg (Ne.symm hn)] at h
      exact .inl h
  · rw [hleave] at h
    cases h

end World
end Surface
end QueryView
