/-
What a change of the world does to the surfaces in it.

Every change is made of changes of one slot, of the notifier and of the trace.  The lemmas
say what can be looked up afterwards: which surfaces are alive, what is connected to their
hooks, and whom the notifier tells.
-/
import QueryView.Surface.Ownership

namespace QueryView
namespace Surface
namespace World

variable {E R : Type} {w : World E R}

theorem live?_changeSlot {n m : Nat} {f : Slot E R → Slot E R} :
    (w.changeSlot n f).live? m =
      if n = m then (w.slots[m]?).bind fun slot => (f slot).live else w.live? m := by
  simp only [live?, changeSlot, List.getElem?_modify]
  split <;> cases w.slots[m]? <;> rfl

theorem hook?_changeSlot {n m : Nat} {f : Slot E R → Slot E R} :
    (w.changeSlot n f).hook? m =
      if n = m then (w.slots[m]?).bind fun slot => (f slot).hook else w.hook? m := by
  simp only [hook?, changeSlot, List.getElem?_modify]
  split <;> cases w.slots[m]? <;> rfl

/-- A change of a slot that keeps its surface changes no surface. -/
theorem live?_changeSlot_of_live {n m : Nat} {f : Slot E R → Slot E R}
    (h : ∀ slot, (f slot).live = slot.live) : (w.changeSlot n f).live? m = w.live? m := by
  rw [live?_changeSlot]
  split
  · simp only [h, live?]
  · rfl

theorem hook?_changeSlot_of_hook {n m : Nat} {f : Slot E R → Slot E R}
    (h : ∀ slot, (f slot).hook = slot.hook) : (w.changeSlot n f).hook? m = w.hook? m := by
  rw [hook?_changeSlot]
  split
  · simp only [h, hook?]
  · rfl

@[simp] theorem live?_changeLive {n m : Nat} {f : Live E R → Live E R} :
    (w.changeLive n f).live? m = if n = m then (w.live? m).map f else w.live? m := by
  rw [changeLive, live?_changeSlot]
  split
  · simp only [live?]; cases w.slots[m]? <;> rfl
  · rfl

theorem live?_changeState {n : Nat} {s : Live E R} (hs : w.live? n = some s) (f : State → State) :
    (w.changeState n f).live? n = some { s with state := f s.state } := by
  rw [changeState, live?_changeLive, if_pos rfl, hs, Option.map_some]

@[simp] theorem hook?_changeLive {n m : Nat} {f : Live E R → Live E R} :
    (w.changeLive n f).hook? m = w.hook? m := hook?_changeSlot_of_hook fun _ => rfl

theorem changeSlot_handles (n : Nat) (w : World E R) :
    (w.changeSlot n fun slot => { slot with handles := id slot.handles }) = w :=
  congrArg (fun slots => { w with slots }) (List.modify_id n w.slots)

theorem handles_changeSlot {n m : Nat} {f : Slot E R → Slot E R}
    (h : ∀ slot, (f slot).handles = slot.handles) :
    (w.changeSlot n f).handles m = w.handles m := by
  simp only [handles, changeSlot, List.getElem?_modify]
  cases w.slots[m]? with
  | none => rfl
  | some slot =>
    show (if n = m then f slot else slot).handles = slot.handles
    split
    · exact h slot
    · rfl

@[simp] theorem handles_changeLive {n m : Nat} {f : Live E R → Live E R} :
    (w.changeLive n f).handles m = w.handles m := handles_changeSlot fun _ => rfl

@[simp] theorem handles_record {e : Event} {m : Nat} : (w.record e).handles m = w.handles m := rfl

@[simp] theorem notifier_changeLive {n : Nat} {f : Live E R → Live E R} :
    (w.changeLive n f).notifier = w.notifier := rfl

@[simp] theorem trace_changeSlot {n : Nat} {f : Slot E R → Slot E R} :
    (w.changeSlot n f).trace = w.trace := rfl

@[simp] theorem trace_changeLive {n : Nat} {f : Live E R → Live E R} :
    (w.changeLive n f).trace = w.trace := rfl

@[simp] theorem live?_record {e : Event} {m : Nat} : (w.record e).live? m = w.live? m := rfl

@[simp] theorem hook?_record {e : Event} {m : Nat} : (w.record e).hook? m = w.hook? m := rfl

@[simp] theorem notifier_record {e : Event} : (w.record e).notifier = w.notifier := rfl

@[simp] theorem trace_record {e : Event} : (w.record e).trace = w.trace ++ [e] := rfl

@[simp] theorem length_changeSlot {n : Nat} {f : Slot E R → Slot E R} :
    (w.changeSlot n f).slots.length = w.slots.length := List.length_modify f w.slots n

@[simp] theorem length_changeLive {n : Nat} {f : Live E R → Live E R} :
    (w.changeLive n f).slots.length = w.slots.length := length_changeSlot

@[simp] theorem length_record {e : Event} : (w.record e).slots.length = w.slots.length := rfl

/-! ## Changes one after the other -/

theorem changeSlot_changeSlot {n : Nat} {f g : Slot E R → Slot E R} :
    (w.changeSlot n f).changeSlot n g = w.changeSlot n (g ∘ f) :=
  congrArg (fun slots => { w with slots }) (List.modify_modify_eq f g n w.slots)

theorem changeSlot_congr {n : Nat} {f g : Slot E R → Slot E R}
    (h : ∀ slot, w.slots[n]? = some slot → f slot = g slot) :
    w.changeSlot n f = w.changeSlot n g := by
  have hslots : w.slots.modify n f = w.slots.modify n g := by
    refine List.ext_getElem? fun i => ?_
    rw [List.getElem?_modify, List.getElem?_modify]
    by_cases hi : n = i
    · subst hi
      cases hslot : w.slots[n]? with
      | none => rfl
      | some slot => simp [h slot hslot]
    · simp [hi]
  exact congrArg (fun slots => { w with slots }) hslots

theorem changeSlot_eq_self {n : Nat} {f : Slot E R → Slot E R}
    (h : ∀ slot, w.slots[n]? = some slot → f slot = slot) : w.changeSlot n f = w := by
  rw [changeSlot_congr (g := id) h]
  exact congrArg (fun slots => { w with slots }) (List.modify_id n w.slots)

theorem changeLive_changeLive {n : Nat} {f g : Live E R → Live E R} :
    (w.changeLive n f).changeLive n g = w.changeLive n (g ∘ f) := by
  rw [changeLive, changeLive, changeSlot_changeSlot]
  refine changeSlot_congr fun slot _ => ?_
  simp only [Function.comp_apply, Option.map_map]

theorem changeLive_congr {n : Nat} {f g : Live E R → Live E R}
    (h : ∀ s, w.live? n = some s → f s = g s) : w.changeLive n f = w.changeLive n g := by
  refine changeSlot_congr fun slot hslot => ?_
  have hlive : slot.live.map f = slot.live.map g := by
    cases hs : slot.live with
    | none => rfl
    | some s =>
      have hw : w.live? n = some s := by rw [live?, hslot, Option.bind_some, hs]
      rw [Option.map_some, Option.map_some, h s hw]
  rw [hlive]

theorem changeLive_eq_self {n : Nat} {f : Live E R → Live E R}
    (h : ∀ s, w.live? n = some s → f s = s) : w.changeLive n f = w := by
  rw [changeLive_congr (g := id) h]
  exact changeSlot_eq_self fun slot _ => by rw [Option.map_id]; rfl

/-! ## Subscriptions -/

theorem subscriptions_of_held? {i id : Nat} (h : w.held? i = some id) :
    w.subscriptions[i]? = some (some id) := by
  unfold held? at h
  split at h
  · cases h
  · exact Option.join_eq_some_iff.mp h

@[simp] theorem live?_forget? {id : Option Nat} {m : Nat} :
    (w.forget? id).live? m = w.live? m := by cases id <;> rfl

@[simp] theorem hook?_forget? {id : Option Nat} {m : Nat} :
    (w.forget? id).hook? m = w.hook? m := by cases id <;> rfl

@[simp] theorem trace_forget? {id : Option Nat} : (w.forget? id).trace = w.trace := by
  cases id <;> rfl

theorem observers_forget?_sublist {id : Option Nat} :
    (w.forget? id).notifier.observers.Sublist w.notifier.observers := by
  cases id with
  | none => exact List.Sublist.refl _
  | some id => exact List.filter_sublist

theorem live?_unsubscribeSurface {n m : Nat} :
    (w.unsubscribeSurface n).live? m =
      if n = m then (w.live? m).map fun s => { s with subscription := none }
      else w.live? m := by
  simp only [unsubscribeSurface, live?_changeLive, live?_forget?]

@[simp] theorem hook?_unsubscribeSurface {n m : Nat} :
    (w.unsubscribeSurface n).hook? m = w.hook? m := by
  simp only [unsubscribeSurface, hook?_changeLive, hook?_forget?]

@[simp] theorem handles_unsubscribeSurface {n m : Nat} :
    (w.unsubscribeSurface n).handles m = w.handles m := by
  rw [unsubscribeSurface, handles_changeLive]
  cases (w.live? n).bind Live.subscription <;> rfl

@[simp] theorem trace_unsubscribeSurface {n : Nat} :
    (w.unsubscribeSurface n).trace = w.trace := by
  simp only [unsubscribeSurface, trace_changeLive, trace_forget?]

@[simp] theorem length_unsubscribeSurface {n : Nat} :
    (w.unsubscribeSurface n).slots.length = w.slots.length := by
  rw [unsubscribeSurface, length_changeLive]
  cases (w.live? n).bind Live.subscription <;> rfl

/-! ## The end of a surface

A surface that nobody holds is destroyed, and so is its subscription.  All others stay as
they are. -/

theorem live?_collect {n m : Nat} :
    (w.collect n).live? m = w.live? m ∨ (w.collect n).live? m = none := by
  unfold collect
  split
  · split
    · rw [live?_changeSlot]
      split
      · right; cases (w.unsubscribeSurface n).slots[m]? <;> rfl
      · next hne => left; rw [live?_unsubscribeSurface, if_neg hne]
    · exact .inl rfl
  · exact .inl rfl

@[simp] theorem hook?_collect {n m : Nat} : (w.collect n).hook? m = w.hook? m := by
  unfold collect
  split
  · split
    · rw [hook?_changeSlot_of_hook (by intro _; rfl), hook?_unsubscribeSurface]
    · rfl
  · rfl

@[simp] theorem handles_collect {n m : Nat} : (w.collect n).handles m = w.handles m := by
  unfold collect
  split
  · split
    · rw [handles_changeSlot (by intro _; rfl), handles_unsubscribeSurface]
    · rfl
  · rfl

/-- A surface to which the embedder has a handle stays. -/
theorem live?_collect_of_handles {n m : Nat} (h : w.handles m ≠ 0) :
    (w.collect n).live? m = w.live? m := by
  unfold collect
  split
  · next slot hslot =>
    split
    · next hfree =>
      have hne : n ≠ m := by
        rintro rfl
        exact h (by rw [handles, hslot]; exact hfree.1)
      rw [live?_changeSlot, if_neg hne, live?_unsubscribeSurface, if_neg hne]
    · rfl
  · rfl

@[simp] theorem trace_collect {n : Nat} : (w.collect n).trace = w.trace := by
  unfold collect
  split
  · split
    · rw [trace_changeSlot, trace_unsubscribeSurface]
    · rfl
  · rfl

@[simp] theorem length_collect {n : Nat} : (w.collect n).slots.length = w.slots.length := by
  unfold collect
  split
  · split
    · rw [length_changeSlot, length_unsubscribeSurface]
    · rfl
  · rfl

theorem observers_collect_sublist {n : Nat} :
    (w.collect n).notifier.observers.Sublist w.notifier.observers := by
  unfold collect
  split
  · split
    · exact observers_forget?_sublist
    · exact List.Sublist.refl _
  · exact List.Sublist.refl _

@[simp] theorem live?_enter {n m : Nat} : (w.enter n).live? m = w.live? m :=
  live?_changeSlot_of_live fun _ => rfl

@[simp] theorem handles_enter {n m : Nat} : (w.enter n).handles m = w.handles m :=
  handles_changeSlot fun _ => rfl

@[simp] theorem hook?_enter {n m : Nat} : (w.enter n).hook? m = w.hook? m :=
  hook?_changeSlot_of_hook fun _ => rfl

theorem live?_leave {n m : Nat} :
    (w.leave n).live? m = w.live? m ∨ (w.leave n).live? m = none := by
  rcases live?_collect (w := w.changeSlot n fun slot => { slot with guests := slot.guests - 1 })
    (n := n) (m := m) with h | h
  · exact .inl (h.trans (live?_changeSlot_of_live fun _ => rfl))
  · exact .inr h

/-- All others stay. -/
theorem live?_leave_of_ne {n m : Nat} (hne : n ≠ m) : (w.leave n).live? m = w.live? m := by
  unfold leave collect
  split
  · split
    · rw [live?_changeSlot, if_neg hne, live?_unsubscribeSurface, if_neg hne, live?_changeSlot,
        if_neg hne]
    · rw [live?_changeSlot, if_neg hne]
  · rw [live?_changeSlot, if_neg hne]

@[simp] theorem handles_leave {n m : Nat} : (w.leave n).handles m = w.handles m :=
  handles_collect.trans (handles_changeSlot fun _ => rfl)

theorem live?_leave_of_handles {n m : Nat} (h : w.handles m ≠ 0) :
    (w.leave n).live? m = w.live? m := by
  rw [leave, live?_collect_of_handles, live?_changeSlot_of_live (by intro _; rfl)]
  rwa [handles_changeSlot (by intro _; rfl)]

@[simp] theorem hook?_leave {n m : Nat} : (w.leave n).hook? m = w.hook? m :=
  hook?_collect.trans (hook?_changeSlot_of_hook fun _ => rfl)

@[simp] theorem trace_leave {n : Nat} : (w.leave n).trace = w.trace := by
  rw [leave, trace_collect, trace_changeSlot]

@[simp] theorem length_leave {n : Nat} : (w.leave n).slots.length = w.slots.length := by
  rw [leave, length_collect, length_changeSlot]

theorem observers_leave_sublist {n : Nat} :
    (w.leave n).notifier.observers.Sublist w.notifier.observers := observers_collect_sublist

theorem mem_entrust {i : Nat} {belonging : Belonging} {b : Nat × Belonging}
    (h : b ∈ (w.entrust i belonging).belongings) : b ∈ w.belongings ∨ b = (i, belonging) := by
  rcases List.mem_append.mp h with hold | hnew
  · cases belonging with
    | subscription => exact .inl (List.mem_filter.mp hold).1
    | handle => exact .inl hold
  · exact .inr (List.mem_singleton.mp hnew)

/-! ## A surface whose observer stays -/

theorem live?_strandSurface {n m : Nat} :
    (w.strandSurface n).live? m = if n = m then none else w.live? m := by
  rw [strandSurface, live?_changeSlot]
  split
  · cases w.slots[m]? <;> rfl
  · rfl

theorem live?_strandSurface_or {n m : Nat} :
    (w.strandSurface n).live? m = w.live? m ∨ (w.strandSurface n).live? m = none := by
  rw [live?_strandSurface]
  split
  · exact .inr rfl
  · exact .inl rfl

@[simp] theorem hook?_strandSurface {n m : Nat} : (w.strandSurface n).hook? m = w.hook? m :=
  hook?_changeSlot_of_hook fun _ => rfl

@[simp] theorem length_strandSurface {n : Nat} :
    (w.strandSurface n).slots.length = w.slots.length := length_changeSlot

/-! ## The beginning of a surface -/

/-- The surface that is made of two layers. -/
def fresh (editable : E) (rendered : R) (w : World E R) : Live E R :=
  { state := State.initial w.notifier.theme, runs := [], editable, rendered
    suppressing := false, observers := [], subscription := some w.notifier.nextId }

/-- The world with one more surface, which nobody holds yet and which was not shown. -/
def withFresh (editable : E) (rendered : R) (w : World E R) : World E R :=
  { w with
    slots := w.slots ++ [{ live := some (w.fresh editable rendered), handles := 0, guests := 0
                           hook := none }]
    notifier :=
      { w.notifier with
        observers := w.notifier.observers ++ [(w.notifier.nextId, .surface w.slots.length)]
        nextId := w.notifier.nextId + 1 } }

@[simp] theorem live?_withFresh {editable : E} {rendered : R} {m : Nat} :
    (w.withFresh editable rendered).live? m =
      if m = w.slots.length then some (w.fresh editable rendered) else w.live? m := by
  simp only [live?, withFresh, List.getElem?_append]
  split
  · next hlt => rw [if_neg (Nat.ne_of_lt hlt)]
  · next hge =>
    split
    · next he => simp [he]
    · next hne =>
      have hlen : w.slots.length < m := by omega
      rw [List.getElem?_eq_none (by simp; omega), List.getElem?_eq_none (by omega)]

@[simp] theorem hook?_withFresh {editable : E} {rendered : R} {m : Nat} :
    (w.withFresh editable rendered).hook? m = w.hook? m := by
  simp only [hook?, withFresh, List.getElem?_append]
  split
  · rfl
  · next hge =>
    rw [List.getElem?_eq_none (l := w.slots) (by omega)]
    rcases hm : m - w.slots.length with _ | k <;> rfl

end World
end Surface
end QueryView
