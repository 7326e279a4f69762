/-
One guest more.

An operation holds its surface as a guest while it runs, so that the surface outlives whatever
its callbacks do with the handles.  How many guests there are decides nothing as long as there
is one: nobody can look at the number, and only the last guest who leaves may destroy the
surface.  `Unaware n` says this of an action in the form of an equation.  With one more guest of
surface `n` the action does the same, and it leaves the guest where he was.

The rules follow the ways in which actions are put together, and `unaware_run` is their
conclusion: no operation is aware of a further guest.  It lets two runs be compared of which one
holds a surface once more than the other.
-/
import QueryView.Proofs.Surface.Echo

namespace QueryView
namespace Surface

variable {E R : Type}

namespace World

/-- How many guests a surface has. -/
def guests (w : World E R) (n : Nat) : Nat := ((w.slots[n]?).map Slot.guests).getD 0

/-! ## Changes that concern no guest -/

/-- Where there is a guest, the change can be made before or after another one enters, and
nobody leaves. -/
def Unconcerned (n : Nat) (f : World E R → World E R) : Prop :=
  ∀ w, w.guests n ≠ 0 → f (w.enter n) = (f w).enter n ∧ (f w).guests n = w.guests n

variable {w : World E R} {n m : Nat}

theorem guests_changeSlot {f : Slot E R → Slot E R} (h : ∀ slot, (f slot).guests = slot.guests) :
    (w.changeSlot m f).guests n = w.guests n := by
  simp only [guests, changeSlot, List.getElem?_modify]
  split <;> cases w.slots[n]? <;> simp [h]

theorem guests_changeSlot_of_ne {f : Slot E R → Slot E R} (h : m ≠ n) :
    (w.changeSlot m f).guests n = w.guests n := by
  simp only [guests, changeSlot, List.getElem?_modify, if_neg h]
  cases w.slots[n]? <;> rfl

theorem guests_changeSlot_self {f : Slot E R → Slot E R} {g : Nat → Nat}
    (h : ∀ slot, (f slot).guests = g slot.guests) (hguests : w.guests n ≠ 0) :
    (w.changeSlot n f).guests n = g (w.guests n) := by
  simp only [guests, changeSlot, List.getElem?_modify] at hguests ⊢
  cases hslot : w.slots[n]? with
  | none => simp [hslot] at hguests
  | some slot => simp [h]

theorem held_of_guests (h : w.guests n ≠ 0) : w.Held n := by
  unfold guests at h
  cases hslot : w.slots[n]? with
  | none => simp [hslot] at h
  | some slot => exact ⟨slot, hslot, fun hzero => h (by simp [hslot, hzero.2])⟩

/-- A surface that somebody has a handle to is there to be entered. -/
theorem guests_enter_ne_zero (h : w.handles n ≠ 0) : (w.enter n).guests n ≠ 0 := by
  obtain ⟨slot, hslot, -⟩ := held_of_handles h
  simp [guests, enter, changeSlot, hslot]

/-- A guest who leaves others behind can come back as if he had not left. -/
theorem enter_leave (h : 2 ≤ w.guests n) :
    (w.leave n).enter n = w ∧ (w.leave n).guests n = w.guests n - 1 := by
  have hleft : (w.changeSlot n fun slot => { slot with guests := slot.guests - 1 }).guests n =
      w.guests n - 1 := guests_changeSlot_self (g := (· - 1)) (fun _ => rfl) (by omega)
  have hleave : w.leave n = w.changeSlot n fun slot => { slot with guests := slot.guests - 1 } :=
    collect_of_held (held_of_guests (by rw [hleft]; omega))
  refine ⟨?_, hleave ▸ hleft⟩
  rw [hleave, enter, changeSlot_changeSlot]
  refine changeSlot_eq_self fun slot hslot => ?_
  have hguests : 2 ≤ slot.guests := by simpa [guests, hslot] using h
  show { slot with guests := slot.guests - 1 + 1 } = slot
  rw [Nat.sub_add_cancel (by omega)]

theorem lt_length_of_guests (h : w.guests n ≠ 0) : n < w.slots.length := by
  obtain ⟨slot, hslot, -⟩ := held_of_guests h
  exact (List.getElem?_eq_some_iff.mp hslot).1

theorem changeSlot_comm_of_ne {f g : Slot E R → Slot E R} (h : m ≠ n) :
    (w.changeSlot n g).changeSlot m f = (w.changeSlot m f).changeSlot n g :=
  congrArg (fun slots => { w with slots }) (List.modify_modify_ne g f w.slots h.symm)

theorem enter_changeSlot {f : Slot E R → Slot E R} (h : ∀ slot, f { slot with
      guests := slot.guests + 1 } = { f slot with guests := (f slot).guests + 1 }) :
    (w.enter n).changeSlot m f = (w.changeSlot m f).enter n := by
  by_cases hmn : m = n
  · subst hmn
    rw [enter, changeSlot_changeSlot, changeSlot_changeSlot]
    exact changeSlot_congr fun slot _ => h slot
  · exact changeSlot_comm_of_ne hmn

theorem unconcerned_changeSlot {f : Slot E R → Slot E R}
    (h : ∀ slot, f { slot with guests := slot.guests + 1 } =
      { f slot with guests := (f slot).guests + 1 })
    (hguests : ∀ slot, (f slot).guests = slot.guests) :
    Unconcerned n (changeSlot m f : World E R → World E R) :=
  fun _ _ => ⟨enter_changeSlot h, guests_changeSlot hguests⟩

theorem unconcerned_changeLive (f : Live E R → Live E R) :
    Unconcerned n (changeLive m f : World E R → World E R) :=
  unconcerned_changeSlot (fun _ => rfl) fun _ => rfl

theorem unconcerned_record (e : Event) : Unconcerned n (record e : World E R → World E R) :=
  fun _ _ => ⟨rfl, rfl⟩

theorem unconcerned_unsubscribeSurface :
    Unconcerned n (unsubscribeSurface m : World E R → World E R) := by
  intro w _
  have hforget (id : Option Nat) : (w.enter n).forget? id = (w.forget? id).enter n ∧
      (w.forget? id).guests n = w.guests n := by
    cases id <;> exact ⟨rfl, rfl⟩
  obtain ⟨hsame, hguests⟩ := hforget ((w.live? m).bind Live.subscription)
  rw [unsubscribeSurface, live?_enter, hsame, unsubscribeSurface]
  exact ⟨enter_changeSlot fun _ => rfl, (guests_changeSlot (by intro _; rfl)).trans hguests⟩

theorem unconcerned_strandSurface :
    Unconcerned n (strandSurface m : World E R → World E R) := by
  intro w _
  let marked : World E R :=
    { w with stranded := w.stranded ++ ((w.live? m).bind Live.subscription).toList }
  have hmarked : (w.enter n).strandSurface m =
      (marked.enter n).changeSlot m fun slot => { slot with live := none } := by
    rw [strandSurface, live?_enter]
    rfl
  rw [hmarked]
  exact ⟨enter_changeSlot fun _ => rfl, guests_changeSlot (w := marked) fun _ => rfl⟩

/-- The guests of one surface may leave before or after somebody enters another. -/
theorem unconcerned_leave (hmn : m ≠ n) : Unconcerned n (leave m : World E R → World E R) := by
  intro w hw
  let left := w.changeSlot m fun slot => { slot with guests := slot.guests - 1 }
  have hleft : (w.enter n).changeSlot m (fun slot => { slot with guests := slot.guests - 1 }) =
      left.enter n := changeSlot_comm_of_ne hmn
  have hguests : left.guests n = w.guests n := guests_changeSlot_of_ne hmn
  have hslot : (left.enter n).slots[m]? = left.slots[m]? := by
    simp only [enter, changeSlot, List.getElem?_modify, if_neg (Ne.symm hmn)]
    cases left.slots[m]? <;> rfl
  show ((w.enter n).changeSlot m _).collect m = (left.collect m).enter n ∧
    (left.collect m).guests n = w.guests n
  rw [hleft, collect, hslot, collect]
  split
  · split
    · obtain ⟨hsame, hkept⟩ :=
        unconcerned_unsubscribeSurface (n := n) (m := m) left (hguests ▸ hw)
      rw [hsame]
      exact ⟨enter_changeSlot fun _ => rfl,
        (guests_changeSlot (by intro _; rfl)).trans (hkept.trans hguests)⟩
    · exact ⟨rfl, hguests⟩
  · exact ⟨rfl, hguests⟩

theorem modify_append {α : Type} {xs ys : List α} {f : α → α} (h : n < xs.length) :
    (xs ++ ys).modify n f = xs.modify n f ++ ys := by
  induction xs generalizing n with
  | nil => cases h
  | cons x xs ih =>
    cases n with
    | zero => rfl
    | succ n => exact congrArg (x :: ·) (ih (Nat.lt_of_succ_lt_succ h))

/-- A new surface does not concern the guests of an old one. -/
theorem unconcerned_append (slot : Slot E R) (f : Notifier E R → Notifier E R) :
    Unconcerned n fun w => { w with slots := w.slots ++ [slot], notifier := f w.notifier } := by
  intro w hw
  have hlt := lt_length_of_guests hw
  refine ⟨?_, by simp only [guests, List.getElem?_append_left hlt]⟩
  simp only [enter, changeSlot, modify_append hlt]

theorem notifierAlive_enter : (w.enter n).notifierAlive = w.notifierAlive := by
  have hany (slots : List (Slot E R)) : (slots.modify n fun slot =>
      { slot with guests := slot.guests + 1 }).any (fun slot => slot.live.isSome) =
        slots.any fun slot => slot.live.isSome := by
    induction slots generalizing n with
    | nil => rw [List.modify_nil]
    | cons slot slots ih =>
      cases n with
      | zero => rfl
      | succ n =>
        rw [List.modify_succ_cons, List.any_cons, List.any_cons, ih]
  show (w.notifier.held || (w.slots.modify n _).any _ || !w.rounds.isEmpty) = _
  rw [hany]
  rfl

theorem held?_enter (i : Nat) : (w.enter n).held? i = w.held? i := by
  rw [held?, held?, notifierAlive_enter]
  rfl

theorem keeps_enter (i : Nat) : (w.enter n).keeps i = w.keeps i := by
  rw [keeps, keeps, notifierAlive_enter]
  rfl

theorem offers_enter (belonging : Belonging) :
    (w.enter n).offers belonging = w.offers belonging := by
  cases belonging with
  | subscription i => rw [offers, offers, held?_enter]
  | handle k =>
    rw [offers, offers, handles_enter]
    rfl

/-- Whoever has a guest is held, whether or not there is another one. -/
theorem isHeld_enter (h : w.guests n ≠ 0) : (w.enter n).isHeld m = w.isHeld m := by
  by_cases hmn : n = m
  · subst hmn
    obtain ⟨slot, hslot, -⟩ := held_of_guests h
    have hguests : slot.guests ≠ 0 := by simpa [guests, hslot] using h
    simp [isHeld, enter, changeSlot, hslot, hguests]
  · simp only [isHeld, enter, changeSlot, List.getElem?_modify, if_neg hmn]
    cases w.slots[m]? <;> rfl

/-- Nobody can see how many guests there are. -/
theorem snapshot_enter : (w.enter n).snapshot = w.snapshot := by
  have hmap (slots : List (Slot E R)) : (slots.modify n fun slot =>
      { slot with guests := slot.guests + 1 }).map (fun slot => slot.live.map view) =
        slots.map fun slot => slot.live.map view := by
    refine List.ext_getElem? fun i => ?_
    simp only [List.getElem?_map, List.getElem?_modify]
    cases slots[i]? with
    | none => rfl
    | some slot => by_cases hi : n = i <;> simp [hi]
  exact congrArg (Snapshot.mk w.notifier.theme) (hmap w.slots)

end World

/-! ## Actions that are not aware of a guest -/

namespace Action

variable {α β : Type} {n m : Nat}

/-- Where the surface has a guest, one more makes no difference, and stays. -/
def Unaware (n : Nat) (a : Action E R α) : Prop :=
  ∀ w, w.guests n ≠ 0 →
    a (w.enter n) = ((a w).1, (a w).2.enter n) ∧ (a w).2.guests n = w.guests n

theorem unaware_pure (x : α) : Unaware n (pure x : Action E R α) := fun _ _ => ⟨rfl, rfl⟩

theorem unaware_throw (e : Abort) : Unaware n (throw e : Action E R α) := fun _ _ => ⟨rfl, rfl⟩

theorem unaware_modify {f : World E R → World E R} (h : World.Unconcerned n f) :
    Unaware n (modify f : Action E R PUnit) :=
  fun w hw => ⟨congrArg (Prod.mk (Except.ok PUnit.unit)) (h w hw).1, (h w hw).2⟩

theorem unaware_bind {a : Action E R α} {f : α → Action E R β} (h : Unaware n a)
    (hf : ∀ x, Unaware n (f x)) : Unaware n (a >>= f) := by
  intro w hw
  obtain ⟨hsame, hguests⟩ := h w hw
  rw [bind_apply, bind_apply, hsame]
  rcases ha : a w with ⟨_ | x, w'⟩ <;> rw [ha] at hguests
  · exact ⟨rfl, hguests⟩
  · obtain ⟨hsame', hguests'⟩ := hf x w' (hguests ▸ hw)
    exact ⟨hsame', hguests'.trans hguests⟩

/-- The world is looked at, but for the number of guests. -/
theorem unaware_get_bind {f : World E R → Action E R β}
    (hlook : ∀ w, w.guests n ≠ 0 → f (w.enter n) = f w) (h : ∀ w, Unaware n (f w)) :
    Unaware n (get >>= f) := by
  intro w hw
  rw [get_bind_apply, get_bind_apply, hlook w hw]
  exact h w w hw

theorem unaware_ite {c : Prop} [Decidable c] {a b : Action E R α} (h : Unaware n a)
    (h' : Unaware n b) : Unaware n (if c then a else b) := by
  split
  · exact h
  · exact h'

theorem unaware_forM {xs : List β} {f : β → Action E R PUnit} (h : ∀ x, Unaware n (f x)) :
    Unaware n (xs.forM f) := by
  induction xs with
  | nil => exact unaware_pure _
  | cons x xs ih => exact unaware_bind (h x) fun _ => ih

theorem unaware_unwinding {a : Action E R α} {cleanup : Action E R Unit} (h : Unaware n a)
    (hcleanup : Unaware n cleanup) : Unaware n (unwinding a cleanup) := by
  intro w hw
  obtain ⟨hsame, hguests⟩ := h w hw
  rcases ha : a w with ⟨e | x, w'⟩ <;> rw [ha] at hsame hguests
  · obtain ⟨hsame', hguests'⟩ := hcleanup w' (hguests ▸ hw)
    rw [unwinding_of_error ha, unwinding_of_error hsame, hsame']
    exact ⟨rfl, hguests'.trans hguests⟩
  · rw [unwinding_of_ok ha, unwinding_of_ok hsame]
    exact ⟨rfl, hguests⟩

theorem unaware_dropEach {xs : List β} {drop : β → Action E R Unit} (h : ∀ x, Unaware n (drop x)) :
    Unaware n (dropEach drop xs) := by
  induction xs with
  | nil => exact unaware_pure _
  | cons x xs ih => exact unaware_bind (unaware_unwinding (h x) ih) fun _ => ih

theorem unaware_catching {a : Action E R α} (h : Unaware n a) : Unaware n (catching a) := by
  intro w hw
  obtain ⟨hsame, hguests⟩ := h w hw
  unfold catching
  rw [hsame]
  rcases ha : a w with ⟨(_ | _) | _, w'⟩ <;> rw [ha] at hguests <;> exact ⟨rfl, hguests⟩

theorem unaware_andFinally {a : Action E R α} {last : World E R → World E R} (h : Unaware n a)
    (hlast : World.Unconcerned n last) : Unaware n (andFinally a last) := by
  intro w hw
  obtain ⟨hsame, hguests⟩ := h w hw
  obtain ⟨hsame', hguests'⟩ := hlast (a w).2 (hguests ▸ hw)
  refine ⟨?_, hguests'.trans hguests⟩
  show ((a (w.enter n)).1, last (a (w.enter n)).2) = _
  rw [hsame]
  exact congrArg (Prod.mk (a w).1) hsame'

/-- Whoever holds the surface itself finds two guests, of whom one is left when he leaves. -/
theorem unaware_holding {a : Action E R α} (h : Unaware n a) : Unaware n (holding m a) := by
  by_cases hmn : m = n
  · subst hmn
    intro w hw
    have hentered : (w.enter m).guests m = w.guests m + 1 :=
      World.guests_changeSlot_self (fun _ => rfl) hw
    obtain ⟨hsame, hguests⟩ := h (w.enter m) (by rw [hentered]; exact Nat.succ_ne_zero _)
    rw [hentered] at hguests
    obtain ⟨hback, hleft⟩ := World.enter_leave (w := (a (w.enter m)).2) (n := m) (by omega)
    refine ⟨?_, hleft.trans (by rw [hguests]; rfl)⟩
    show ((a ((w.enter m).enter m)).1, (a ((w.enter m).enter m)).2.leave m) =
      ((a (w.enter m)).1, ((a (w.enter m)).2.leave m).enter m)
    rw [hsame, hback, World.leave_enter (World.held_of_guests (hguests ▸ Nat.succ_ne_zero _))]
  · have henter : World.Unconcerned n (World.enter m : World E R → World E R) := fun w _ =>
      ⟨World.enter_changeSlot fun _ => rfl, World.guests_changeSlot_of_ne hmn⟩
    exact unaware_bind (unaware_modify henter) fun _ =>
      unaware_andFinally h (World.unconcerned_leave hmn)

theorem unaware_suppressing {a : Action E R α} (h : Unaware n a) :
    Unaware n (suppressing m a) := by
  refine unaware_get_bind (fun w _ => by rw [World.live?_enter]) fun w => ?_
  exact unaware_bind (unaware_modify (World.unconcerned_changeLive _)) fun _ =>
    unaware_andFinally h (World.unconcerned_changeLive _)

end Action

/-! ## Operations -/

namespace World

open Surface.Action

variable {n k : Nat}

theorem unaware_dropBorrowed (belonging : Belonging) :
    Unaware n (dropBorrowed belonging : Action E R Unit) := by
  cases belonging with
  | subscription i =>
    refine unaware_get_bind (fun w _ => by rw [held?_enter]) fun w => ?_
    split
    · exact unaware_pure _
    · exact unaware_bind (unaware_modify fun _ _ => ⟨rfl, rfl⟩) fun _ => unaware_throw _
  | handle k =>
    refine unaware_get_bind (fun w _ => by rw [handles_enter]) fun w => ?_
    refine unaware_ite (unaware_pure _) ?_
    refine unaware_bind (unaware_modify (unconcerned_changeSlot (fun _ => rfl) fun _ => rfl))
      fun _ => unaware_get_bind (fun w hw => by rw [isHeld_enter hw, live?_enter]) fun w => ?_
    refine unaware_ite (unaware_pure _) ?_
    exact unaware_bind (unaware_modify unconcerned_strandSurface) fun _ =>
      unaware_ite (unaware_throw _) (unaware_pure _)

theorem unaware_retire {drop : Belonging → Action E R Unit}
    (hdrop : ∀ belonging, Unaware n (drop belonging)) (i : Nat) :
    Unaware n (retire drop i) := by
  refine unaware_get_bind (fun w _ => by rw [keeps_enter]; rfl) fun w => ?_
  refine unaware_ite (unaware_pure _) ?_
  exact unaware_bind (unaware_modify fun _ _ => ⟨rfl, rfl⟩) fun _ => unaware_dropEach hdrop

theorem unaware_giveBack (i id : Nat) : Unaware n (giveBack i id : Action E R Unit) := by
  refine unaware_bind (unaware_modify fun _ _ => ⟨rfl, rfl⟩) fun _ => ?_
  refine unaware_get_bind (fun w _ => by rw [notifierAlive_enter]) fun w => ?_
  exact unaware_ite (unaware_retire unaware_dropBorrowed i) (unaware_pure _)

theorem unaware_dropOwned (belonging : Belonging) :
    Unaware n (dropOwned belonging : Action E R Unit) := by
  cases belonging with
  | subscription i =>
    refine unaware_get_bind (fun w _ => by rw [held?_enter]) fun w => ?_
    split
    · exact unaware_pure _
    · exact unaware_giveBack _ _
  | handle k =>
    refine unaware_get_bind (fun w _ => by rw [handles_enter]) fun w => ?_
    refine unaware_ite (unaware_pure _) (unaware_holding ?_)
    exact unaware_modify (unconcerned_changeSlot (fun _ => rfl) fun _ => rfl)

theorem unaware_letGo (x : Nat × Watcher E R) : Unaware n (letGo x) := by
  obtain ⟨-, k | ⟨i, body⟩⟩ := x
  · exact unaware_bind (unaware_modify fun _ _ => ⟨rfl, rfl⟩) fun _ => unaware_pure _
  · exact unaware_bind (unaware_modify fun _ _ => ⟨rfl, rfl⟩) fun _ =>
      unaware_retire unaware_dropOwned i

theorem unaware_round {call : Nat × Watcher E R → Action E R Unit}
    {watchers : List (Nat × Watcher E R)} (h : ∀ x, Unaware n (call x)) :
    Unaware n (round call watchers) := by
  refine unaware_bind (unaware_modify fun _ _ => ⟨rfl, rfl⟩) fun _ => ?_
  refine unaware_andFinally (unaware_unwinding ?_ ?_) fun _ _ => ⟨rfl, rfl⟩
  · exact unaware_forM fun x => unaware_bind (h x) fun _ => unaware_letGo x
  · exact unaware_get_bind (fun _ _ => rfl) fun w => unaware_dropEach unaware_letGo

section
variable [RenderLayer R]

theorem unaware_refresh : Unaware n (refresh k : Action E R _) := by
  refine unaware_get_bind (fun w _ => by rw [live?_enter]) fun w => ?_
  split
  · exact unaware_pure _
  · refine unaware_bind (unaware_modify (unconcerned_changeLive _)) fun _ =>
      unaware_bind (unaware_modify (unconcerned_record _)) fun _ => ?_
    split
    · exact unaware_pure _
    · exact unaware_pure _
    · exact unaware_throw _

theorem unaware_changeAndShow (f : State → State) :
    Unaware n (changeAndShow k f : Action E R _) :=
  unaware_bind (unaware_modify (unconcerned_changeLive _)) fun _ => unaware_refresh

theorem unaware_followTheme : Unaware n (followTheme k : Action E R _) :=
  unaware_get_bind (fun _ _ => rfl) fun _ => unaware_changeAndShow _

variable [EditableLayer E]

theorem unaware_applyLayout : Unaware n (applyLayout k : Action E R _) := by
  refine unaware_get_bind (fun w _ => by rw [live?_enter]) fun w => ?_
  split
  · exact unaware_pure _
  · exact unaware_bind (unaware_modify (unconcerned_changeLive _)) fun _ =>
      unaware_bind (unaware_modify (unconcerned_record _)) fun _ =>
      unaware_bind (unaware_modify (unconcerned_changeLive _)) fun _ =>
      unaware_bind (unaware_modify (unconcerned_record _)) fun _ => unaware_refresh

theorem unaware_create (editable : E) (rendered : R) : Unaware n (create editable rendered) := by
  refine unaware_get_bind (fun w _ => ?_) fun w => ?_
  · have hlength : (w.enter n).slots.length = w.slots.length := length_changeSlot
    simp only [hlength]
    rfl
  · refine unaware_bind (unaware_modify (unconcerned_append _ fun notifier =>
      { notifier with
        observers := notifier.observers ++ [(w.notifier.nextId, .surface w.slots.length)]
        nextId := w.notifier.nextId + 1 })) fun _ => unaware_holding ?_
    refine unaware_bind unaware_applyLayout fun shown => ?_
    split
    · exact unaware_bind (unaware_modify (unconcerned_changeSlot (fun _ => rfl) fun _ => rfl))
        fun _ => unaware_pure _
    · exact unaware_pure _

end

section
variable {m : Meaning E R} (hm : ∀ op, Unaware n (m op))
include hm

theorem unaware_script : ∀ script : Script E R, Unaware n (script.run m)
  | .done => unaware_pure _
  | .panic _ => unaware_throw _
  | .note _ next => unaware_bind (unaware_modify (unconcerned_record _)) fun _ =>
    unaware_script next
  | .look next => unaware_get_bind (fun w _ => by rw [snapshot_enter]) fun w =>
    unaware_script (next w.snapshot)
  | .perform op next => unaware_bind (hm op) fun reply => unaware_script (next reply)
  | .attempt op next => unaware_bind (unaware_catching (hm op)) fun outcome =>
    unaware_script (next outcome)

theorem unaware_notifyObservers (t : Text) : Unaware n (notifyObservers m k t) := by
  refine unaware_get_bind (fun w _ => by rw [live?_enter]) fun w => unaware_forM fun x => ?_
  exact unaware_bind (unaware_modify (unconcerned_record _)) fun _ => unaware_script hm _

variable [RenderLayer R]

theorem unaware_takeEdit (t : Text) : Unaware n (takeEdit m k t) := by
  refine unaware_get_bind (fun w _ => by rw [live?_enter]) fun w => ?_
  refine unaware_ite (unaware_pure _) ?_
  exact unaware_bind (unaware_changeAndShow _) fun _ =>
    unaware_bind (unaware_notifyObservers hm t) fun _ => unaware_pure _

theorem unaware_report (t : Text) : Unaware n (report m k t) := by
  refine unaware_get_bind (fun w _ => by rw [hook?_enter]) fun w => ?_
  split
  · exact unaware_pure _
  · exact unaware_script hm _
  · refine unaware_get_bind (fun w _ => by rw [live?_enter]) fun w => ?_
    refine unaware_ite (unaware_holding ?_) (unaware_pure _)
    exact unaware_bind (unaware_takeEdit hm t) fun _ => unaware_pure _

theorem unaware_editLayer (change : E → E × List Text) : Unaware n (editLayer m k change) := by
  refine unaware_get_bind (fun w _ => by rw [live?_enter]) fun w => ?_
  split
  · exact unaware_pure _
  · exact unaware_bind (unaware_modify (unconcerned_changeLive _)) fun _ =>
      unaware_forM fun t => unaware_report hm t

theorem unaware_tell (theme : Theme) (watcher : Watcher E R) :
    Unaware n (tell m theme watcher) := by
  cases watcher with
  | surface k =>
    refine unaware_get_bind (fun w _ => by rw [live?_enter]) fun w => ?_
    refine unaware_ite (unaware_holding ?_) (unaware_pure _)
    exact unaware_bind unaware_followTheme fun _ => unaware_pure _
  | observer i body =>
    exact unaware_bind (unaware_modify (unconcerned_record _)) fun _ => unaware_script hm _

theorem unaware_setTheme (theme : Theme) : Unaware n (setTheme m theme) := by
  refine unaware_get_bind (fun _ _ => rfl) fun w => unaware_ite (unaware_pure _) ?_
  exact unaware_bind (unaware_modify fun _ _ => ⟨rfl, rfl⟩) fun _ =>
    unaware_round fun x => unaware_tell hm theme x.2

variable [EditableLayer E]

theorem unaware_setText (t : Text) : Unaware n (setText m k t) :=
  unaware_bind (unaware_suppressing (unaware_editLayer hm _)) fun _ => unaware_changeAndShow _

theorem unaware_typeText (t : Text) : Unaware n (typeText m k t) := by
  refine unaware_get_bind (fun w _ => by rw [live?_enter]) fun w => ?_
  refine unaware_ite (unaware_pure _) (unaware_bind (unaware_suppressing ?_) fun typed => ?_)
  · exact unaware_bind (unaware_editLayer hm _) fun _ =>
      unaware_get_bind (fun w _ => by rw [live?_enter]) fun _ => unaware_pure _
  · cases typed with
    | none => exact unaware_pure _
    | some typed => exact unaware_takeEdit hm typed

theorem unaware_answer (request : Request E R) : Unaware n (answer m k request) := by
  have hreply (a : Action E R (Except Failure Unit)) (h : Unaware n a) :
      Unaware n (do return replyOf (← a)) := unaware_bind h fun _ => unaware_pure _
  have hdone (f : World E R → World E R) (h : Unconcerned n f) :
      Unaware n (do modify f; return Reply.done) :=
    unaware_bind (unaware_modify h) fun _ => unaware_pure _
  cases request with
  | setText t => exact hreply _ (unaware_setText hm t)
  | typeText t => exact hreply _ (unaware_typeText hm t)
  | edited t => exact hreply _ (unaware_takeEdit hm t)
  | setLanguage l => exact hreply _ (unaware_changeAndShow _)
  | setPlainTextColor c => exact hreply _ (unaware_changeAndShow _)
  | followTheme => exact hreply _ unaware_followTheme
  | changeLayout change =>
    exact unaware_bind (unaware_modify (unconcerned_changeLive _)) fun _ =>
      hreply _ unaware_applyLayout
  | observe body => exact hdone _ (unconcerned_changeLive _)
  | editLayer change => exact unaware_bind (unaware_editLayer hm change) fun _ => unaware_pure _
  | renderLayer change =>
    refine unaware_get_bind (fun w _ => by rw [live?_enter]) fun w => ?_
    split
    · exact unaware_pure _
    · exact unaware_bind (unaware_modify (unconcerned_changeLive _)) fun _ => unaware_pure _
  | connect handler => exact hdone _ (unconcerned_changeSlot (fun _ => rfl) fun _ => rfl)
  | dispose => exact hdone _ unconcerned_unsubscribeSurface
  | clone => exact hdone _ (unconcerned_changeSlot (fun _ => rfl) fun _ => rfl)
  | drop => exact hdone _ (unconcerned_changeSlot (fun _ => rfl) fun _ => rfl)

end
end World

namespace Operation

open Surface.Action World

variable [EditableLayer E] [RenderLayer R] {n : Nat}

theorem unaware_step {m : Meaning E R} (hm : ∀ op, Unaware n (m op)) (op : Operation E R) :
    Unaware n (step m op) := by
  cases op with
  | create editable rendered =>
    exact unaware_get_bind (fun _ _ => rfl) fun _ =>
      unaware_ite (unaware_create editable rendered) (unaware_pure _)
  | on k request =>
    refine unaware_get_bind (fun w _ => by rw [handles_enter]) fun _ => ?_
    exact unaware_ite (unaware_pure _) (unaware_holding (unaware_answer hm request))
  | report k t => exact unaware_bind (unaware_report hm t) fun _ => unaware_pure _
  | disconnect k =>
    exact unaware_bind (unaware_modify (unconcerned_changeSlot (fun _ => rfl) fun _ => rfl))
      fun _ => unaware_pure _
  | subscribe body =>
    refine unaware_get_bind (fun _ _ => rfl) fun _ => unaware_ite ?_ (unaware_pure _)
    exact unaware_bind (unaware_modify fun _ _ => ⟨rfl, rfl⟩) fun _ => unaware_pure _
  | unsubscribe i =>
    refine unaware_get_bind (fun w _ => by rw [held?_enter]) fun w => ?_
    split
    · exact unaware_bind (unaware_giveBack _ _) fun _ => unaware_pure _
    · exact unaware_pure _
  | entrust i belonging =>
    refine unaware_get_bind (fun w _ => by rw [keeps_enter, offers_enter]) fun w => ?_
    refine unaware_ite ?_ (unaware_pure _)
    exact unaware_bind (unaware_modify fun _ _ => ⟨rfl, rfl⟩) fun _ => unaware_pure _
  | setTheme theme =>
    refine unaware_get_bind (fun _ _ => rfl) fun _ => unaware_ite ?_ (unaware_pure _)
    exact unaware_bind (unaware_setTheme hm theme) fun _ => unaware_pure _
  | releaseNotifier =>
    exact unaware_bind (unaware_modify fun _ _ => ⟨rfl, rfl⟩) fun _ => unaware_pure _

/-- No operation is aware of one more guest of a surface that has a guest. -/
theorem unaware_run (depth : Nat) (op : Operation E R) : Unaware n (run depth op) := by
  induction depth generalizing op with
  | zero => exact unaware_throw _
  | succ depth ih => exact unaware_step ih op

end Operation
end Surface
end QueryView
