/-
Echo flags that are given back.

A surface raises its echo flag while it writes to its editable layer, and gives the flag back
the value that it had when the write ends, also when the write is broken off.  Meanwhile the
layer may report, and whatever is connected to its hook may perform any operation.  The main
theorem, `raisedIn_run`, says that an operation leaves no flag up that was not up before,
whatever it is, whatever callbacks do in it, and however it ends.

`RaisedIn F` bounds the surfaces whose flag is up.  A write is the reason why this is proved
for all bounds at once: what happens inside the write keeps the bound with one more surface in
it.
-/
import QueryView.Proofs.Surface.Turn

namespace QueryView
namespace Surface
namespace World

open Surface.Action

variable {E R : Type} {w w' : World E R} {F : Nat → Prop} {n : Nat}

/-- Only surfaces in `F` take reports for echoes. -/
def RaisedIn (F : Nat → Prop) (w : World E R) : Prop :=
  ∀ n s, w.live? n = some s → s.suppressing = true → F n

theorem raisedIn_initial (theme : Theme) : (World.initial theme : World E R).RaisedIn F := by
  intro n s hs
  simp [World.initial, live?] at hs

/-- A flag that is set goes up or comes down at one surface only. -/
theorem RaisedIn.setSuppressing (h : w.RaisedIn F) {G : Nat → Prop} {on : Bool}
    (hother : ∀ k, k ≠ n → F k → G k) (hself : on = true → G n) :
    (w.setSuppressing n on).RaisedIn G := by
  intro k s' hs' hup
  rw [World.setSuppressing, live?_changeLive] at hs'
  split at hs'
  · next hk =>
    obtain ⟨s, -, rfl⟩ := Option.map_eq_some_iff.mp hs'
    exact hk ▸ hself hup
  · next hk => exact hother k (Ne.symm hk) (h k s' hs' hup)

theorem exists_flag_of_changeLive {f : Live E R → Live E R} {k : Nat} {s' : Live E R}
    (hs' : (w.changeLive n f).live? k = some s') (hf : ∀ s, (f s).suppressing = s.suppressing) :
    ∃ s, w.live? k = some s ∧ s'.suppressing = s.suppressing := by
  rw [live?_changeLive] at hs'
  split at hs'
  · obtain ⟨s, hs, rfl⟩ := Option.map_eq_some_iff.mp hs'
    exact ⟨s, hs, hf s⟩
  · exact ⟨s', hs', rfl⟩

end World

/-! ## Turns -/

section
variable {E R : Type} [EditableLayer E] {p : Operation E R → Prop} {F : Nat → Prop}
  {w w' : World E R} {n : Nat}

theorem Aside.exists_flag (h : Aside p w w') {s' : Live E R} (hs' : w'.live? n = some s') :
    ∃ s, w.live? n = some s ∧ s'.suppressing = s.suppressing := by
  cases h with
  | noted | told | abandoned | kept => exact ⟨s', hs', rfl⟩
  | written | drawn | observed => exact World.exists_flag_of_changeLive hs' fun _ => rfl
  | connected | disconnected | handled =>
    rw [World.live?_changeSlot_of_live (by intro _; rfl)] at hs'
    exact ⟨s', hs', rfl⟩
  | entered =>
    rw [World.live?_enter] at hs'
    exact ⟨s', hs', rfl⟩

/-- After a turn a surface has the flag that it had, or it is a new one, whose flag is down. -/
theorem Turn.flag [RenderLayer R] (h : Turn p w w') {s' : Live E R}
    (hs' : w'.live? n = some s') :
    (∃ s, w.live? n = some s ∧ s'.suppressing = s.suppressing) ∨
      n = w.slots.length ∧ s'.suppressing = false := by
  have hsame (hs : w.live? n = some s') :
      ∃ s, w.live? n = some s ∧ s'.suppressing = s.suppressing := ⟨s', hs, rfl⟩
  cases h with
  | aside h => exact .inl (h.exists_flag hs')
  | shown m f w hf =>
    rw [World.live?_changeAndShow] at hs'
    split at hs'
    · obtain ⟨s, hs, rfl⟩ := Option.map_eq_some_iff.mp hs'
      exact .inl ⟨s, hs, rfl⟩
    · exact .inl (hsame hs')
  | followed m w =>
    rw [World.followTheme_apply, World.live?_changeAndShow] at hs'
    split at hs'
    · obtain ⟨s, hs, rfl⟩ := Option.map_eq_some_iff.mp hs'
      exact .inl ⟨s, hs, rfl⟩
    · exact .inl (hsame hs')
  | laidOut m change w _ =>
    rw [World.live?_applyLayout, World.changeState, World.live?_changeLive] at hs'
    split at hs'
    · obtain ⟨_, hchanged, rfl⟩ := Option.map_eq_some_iff.mp hs'
      obtain ⟨s, hs, rfl⟩ := Option.map_eq_some_iff.mp hchanged
      exact .inl ⟨s, hs, rfl⟩
    · exact .inl (hsame hs')
  | created editable rendered w =>
    rcases World.live?_create hs' with hs | ⟨hnew, rfl⟩
    · exact .inl (hsame hs)
    · exact .inr ⟨hnew, rfl⟩
  | left m w =>
    rcases World.live?_leave (w := w) (n := m) (m := n) with hleave | hleave
    · exact .inl (hsame (hleave ▸ hs'))
    · rw [hleave] at hs'
      cases hs'
  | released m w =>
    rw [World.live?_unsubscribeSurface] at hs'
    split at hs'
    · obtain ⟨s, hs, rfl⟩ := Option.map_eq_some_iff.mp hs'
      exact .inl ⟨s, hs, rfl⟩
    · exact .inl (hsame hs')
  | subscribed | unsubscribed | stranded => exact .inl (hsame hs')
  | strandedSurface m w _ _ =>
    rcases World.live?_strandSurface_or (w := w) (n := m) (m := n) with hstays | hgone
    · exact .inl (hsame (hstays ▸ hs'))
    · rw [hgone] at hs'
      cases hs'

theorem Turn.raisedIn [RenderLayer R] (h : Turn p w w') (hw : w.RaisedIn F) :
    w'.RaisedIn F := by
  intro n s' hs' hup
  rcases h.flag hs' with ⟨s, hs, hflag⟩ | ⟨-, hdown⟩
  · exact hw n s hs (hflag ▸ hup)
  · exact absurd (hdown.symm.trans hup) Bool.false_ne_true

end

/-! ## Runs -/

namespace World

open Surface.Action

variable {E R : Type}

/-- The flag is up during a write, so the write has to be good for one more surface. -/
theorem matches_suppressing_raisedIn {α : Type} {n : Nat} {a b : Action E R α}
    (h : Matches False RaisedIn a b) :
    Matches False RaisedIn (suppressing n a) (suppressing n b) := by
  intro w F hw _
  have hraised : (w.setSuppressing n true).RaisedIn fun k => k = n ∨ F k :=
    hw.setSuppressing (fun k _ hk => .inr hk) fun _ => .inl rfl
  obtain ⟨hsame, hwritten⟩ := h _ (fun k => k = n ∨ F k) hraised False.elim
  have hwrite : suppressing n a w = suppressing n b w := by
    simp only [suppressing, get_apply, bind_apply, modify_apply, andFinally, hsame]
  refine ⟨hwrite, ?_⟩
  refine hwritten.setSuppressing (fun k hne hk => hk.resolve_left hne) fun hbefore => ?_
  cases hs : w.live? n with
  | none =>
    rw [hs] at hbefore
    cases hbefore
  | some s =>
    rw [hs] at hbefore
    exact hw n s hs hbefore

theorem themed_raisedIn (theme : Theme) :
    Themed (RaisedIn : (Nat → Prop) → World E R → Prop) theme where
  withTheme := fun _ _ hw => hw
  called := fun _ _ _ hw => hw

variable [EditableLayer E] [RenderLayer R]

theorem walked_raisedIn :
    Walked False (fun _ : Operation E R => True) (RaisedIn : (Nat → Prop) → World E R → Prop) where
  stores := fun _ w _ => w.stores_true
  turn := fun _ _ _ hw h => h.raisedIn hw
  write := fun {_} _ {_ _} h => matches_suppressing_raisedIn h

end World

namespace Operation

open Surface.Action World

variable {E R : Type} [EditableLayer E] [RenderLayer R]

/-- An operation leaves no flag up that was not up before. -/
theorem raisedIn_run (depth : Nat) (op : Operation E R) :
    Matches False RaisedIn (run depth op) (run depth op) :=
  matches_run walked_raisedIn themed_raisedIn depth op op.throughout_true

end Operation

namespace World

variable {E R : Type} {w : World E R} {n : Nat}

/-- The surface with a number is not in the middle of a write. -/
def Idle (w : World E R) (n : Nat) : Prop := ∀ s, w.live? n = some s → s.suppressing = false

theorem idle_iff_raisedIn : w.Idle n ↔ w.RaisedIn fun k => k ≠ n := by
  constructor
  · rintro h k s hs hup rfl
    exact Bool.false_ne_true ((h s hs).symm.trans hup)
  · intro h s hs
    cases hup : s.suppressing with
    | false => rfl
    | true => exact absurd rfl (h n s hs hup)

theorem idle_initial (theme : Theme) (n : Nat) : (World.initial theme : World E R).Idle n :=
  idle_iff_raisedIn.mpr (raisedIn_initial theme)

/-- Whatever an embedder or a callback does, a surface that was not in the middle of a write is
not so afterwards. -/
theorem Idle.script [EditableLayer E] [RenderLayer R] (h : w.Idle n) (depth : Nat)
    (script : Script E R) : (script.run (Operation.run depth) w).2.Idle n :=
  idle_iff_raisedIn.mpr <| Operation.kept_by_script walked_raisedIn themed_raisedIn
    (idle_iff_raisedIn.mp h) depth script script.throughout_true

end World
end Surface
end QueryView
