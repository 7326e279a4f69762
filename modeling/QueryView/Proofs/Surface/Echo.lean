/-
Echoes of programmatic writes.

A surface that writes to its editable layer takes what the layer reports meanwhile for an
echo.  However often the layer reports, and whatever it reports, nothing comes of it, as long
as it reports to its own surface: the write leaves the world as it was but for the layer, and
the echo flag has the value that it had before.  Setting a text and typing one are then
actions without a report in them (`setText_apply`, `typeText_apply`).
-/
import QueryView.Proofs.Surface.Shown

namespace QueryView
namespace Surface
namespace World

open Surface.Action

variable {E R : Type} {w : World E R} {n : Nat}

/-! ## Surfaces that somebody holds -/

def Held (w : World E R) (n : Nat) : Prop :=
  ∃ slot, w.slots[n]? = some slot ∧ ¬ (slot.handles = 0 ∧ slot.guests = 0)

theorem held_changeLive (h : w.Held n) (f : Live E R → Live E R) : (w.changeLive n f).Held n := by
  obtain ⟨slot, hslot, hheld⟩ := h
  exact ⟨{ slot with live := slot.live.map f }, by simp [changeLive, changeSlot, hslot], hheld⟩

theorem held_of_handles (h : w.handles n ≠ 0) : w.Held n := by
  unfold handles at h
  cases hslot : w.slots[n]? with
  | none => simp [hslot] at h
  | some slot => exact ⟨slot, hslot, fun hzero => h (by simp [hslot, hzero.1])⟩

theorem held_enter (h : w.Held n) : (w.enter n).Held n := by
  obtain ⟨slot, hslot, -⟩ := h
  exact ⟨{ slot with guests := slot.guests + 1 }, by simp [enter, changeSlot, hslot],
    fun hzero => Nat.succ_ne_zero slot.guests hzero.2⟩

theorem collect_of_held (h : w.Held n) : w.collect n = w := by
  obtain ⟨slot, hslot, hheld⟩ := h
  simp only [collect, hslot, if_neg hheld]

/-- A guest leaves a surface that others hold as it found it. -/
theorem leave_enter (h : w.Held n) : (w.enter n).leave n = w := by
  have hback : (w.enter n).changeSlot n (fun slot => { slot with guests := slot.guests - 1 }) =
      w := by
    rw [enter, changeSlot_changeSlot]
    exact changeSlot_eq_self fun slot _ => rfl
  rw [leave, hback, collect_of_held h]

/-! ## Reports -/

/-- Nothing but the surface itself is connected to the hook of its editable layer. -/
def WiredAt (w : World E R) (n : Nat) : Prop :=
  ∀ handler, w.hook? n = some handler → handler = .edits n

def Wired (w : World E R) : Prop := ∀ n, w.WiredAt n

theorem wiredAt_changeLive {k : Nat} (h : w.WiredAt k) (f : Live E R → Live E R) :
    (w.changeLive n f).WiredAt k := by
  intro handler hh
  rw [hook?_changeLive] at hh
  exact h handler hh

/-- The surface as a write to its editable layer leaves it. -/
def writing (change : E → E × List Text) (s : Live E R) : Live E R :=
  { s with editable := (change s.editable).1 }

theorem setSuppressing_of_none (h : w.live? n = none) (on : Bool) : w.setSuppressing n on = w :=
  changeLive_eq_self fun s hs => by rw [h] at hs; cases hs

/-- The flag goes up before the write and gets its value back after it, so that but for the
layer nothing is changed. -/
theorem setSuppressing_writing {s : Live E R} (hs : w.live? n = some s)
    (change : E → E × List Text) :
    ((w.setSuppressing n true).changeLive n (writing change)).setSuppressing n
        ((w.live? n).any Live.suppressing) = w.changeLive n (writing change) := by
  rw [setSuppressing, setSuppressing, changeLive_changeLive, changeLive_changeLive]
  refine changeLive_congr fun s' hs' => ?_
  rw [hs] at hs' ⊢
  cases hs'
  rfl

theorem suppressing_apply {α : Type} (body : Action E R α) (w : World E R) :
    Action.suppressing n body w = ((body (w.setSuppressing n true)).1,
      (body (w.setSuppressing n true)).2.setSuppressing n
        ((w.live? n).any Live.suppressing)) := rfl

variable [RenderLayer R] {m : Meaning E R}

theorem takeEdit_suppressed (h : (w.live? n).any Live.suppressing = true) (t : Text) :
    takeEdit m n t w = (.ok (.ok ()), w) := by
  rw [takeEdit, get_bind_apply, if_pos h]
  rfl

/-- While the flag is up a report comes to nothing. -/
theorem report_echo (hwired : w.WiredAt n) (hheld : w.Held n)
    (hup : ∀ s, w.live? n = some s → s.suppressing = true) (t : Text) :
    report m n t w = (.ok ⟨⟩, w) := by
  rw [report, get_bind_apply]
  cases hhook : w.hook? n with
  | none => rfl
  | some handler =>
    rw [hwired handler hhook]
    dsimp only
    rw [get_bind_apply]
    cases hs : w.live? n with
    | none => rfl
    | some s =>
      have hinside : ((w.enter n).live? n).any Live.suppressing = true := by
        rw [live?_enter, hs]
        exact hup s hs
      rw [Option.isSome_some, if_pos rfl, holding, bind_apply, modify_apply]
      simp only [andFinally, bind_apply, takeEdit_suppressed hinside]
      show (Except.ok (), (w.enter n).leave n) = _
      rw [leave_enter hheld]

theorem reports_echo (hwired : w.WiredAt n) (hheld : w.Held n)
    (hup : ∀ s, w.live? n = some s → s.suppressing = true) (reports : List Text) :
    reports.forM (report m n) w = (.ok ⟨⟩, w) := by
  induction reports with
  | nil => rfl
  | cons t reports ih =>
    show (report m n t >>= fun _ => reports.forM (report m n)) w = _
    rw [bind_apply, report_echo hwired hheld hup]
    exact ih

/-! ## Writes -/

theorem editLayer_of_none (hs : w.live? n = none) (change : E → E × List Text) :
    editLayer m n change w = (.ok ⟨⟩, w) := by
  rw [editLayer, get_bind_apply, hs]
  rfl

theorem editLayer_echo {s : Live E R} (hs : w.live? n = some s) (hwired : w.WiredAt n)
    (hheld : w.Held n) (hup : s.suppressing = true) (change : E → E × List Text) :
    editLayer m n change w = (.ok ⟨⟩, w.changeLive n (writing change)) := by
  have hwritten : w.changeLive n (fun s' => { s' with editable := (change s.editable).1 }) =
      w.changeLive n (writing change) := by
    refine changeLive_congr fun s' hs' => ?_
    rw [hs] at hs'
    cases hs'
    rfl
  rw [editLayer, get_bind_apply, hs]
  simp only [bind_apply, modify_apply, hwritten]
  refine reports_echo (wiredAt_changeLive hwired _) (held_changeLive hheld _) ?_ _
  intro s' hs'
  rw [live?_changeLive, if_pos rfl, hs] at hs'
  cases hs'
  exact hup

theorem editLayer_setSuppressing {s : Live E R} (hs : w.live? n = some s)
    (hwired : w.WiredAt n) (hheld : w.Held n) (change : E → E × List Text) :
    editLayer m n change (w.setSuppressing n true) =
      (.ok ⟨⟩, (w.setSuppressing n true).changeLive n (writing change)) := by
  have hup : (w.setSuppressing n true).live? n = some { s with suppressing := true } := by
    rw [setSuppressing, live?_changeLive, if_pos rfl, hs, Option.map_some]
  exact editLayer_echo hup (wiredAt_changeLive hwired _) (held_changeLive hheld _) rfl change

variable [EditableLayer E]

/-- Setting a text writes the layer, and then the text is changed and shown. -/
theorem setText_apply (hwired : w.WiredAt n) (hheld : w.Held n) (t : Text) :
    setText m n t w = changeAndShow n (fun s => { s with text := t })
      (w.changeLive n (writing fun e => EditableLayer.write e t)) := by
  rw [setText, bind_apply, suppressing_apply]
  cases hs : w.live? n with
  | none =>
    -- Without a surface there is nothing to write.
    have hsame : w.changeLive n (writing fun e => EditableLayer.write e t) = w :=
      changeLive_eq_self fun s hs' => by rw [hs] at hs'; cases hs'
    simp only [setSuppressing_of_none hs, editLayer_of_none hs, hsame]
  | some s =>
    have hback := setSuppressing_writing hs fun e => EditableLayer.write e t
    rw [hs] at hback
    simp only [editLayer_setSuppressing hs hwired hheld, hback]

/-- Typing a text writes the layer, and what the layer then holds is taken for the edit. -/
theorem typeText_apply {s : Live E R} (hs : w.live? n = some s) (hwired : w.WiredAt n)
    (hheld : w.Held n) (hopen : s.state.layout.readOnly = false) (t : Text) :
    typeText m n t w =
      takeEdit m n (EditableLayer.text (EditableLayer.write s.editable t).1)
        (w.changeLive n (writing fun e => EditableLayer.write e t)) := by
  have hwrite := editLayer_setSuppressing (m := m) hs hwired hheld fun e => EditableLayer.write e t
  have htyped : (((w.setSuppressing n true).changeLive n
      (writing fun e => EditableLayer.write e t)).live? n).map
        (fun s => EditableLayer.text s.editable) =
      some (EditableLayer.text (EditableLayer.write s.editable t).1) := by
    rw [live?_changeLive, if_pos rfl, setSuppressing, live?_changeLive, if_pos rfl, hs]
    rfl
  rw [typeText, get_bind_apply, if_neg (by simp [hs, hopen]), bind_apply, suppressing_apply]
  simp only [bind_apply, hwrite, get_apply, pure_apply, htyped, setSuppressing_writing hs]

/-- A surface that is read-only ignores what is typed. -/
theorem typeText_readOnly {s : Live E R} (hs : w.live? n = some s)
    (hclosed : s.state.layout.readOnly = true) (t : Text) :
    typeText m n t w = (.ok (.ok ()), w) := by
  rw [typeText, get_bind_apply, if_pos (by simp [hs, hclosed])]
  rfl

end World
end Surface
end QueryView
