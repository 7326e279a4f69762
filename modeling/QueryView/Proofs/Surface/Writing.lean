/-
Echo flags tell who is writing.

The flag of a surface is up exactly while the surface itself writes its editable layer: from
the moment at which it turns to the layer, to set or to type a text, until the layer has
stored and reported what it made of the text and, for a text that is typed, has been read
back.  What happens inside of a write may be anything, other writes included, and a panic may
break off any number of them.

`Operation.observed` gives operations the meaning that they have, with somebody who watches
the beginnings and ends of all operations and of all writes, and who knows which writes are
going on.  The main theorem, `flags_tell_who_writes`, says that whoever does something only
when the flags that are up are not those of the surfaces being written never does anything.
Outside of all operations no flag is up, so an edit of the user is always taken for one.

A surface that is created has its flag down, so it must not have the number of a surface that
is being written.  This is why the invariant, `Marked`, asks that those have been created
before.
-/
import QueryView.Proofs.Surface.Echo
import QueryView.Proofs.Surface.Flag
import QueryView.Surface.Trial

namespace QueryView
namespace Surface

variable {E R : Type}

/-! ## Watching -/

/-- A step with somebody who does something to the world before it and after it, however it
ends. -/
def Action.watching {α : Type} (watch : World E R → World E R) (body : Action E R α) :
    Action E R α := do
  modify watch
  andFinally body watch

open Surface.Action in
/-- Somebody who does nothing where a property holds does nothing in steps that keep it. -/
theorem matches_watching {α : Type} {P : World E R → Prop} {watch : World E R → World E R}
    (hwatch : ∀ w, P w → watch w = w) {a b : Action E R α}
    (h : Matches False (fun _ : Unit => P) a b) :
    Matches False (fun _ : Unit => P) (Action.watching watch a) b := by
  intro w i hw hends
  obtain ⟨hsame, hkept⟩ := h w i hw hends
  refine ⟨?_, hkept⟩
  rw [Action.watching, bind_apply, modify_apply, hwatch w hw, ← hsame]
  rw [← hsame] at hkept
  exact congrArg (Prod.mk (a w).1) (hwatch _ hkept)

section
variable [EditableLayer E] [RenderLayer R] (watch : List Nat → World E R → World E R)
  (writers : List Nat)

namespace World

open Surface.Action

/-- A write of a surface to its editable layer, in the middle of the writes of others, with
somebody who watches. -/
def watchedWrite {α : Type} (n : Nat) (body : Action E R α) : Action E R α :=
  watching (watch writers) (suppressing n (watching (watch (n :: writers)) body))

/-- Setting a text, given what operations mean during the write. -/
def watchedSetText (during : Meaning E R) (n : Nat) (t : Text) :
    Action E R (Except Failure Unit) := do
  watchedWrite watch writers n (editLayer during n fun e => EditableLayer.write e t)
  changeAndShow n fun s => { s with text := t }

/-- Typing a text, given what operations mean during the write and after it. -/
def watchedTypeText (during after : Meaning E R) (n : Nat) (t : Text) :
    Action E R (Except Failure Unit) := do
  if ((← get).live? n).any fun s => s.state.layout.readOnly then return .ok ()
  let typed ← watchedWrite watch writers n do
    editLayer during n fun e => EditableLayer.write e t
    return ((← get).live? n).map fun s => EditableLayer.text s.editable
  match typed with
  | some typed => takeEdit after n typed
  | none => return .ok ()

def watchedAnswer (during after : Meaning E R) (n : Nat) : Request E R → Action E R Reply
  | .setText t => return replyOf (← watchedSetText watch writers during n t)
  | .typeText t => return replyOf (← watchedTypeText watch writers during after n t)
  | request => answer after n request

end World

namespace Operation

def watchedStep (during : Nat → Meaning E R) (after : Meaning E R) :
    Operation E R → Action E R Reply
  | .on n request => do
    if (← get).handles n = 0 then return .nothing
    Action.holding n (World.watchedAnswer watch writers (during n) after n request)
  | op => step after op

/-- The meaning of operations that nest at most `depth` deep, in the middle of the writes of
some surfaces, with somebody who watches. -/
def observed : Nat → List Nat → Meaning E R
  | 0, _ => fun _ => throw .tooDeep
  | depth + 1, writers => fun op =>
    Action.watching (watch writers) (watchedStep watch writers
      (fun n => observed depth (n :: writers)) (observed depth writers) op)

end Operation
end

/-! ## What the flags tell -/

namespace World

open Surface.Action

variable {w w' : World E R} {n : Nat} {writers : List Nat}

/-- The flags that are up are those of the surfaces that are being written. -/
def FlagsTell (writers : List Nat) (w : World E R) : Prop :=
  ∀ n s, w.live? n = some s → (s.suppressing = true ↔ n ∈ writers)

theorem lt_length_of_live? {s : Live E R} (hs : w.live? n = some s) : n < w.slots.length := by
  obtain ⟨slot, hslot, -⟩ := Option.bind_eq_some_iff.mp hs
  exact (List.getElem?_eq_some_iff.mp hslot).1

instance (writers : List Nat) (w : World E R) : Decidable (w.FlagsTell writers) :=
  decidable_of_iff
    (∀ n < w.slots.length, ∀ s ∈ w.live? n, (s.suppressing = true ↔ n ∈ writers))
    ⟨fun h n s hs => h n (lt_length_of_live? hs) s hs, fun h n _ s hs => h n s hs⟩

structure Marked (writers : List Nat) (w : World E R) : Prop where
  flags : w.FlagsTell writers
  known : ∀ n ∈ writers, n < w.slots.length

theorem marked_initial (theme : Theme) : (World.initial theme : World E R).Marked [] := by
  constructor
  · intro n s hs
    simp [World.initial, live?] at hs
  · exact fun n hn => absurd hn List.not_mem_nil

theorem Marked.raise {s : Live E R} (h : w.Marked writers) (hs : w.live? n = some s) :
    (w.setSuppressing n true).Marked (n :: writers) := by
  constructor
  · intro k s' hs'
    rw [setSuppressing, live?_changeLive] at hs'
    split at hs'
    · next hk =>
      obtain ⟨_, -, rfl⟩ := Option.map_eq_some_iff.mp hs'
      simp [hk]
    · next hk =>
      rw [List.mem_cons, or_iff_right (Ne.symm hk)]
      exact h.flags k s' hs'
  · intro k hk
    rw [setSuppressing, length_changeLive]
    rcases List.mem_cons.mp hk with rfl | hk
    · exact lt_length_of_live? hs
    · exact h.known k hk

theorem Marked.giveBack (h : w.Marked (n :: writers)) {on : Bool} (hon : on = true ↔ n ∈ writers) :
    (w.setSuppressing n on).Marked writers := by
  constructor
  · intro k s' hs'
    rw [setSuppressing, live?_changeLive] at hs'
    split at hs'
    · next hk =>
      obtain ⟨_, -, rfl⟩ := Option.map_eq_some_iff.mp hs'
      exact hk ▸ hon
    · next hk =>
      rw [h.flags k s' hs', List.mem_cons, or_iff_right (Ne.symm hk)]
  · intro k hk
    rw [setSuppressing, length_changeLive]
    exact h.known k (List.mem_cons_of_mem n hk)

/-- Where there is no surface, nothing tells whether it is being written. -/
theorem FlagsTell.cons_of_none (h : w.FlagsTell writers) (hs : w.live? n = none) :
    w.FlagsTell (n :: writers) := by
  intro k s' hs'
  have hne : k ≠ n := by
    rintro rfl
    rw [hs] at hs'
    cases hs'
  rw [h k s' hs', List.mem_cons, or_iff_right hne]

end World

/-- No surface loses its number. -/
theorem Turn.length_slots_le [EditableLayer E] [RenderLayer R] {p : Operation E R → Prop}
    {w w' : World E R} (h : Turn p w w') : w.slots.length ≤ w'.slots.length := by
  have hsame (heq : w'.slots.length = w.slots.length) : w.slots.length ≤ w'.slots.length :=
    Nat.le_of_eq heq.symm
  cases h with
  | aside h =>
    cases h with
    | noted | told | kept | abandoned => exact Nat.le_refl _
    | written | drawn | observed => exact hsame World.length_changeLive
    | connected | disconnected | handled | entered => exact hsame World.length_changeSlot
  | shown n f w _ => exact hsame (World.length_changeAndShow n f)
  | followed n w =>
    refine hsame ?_
    rw [World.followTheme_apply, World.length_changeAndShow]
  | laidOut n change w _ =>
    refine hsame ?_
    rw [World.length_applyLayout, World.changeState, World.length_changeLive]
  | created editable rendered w =>
    obtain ⟨f, hcreate⟩ := World.create_world editable rendered w
    rw [hcreate, World.length_leave, World.length_changeSlot, World.length_applyLayout,
      World.enter, World.length_changeSlot, World.withFresh, List.length_append]
    exact Nat.le_add_right _ _
  | left n w => exact hsame World.length_leave
  | released n w => exact hsame World.length_unsubscribeSurface
  | strandedSurface n w _ _ => exact hsame World.length_strandSurface
  | subscribed | unsubscribed | stranded => exact Nat.le_refl _

theorem Turn.marked [EditableLayer E] [RenderLayer R] {p : Operation E R → Prop}
    {w w' : World E R} {writers : List Nat} (h : Turn p w w') (hw : w.Marked writers) :
    w'.Marked writers := by
  constructor
  · intro n s' hs'
    rcases h.flag hs' with ⟨s, hs, hflag⟩ | ⟨rfl, hdown⟩
    · rw [hflag]
      exact hw.flags n s hs
    · -- A new surface is not one of those that are being written.
      have hnew : w.slots.length ∉ writers := fun hmem => Nat.lt_irrefl _ (hw.known _ hmem)
      simp [hdown, hnew]
  · exact fun n hn => Nat.lt_of_lt_of_le (hw.known n hn) h.length_slots_le

/-! ## Runs -/

section
variable [EditableLayer E] [RenderLayer R] {watch : List Nat → World E R → World E R}
  {writers : List Nat}

namespace World

open Surface.Action

theorem carried_marked (writers : List Nat) :
    Carried (fun _ : Operation E R => True) fun (_ : Unit) (w : World E R) => w.Marked writers where
  stores := fun _ w _ => w.stores_true
  turn := fun _ _ _ hw h => h.marked hw

variable {n : Nat} {m during after : Meaning E R}
  (hwatch : ∀ writers w, w.FlagsTell writers → watch writers w = w)
  (hduring : ∀ op, Matches False (fun _ : Unit => Marked (n :: writers)) (during op) (m op))
  (hafter : ∀ op, Matches False (fun _ : Unit => Marked writers) (after op) (m op))

include hduring in
/-- What happens in a write is told with one more writer. -/
theorem matches_editLayer_during (change : E → E × List Text) :
    Matches False (fun _ : Unit => Marked (n :: writers)) (editLayer during n change)
      (editLayer m n change) :=
  matches_editLayer (carried_marked (n :: writers)) (fun op _ => hduring op) (.inr trivial)

include hwatch

omit [EditableLayer E] [RenderLayer R] in
/-- In a write the flag tells of one more surface.  Where there is no surface no flag goes up,
but then there is nothing to write either. -/
theorem matches_watchedWrite {α : Type} {a b : Action E R α}
    (h : Matches False (fun _ : Unit => Marked (n :: writers)) a b)
    (hnone : ∀ w, w.live? n = none → ∃ x, a w = (.ok x, w) ∧ b w = (.ok x, w)) :
    Matches False (fun _ : Unit => Marked writers) (watchedWrite watch writers n a)
      (suppressing n b) := by
  refine matches_watching (fun w hw => hwatch writers w hw.flags) ?_
  intro w i hw _
  rw [suppressing_apply, suppressing_apply]
  cases hs : w.live? n with
  | none =>
    obtain ⟨x, ha, hb⟩ := hnone w hs
    have hsilent : watching (watch (n :: writers)) a w = (.ok x, w) := by
      have htold := hwatch (n :: writers) w (hw.flags.cons_of_none hs)
      rw [watching, bind_apply, modify_apply, htold]
      show ((a w).1, watch (n :: writers) (a w).2) = _
      rw [ha, htold]
    simp only [setSuppressing_of_none hs, hsilent, hb]
    exact ⟨trivial, hw⟩
  | some s =>
    obtain ⟨hsame, hkept⟩ := matches_watching (fun w hw => hwatch (n :: writers) w hw.flags) h
      (w.setSuppressing n true) i (hw.raise hs) False.elim
    rw [hsame]
    exact ⟨rfl, hkept.giveBack (hw.flags n s hs)⟩

include hduring

theorem matches_watchedSetText (t : Text) :
    Matches False (fun _ : Unit => Marked writers) (watchedSetText watch writers during n t)
      (setText m n t) := by
  refine matches_bind ?_ fun _ =>
    matches_changeAndShow (carried_marked writers) n (fun _ => rfl) fun _ => rfl
  refine matches_watchedWrite hwatch (matches_editLayer_during hduring _) fun w hs => ?_
  exact ⟨⟨⟩, editLayer_of_none hs _, editLayer_of_none hs _⟩

include hafter

theorem matches_watchedTypeText (t : Text) :
    Matches False (fun _ : Unit => Marked writers)
      (watchedTypeText watch writers during after n t) (typeText m n t) := by
  refine matches_get_bind fun w => matches_ite (matches_pure _) ?_ w
  refine matches_bind ?_ fun typed => ?_
  · refine matches_watchedWrite hwatch ?_ fun w hs => ⟨none, ?_, ?_⟩
    · exact matches_bind (matches_editLayer_during hduring _) fun _ => matches_get_bind fun w =>
        matches_pure _ w
    · rw [bind_apply, editLayer_of_none hs]
      exact congrArg (fun l : Option (Live E R) => (Except.ok (l.map _), w)) hs
    · rw [bind_apply, editLayer_of_none hs]
      exact congrArg (fun l : Option (Live E R) => (Except.ok (l.map _), w)) hs
  · cases typed with
    | none => exact matches_pure _
    | some typed =>
      exact matches_takeEdit (carried_marked writers) (fun op _ => hafter op) n typed

theorem matches_watchedAnswer (request : Request E R) :
    Matches False (fun _ : Unit => Marked writers)
      (watchedAnswer watch writers during after n request) (answer m n request) := by
  cases request with
  | setText t =>
    exact matches_bind (matches_watchedSetText hwatch hduring t) fun _ => matches_pure _
  | typeText t =>
    exact matches_bind (matches_watchedTypeText hwatch hduring hafter t) fun _ => matches_pure _
  | _ =>
    exact matches_answer_of_not_writes (carried_marked writers) (fun op _ => hafter op)
      (fun hwrites => hwrites) (Operation.on n _).throughout_true

end World

namespace Operation

open Surface.Action World

theorem matches_watchedStep (hwatch : ∀ writers w, w.FlagsTell writers → watch writers w = w)
    {m after : Meaning E R} {during : Nat → Meaning E R}
    (hduring : ∀ n op, Matches False (fun _ : Unit => Marked (n :: writers)) (during n op) (m op))
    (hafter : ∀ op, Matches False (fun _ : Unit => Marked writers) (after op) (m op))
    (op : Operation E R) :
    Matches False (fun _ : Unit => Marked writers) (watchedStep watch writers during after op)
      (step m op) := by
  cases op with
  | on n request =>
    refine matches_get_bind fun w => matches_ite (matches_pure _) ?_ w
    exact matches_holding_of_carried (carried_marked writers)
      (matches_watchedAnswer hwatch (hduring n) hafter request)
  | setTheme theme =>
    exact matches_setTheme (carried_marked writers) (tells_of_follows fun _ => trivial)
      (fun op _ => hafter op)
      ⟨fun _ _ hw => ⟨hw.flags, hw.known⟩, fun _ _ _ hw => ⟨hw.flags, hw.known⟩⟩
  | _ =>
    exact matches_step_of_not_on (carried_marked writers) (fun op _ => hafter op) nofun nofun
      (throughout_true _)

/-- Who does nothing as long as the flags tell who is writing does nothing at all. -/
theorem matches_observed (hwatch : ∀ writers w, w.FlagsTell writers → watch writers w = w)
    (depth : Nat) (writers : List Nat) (op : Operation E R) :
    Matches False (fun _ : Unit => Marked writers) (observed watch depth writers op)
      (run depth op) := by
  induction depth generalizing writers op with
  | zero => exact matches_throw _
  | succ depth ih =>
    refine matches_watching (fun w hw => hwatch writers w hw.flags) ?_
    exact matches_watchedStep hwatch (fun n op => ih (n :: writers) op) (fun op => ih writers op) op

end Operation

/-! ## Edits are taken -/

/-- Takes a text for an edit, whatever the flag of the surface says. -/
def World.acceptEdit (m : Meaning E R) (n : Nat) (t : Text) :
    Action E R (Except Failure Unit) := do
  let shown ← World.changeAndShow n fun s => { s with text := t }
  World.notifyObservers m n t
  return shown

omit [EditableLayer E] in
/-- When nothing is being written every edit is taken. -/
theorem World.FlagsTell.takeEdit_eq {w : World E R} (h : w.FlagsTell []) (m : Meaning E R) (n : Nat)
    (t : Text) : takeEdit m n t w = acceptEdit m n t w := by
  have hdown : ¬ (w.live? n).any Live.suppressing = true := by
    cases hs : w.live? n with
    | none => exact Bool.false_ne_true
    | some s => exact fun hflag => List.not_mem_nil ((h n s hs).mp hflag)
  rw [takeEdit, Action.get_bind_apply, if_neg hdown]
  rfl

section
variable {theme : Theme} {depth : Nat} {program : Script E R}

theorem Operation.observed_script {watch : List Nat → World E R → World E R}
    (hwatch : ∀ writers w, w.FlagsTell writers → watch writers w = w) :
    program.run (observed watch depth []) (World.initial theme) =
        program.run (run depth) (World.initial theme) ∧
      World.Marked [] (program.run (run depth) (World.initial theme)).2 :=
  World.matches_script_of_carried (World.carried_marked [])
    (fun op _ => matches_observed hwatch depth [] op) program program.throughout_true
    (World.initial theme) () (World.marked_initial theme) False.elim

/-- In every world in which an operation or a write begins or ends, the flags that are up are those
of the surfaces being written then. -/
theorem flagsTell_of_lookedAt {writers : List Nat} {w : World E R}
    (h : Action.LookedAt (fun watch => program.run (Operation.observed watch depth []))
      (program.run (Operation.run depth)) (World.initial theme) writers w) :
    w.FlagsTell writers :=
  h.holds (Q := fun writers w => w.FlagsTell writers) fun _ hwatch =>
    (Operation.observed_script hwatch).1

end

theorem flags_tell_who_writes (theme : Theme) (depth : Nat) (program : Script E R)
    (watch : List Nat → World E R → World E R)
    (hwatch : ∀ writers w, w.FlagsTell writers → watch writers w = w) :
    let w := (program.run (Operation.run depth) (World.initial theme)).2
    program.run (Operation.observed watch depth []) (World.initial theme) =
        program.run (Operation.run depth) (World.initial theme) ∧
      w.FlagsTell [] ∧ ∀ m n t, World.takeEdit m n t w = World.acceptEdit m n t w := by
  intro w
  obtain ⟨hsame, hmarked⟩ := Operation.observed_script hwatch
  exact ⟨hsame, hmarked.flags, hmarked.flags.takeEdit_eq⟩

end

/-! ## A write that is broken off

What is connected to the editable layer of this surface looks at the flag, writes another
surface and panics, which breaks the write off.  The embedder catches the panic and goes on. -/

def brokenOff : Script Buffer Display :=
  .perform (.create {} {}) fun _ =>
  .perform (.create {} {}) fun _ =>
  .perform (.on 0 (.connect (.script fun _ =>
    .perform (.on 1 (.setText "[]".toList)) fun _ =>
    .look fun seen =>
    .note ((seen.surfaces.map fun view => if view.any View.suppressing then '1' else '0')) <|
    .panic "lost".toList))) fun _ =>
  .attempt (.on 0 (.typeText "[1]".toList)) fun _ =>
  .perform (.on 0 (.edited "[2]".toList)) fun _ => .done

/-- Leaves a note if the flags that are up are not those of the surfaces being written. -/
def noteWrongFlags (writers : List Nat) (w : World Buffer Display) : World Buffer Display :=
  if w.FlagsTell writers then w else w.record (.note "wrong flags".toList)

/-- The handler finds one flag up, and the edit that follows the panic is taken. -/
theorem edit_after_broken_write_is_taken :
    let w := (brokenOff.run (Operation.run 3) (World.initial .light)).2
    .note "10".toList ∈ w.trace ∧ (w.live? 0).map (fun s => s.state.text) = some "[2]".toList ∧
      w.FlagsTell [] ∧
      brokenOff.run (Operation.observed noteWrongFlags 3 []) (World.initial .light) =
        brokenOff.run (Operation.run 3) (World.initial .light) := by
  obtain ⟨hsame, hflags, -⟩ := flags_tell_who_writes .light 3 brokenOff noteWrongFlags
    fun writers w hw => if_pos hw
  exact ⟨by decide +kernel, by decide +kernel, hflags, hsame⟩

end Surface
end QueryView
