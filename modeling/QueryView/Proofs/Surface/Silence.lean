/-
What becomes of a subscription that is given back.

A subscription to themes ends when the embedder gives it back, when a surface is disposed of,
or when a surface is destroyed.  One would like to say that its callback is silent from then
on.  It is not: a change of the theme tells everybody who was subscribed when it began, so a
subscription that ends in the middle of a round may still be told in that round
(`ended_subscription_is_heard`).

The main theorem, `only_rounds_in_progress_are_heard`, says what else there is.  Nobody is told
of a theme in a round that began when the subscription was given back already, except for whoever
was stranded on the list.  What was given back is never taken up again.  A surface without a
subscription therefore stays in its theme, whatever is done from then on, unless it is asked to
follow the theme itself: one that is stranded is destroyed.

The reason is that the notifier knows nobody but those who hold a subscription and those who are
stranded (`World.Listed`).
-/
import QueryView.Proofs.Surface.Listing

namespace QueryView
namespace Surface

variable {E R : Type}

/-! ## What is done from a world on -/

/-- The operation is not to make the surface follow the theme. -/
def Operation.LeavesTheme (n : Nat) (op : Operation E R) : Prop := op ≠ .on n .followTheme

namespace World

/-- The surface is an old one, and has no subscription. -/
def Disposed (n : Nat) (w : World E R) : Prop :=
  n < w.slots.length ∧ ∀ s, w.live? n = some s → s.subscription = none

/-- The surface has no subscription and is in a theme, if it is not destroyed, and nobody is going
to make it follow another one. -/
structure Stays (n : Nat) (kept : Theme × Prop) (w : World E R) : Prop where
  listed : w.Listed
  stores : w.Stores (Operation.LeavesTheme n)
  disposed : w.Disposed n
  theme : ∀ s, w.live? n = some s → s.state.theme = kept.1
  destroyed : kept.2 → w.live? n = none

variable {w w' : World E R} {n : Nat}

theorem disposed_of_live? {s : Live E R} (hs : w.live? n = some s)
    (hsub : s.subscription = none) : w.Disposed n := by
  refine ⟨lt_length_of_live? hs, fun s' hs' => ?_⟩
  cases hs.symm.trans hs'
  exact hsub

theorem Disposed.setSuppressing (h : w.Disposed n) (m : Nat) (on : Bool) :
    (w.setSuppressing m on).Disposed n := by
  refine ⟨Nat.lt_of_lt_of_eq h.1 length_changeLive.symm, fun s' hs' => ?_⟩
  obtain ⟨s, hs, -, -, hsub⟩ :=
    (still_changeLive m (f := fun s => { s with suppressing := on }) fun _ => ⟨rfl, rfl, rfl⟩).live
      n s' hs'
  exact hsub.trans (h.2 s hs)

variable [EditableLayer E] [RenderLayer R]

theorem Disposed.turn {p : Operation E R → Prop} (h : w.Disposed n) (hturn : Turn p w w') :
    w'.Disposed n := by
  refine ⟨Nat.lt_of_lt_of_le h.1 hturn.length_slots_le, fun s' hs' => ?_⟩
  obtain ⟨s, hs, hsub | hsub, -⟩ := hturn.aged h.1 hs'
  · exact hsub.trans (h.2 s hs)
  · exact hsub

theorem walked_disposed : Walked False (fun _ : Operation E R => True)
    (Disposed : Nat → World E R → Prop) where
  stores := fun _ w _ => w.stores_true
  turn := fun _ _ _ hw h => hw.turn h
  write := fun {_} m {_ _} h => Surface.Action.matches_suppressing h
    fun _ _ on hw => hw.setSuppressing m on

theorem walked_stays {n : Nat} :
    Walked False (Operation.LeavesTheme n) (Stays n : Theme × Prop → World E R → Prop) where
  stores := fun _ _ hw => hw.stores
  owned := fun _ _ _ _ => ⟨0, .handle 0, nofun⟩
  tells := by
    rintro ⟨theme, destroyed⟩ w hw
    refine ⟨(theme, w.live? n = none), { hw with destroyed := id }, fun w' hw' => ?_, ?_⟩
    · exact { hw' with destroyed := fun h => hw'.destroyed (hw.destroyed h) }
    · intro id m hmem
      by_cases hmn : m = n
      · -- The notifier does not know the surface, unless it is one that was destroyed.
        subst hmn
        rcases hw.listed id _ hmem with hholds | ⟨-, hgone⟩
        · obtain ⟨s, hs, hsub⟩ := Option.bind_eq_some_iff.mp hholds
          rw [hw.disposed.2 s hs] at hsub
          cases hsub
        · exact .inr fun w' hw' => hw'.destroyed hgone.2
      · refine .inl fun heq => ?_
        cases heq
        exact hmn rfl
  turn := by
    intro kept w w' hw h
    refine ⟨h.listed hw.listed, h.move.stores hw.stores, hw.disposed.turn h, fun s' hs' => ?_,
      fun hdestroyed => h.live?_none hw.disposed.1 (hw.destroyed hdestroyed)⟩
    obtain ⟨s, hs, -, htheme | hfollow⟩ := h.aged hw.disposed.1 hs'
    · exact htheme.trans (hw.theme s hs)
    · exact absurd rfl hfollow
  write := fun {_} m {_ _} h => Surface.Action.matches_suppressing h fun kept w on hw => by
    have hmove : Move (Operation.LeavesTheme n) w (w.setSuppressing m on) :=
      .quiet (.suppressed m on w)
    have hlive : Still w (w.setSuppressing m on) := still_changeLive m fun _ => ⟨rfl, rfl, rfl⟩
    refine ⟨hw.listed.setSuppressing m on, hmove.stores hw.stores,
      hw.disposed.setSuppressing m on, fun s' hs' => ?_, fun hdestroyed => ?_⟩
    · obtain ⟨s, hs, hstate, -⟩ := hlive.live n s' hs'
      rw [hstate]
      exact hw.theme s hs
    · rw [World.setSuppressing, live?_changeLive, hw.destroyed hdestroyed]
      exact ite_self _

theorem walked_given_back : Walked False (fun _ : Operation E R => True)
    fun (i : Nat) (w : World E R) => w.subscriptions[i]? = some none :=
  walked_of_still (fun _ _ _ hw h => h.stays_none hw)
    fun i _ _ hw h => (congrArg (·[i]?) h.subscriptions).trans hw

/-- What was given back by now is not taken up again, and a surface without a subscription
stays in its theme as long as nobody makes it follow the theme. -/
structure Silences (w : World E R) : Prop where
  observers : ∀ i : Nat, w.subscriptions[i]? = some none → ∀ depth, ∀ program : Script E R,
    (program.run (Operation.run depth) w).2.subscriptions[i]? = some none
  surfaces : ∀ n s, w.live? n = some s → s.subscription = none →
    ∀ depth, ∀ program : Script E R, ∀ s',
      (program.run (Operation.run depth) w).2.live? n = some s' → s'.subscription = none
  themes : ∀ n s, w.live? n = some s → s.subscription = none → w.Stores (Operation.LeavesTheme n) →
    ∀ depth, ∀ program : Script E R, program.Throughout (Operation.LeavesTheme n) → ∀ s',
      (program.run (Operation.run depth) w).2.live? n = some s' → s'.state.theme = s.state.theme

theorem Listed.silences (h : w.Listed) : w.Silences where
  observers := fun _ hi depth program => Operation.kept_by_script walked_given_back
    (fun _ => ⟨fun _ _ hw => hw, fun _ _ _ hw => hw⟩) hi depth program program.throughout_true
  surfaces := fun _ _ hs hsub depth program => (Operation.kept_by_script walked_disposed
    (fun _ => ⟨fun _ _ hw => hw, fun _ _ _ hw => hw⟩) (disposed_of_live? hs hsub) depth program
    program.throughout_true).2
  themes := by
    intro n s hs hsub hstores depth program hprogram
    have hstays : w.Stays n (s.state.theme, False) := by
      refine ⟨h, hstores, disposed_of_live? hs hsub, fun s' hs' => ?_, False.elim⟩
      cases hs.symm.trans hs'
      rfl
    have hthemed (theme : Theme) : Themed (Stays n : Theme × Prop → World E R → Prop) theme :=
      ⟨fun _ _ hw => { hw with stores := hw.stores.withTheme theme },
        fun _ _ _ hw => { hw with stores := hw.stores.record _ }⟩
    exact (Operation.kept_by_script walked_stays hthemed hstays depth program hprogram).theme

end World

/-! ## Runs -/

namespace Operation

open Surface.Action World

variable [EditableLayer E] [RenderLayer R]

/-- Sets the theme and tells everybody who is subscribed at that moment, with somebody who does
something to the world whenever a watcher is about to be told, and who knows the world in which
the change began. -/
def announce (hear : World E R → Nat × Watcher E R → World E R → World E R) (meaning : Meaning E R)
    (theme : Theme) : Action E R Unit := do
  let begun ← get
  if begun.notifier.theme = theme then return
  modify (World.withTheme theme)
  round (fun x => do modify (hear begun x); tell meaning theme x.2) begun.notifier.observers

/-- The meaning of an operation, where changes of the theme are announced. -/
def announcedStep (hear : World E R → Nat × Watcher E R → World E R → World E R)
    (meaning : Meaning E R) : Operation E R → Action E R Reply
  | .setTheme theme => do
    if (← get).notifier.held then
      announce hear meaning theme
      return .done
    else return .nothing
  | op => step meaning op

/-- The meaning of operations that nest at most `depth` deep, with somebody who does something
to the world whenever an operation begins, nested ones included, and somebody who does whenever
a watcher is about to be told of a theme. -/
def watchedWhenTold (watch : World E R → World E R)
    (hear : World E R → Nat × Watcher E R → World E R → World E R) : Nat → Meaning E R
  | 0 => fun _ => throw .tooDeep
  | depth + 1 => fun op => do
    modify watch
    announcedStep hear (watchedWhenTold watch hear depth) op

theorem walked_listed : Walked False (fun _ : Operation E R => True)
    fun (_ : Unit) (w : World E R) => w.Listed where
  stores := fun _ w _ => w.stores_true
  turn := fun _ _ _ hw h => h.listed hw
  write := fun {_} n {_ _} h => matches_suppressing h fun _ _ on hw => hw.setSuppressing n on

variable {watch : World E R → World E R}
  {hear : World E R → Nat × Watcher E R → World E R → World E R} {m m' : Meaning E R}

theorem matches_announce
    (hhear : ∀ begun x w, begun.Holds x.1 x.2 ∨ begun.Stranded x.1 x.2 → hear begun x w = w)
    (hm : ∀ op, Matches False (fun _ : Unit => Listed) (m op) (m' op)) (theme : Theme) :
    Matches False (fun _ : Unit => Listed) (announce hear m theme)
      (World.setTheme m' theme) := by
  refine matches_get_bind fun begun i hbegun =>
    matches_ite (P := fun _ : Unit => Listed) (matches_pure _) ?_ begun i hbegun
  refine matches_bind (matches_modify fun _ _ hw => hw) fun _ =>
    matches_round walked_listed.toCarried fun x hx => ?_
  -- Whoever is told is one of those whom the notifier knew when the change began.
  obtain ⟨id, watcher⟩ := x
  have htell : Matches False (fun _ : Unit => Listed) (tell m theme watcher)
      (tell m' theme watcher) :=
    matches_tell walked_listed.toCarried (fun op _ => hm op) (fun _ _ _ hw => hw)
      (fun _ body _ => (body theme).throughout_true) fun _ _ => .inl trivial
  intro w i hw hends
  rw [bind_apply, modify_apply, hhear begun (id, watcher) w (hbegun id watcher hx)]
  exact htell w i hw hends

theorem matches_announcedStep
    (hhear : ∀ begun x w, begun.Holds x.1 x.2 ∨ begun.Stranded x.1 x.2 → hear begun x w = w)
    (hm : ∀ op, Matches False (fun _ : Unit => Listed) (m op) (m' op)) (op : Operation E R) :
    Matches False (fun _ : Unit => Listed) (announcedStep hear m op) (step m' op) := by
  cases op with
  | setTheme theme =>
    refine matches_get_bind fun w => matches_ite ?_ (matches_pure _) w
    exact matches_bind (matches_announce hhear hm theme) fun _ => matches_pure _
  | _ => exact matches_step walked_listed (fun op _ => hm op) nofun (throughout_true _)

theorem matches_watchedWhenTold (hwatch : ∀ w, w.Silences → watch w = w)
    (hhear : ∀ begun x w, begun.Holds x.1 x.2 ∨ begun.Stranded x.1 x.2 → hear begun x w = w)
    (depth : Nat) (op : Operation E R) :
    Matches False (fun _ : Unit => Listed) (watchedWhenTold watch hear depth op)
      (run depth op) := by
  induction depth generalizing op with
  | zero => exact matches_throw _
  | succ depth ih =>
    intro w i hw hends
    have hsame : watch w = w := hwatch w hw.silences
    have hbegin : watchedWhenTold watch hear (depth + 1) op w =
        announcedStep hear (watchedWhenTold watch hear depth) op w :=
      congrArg (announcedStep hear (watchedWhenTold watch hear depth) op) hsame
    rw [hbegin]
    exact matches_announcedStep hhear ih op w i hw hends

variable {theme : Theme} {depth : Nat} {program : Script E R}

theorem watchedWhenTold_script (hwatch : ∀ w, w.Silences → watch w = w)
    (hhear : ∀ begun x w, begun.Holds x.1 x.2 ∨ begun.Stranded x.1 x.2 → hear begun x w = w) :
    program.run (watchedWhenTold watch hear depth) (World.initial theme) =
        program.run (run depth) (World.initial theme) ∧
      (program.run (run depth) (World.initial theme)).2.Listed :=
  World.matches_script walked_listed
    (fun op _ => matches_watchedWhenTold hwatch hhear depth op) program program.throughout_true
    _ () (World.listed_initial theme) False.elim

/-- In every world in which an operation of a run begins, a nested one or not, what was given back
is silent for good. -/
theorem silences_of_lookedAt {w : World E R}
    (h : LookedAt (fun watch => program.run (watchedWhenTold (watch ()) (fun _ _ w => w) depth))
      (program.run (run depth)) (World.initial theme) () w) : w.Silences :=
  h.holds (Q := fun _ => World.Silences) fun _ hwatch =>
    (watchedWhenTold_script (hwatch ()) fun _ _ _ _ => rfl).1

/-- Whoever is about to be told of a theme had a subscription when that change of the theme began,
or was stranded then. -/
theorem holds_or_stranded_of_lookedAt {begun : World E R} {x : Nat × Watcher E R} {w : World E R}
    (h : LookedAt (fun hear => program.run
        (watchedWhenTold (fun w => w) (fun begun x => hear (begun, x)) depth))
      (program.run (run depth)) (World.initial theme) (begun, x) w) :
    begun.Holds x.1 x.2 ∨ begun.Stranded x.1 x.2 :=
  h.holds (Q := fun y _ => y.1.Holds y.2.1 y.2.2 ∨ y.1.Stranded y.2.1 y.2.2) fun _ hhear =>
    (watchedWhenTold_script (fun _ _ => rfl) fun begun x => hhear (begun, x)).1

end Operation

/-- A watcher that is told of a theme was subscribed when that change of the theme began, or
stranded on the list.  Whoever looks on whenever a watcher is about to be told, and does something
only if it was neither, never does anything, and neither does whoever looks on at the beginning of
every operation and does something only if what was given back might come to life again. -/
theorem only_rounds_in_progress_are_heard [EditableLayer E] [RenderLayer R] (theme : Theme)
    (depth : Nat) (program : Script E R) (watch : World E R → World E R)
    (hwatch : ∀ w, w.Silences → watch w = w)
    (hear : World E R → Nat × Watcher E R → World E R → World E R)
    (hhear : ∀ begun x w, begun.Holds x.1 x.2 ∨ begun.Stranded x.1 x.2 → hear begun x w = w) :
    program.run (Operation.watchedWhenTold watch hear depth) (World.initial theme) =
        program.run (Operation.run depth) (World.initial theme) ∧
      (program.run (Operation.run depth) (World.initial theme)).2.Silences := by
  obtain ⟨hsame, hkept⟩ := Operation.watchedWhenTold_script hwatch hhear
  exact ⟨hsame, hkept.silences⟩

/-! ## Subscriptions that end while others are told

The first observer in this run gives the subscription of the second one back and disposes of
the second surface.  When it is told of the dark theme, the second surface is still in the
light one. -/

def endingOthers (next : Script LimitedBuffer Display) : Script LimitedBuffer Display :=
  .perform (.create {} {}) fun _ =>
  .perform (.subscribe fun _ =>
    .perform (.unsubscribe 1) fun _ =>
    .perform (.on 1 .dispose) fun _ =>
    .look fun seen =>
      if seen.surfaces.map (Option.map fun view => (view.state.theme, view.subscribed)) =
          [some (.dark, true), some (.light, false)] then
        .note "gone".toList .done
      else .done) fun _ =>
  .perform (.create {} {}) fun _ =>
  .perform (.subscribe fun _ => .done) fun _ =>
  .perform (.setTheme .dark) fun _ => next

/-- The calls of observers and the notes that they left, and what became of the second surface
and of the second observer. -/
def endingOthersReport (next : Script LimitedBuffer Display) :
    List Event × Option (Theme × Option Nat) × Option (Option Nat) :=
  let w := ((endingOthers next).run (Operation.run 3) (World.initial .light)).2
  (w.trace.filter fun e => match e with
    | .themed _ _ | .note _ => true
    | _ => false,
    (w.live? 1).map fun s => (s.state.theme, s.subscription), w.subscriptions[1]?)

/-- Both are gone when the note is left, and both are told of the dark theme after it: the
observer is called, and the surface is in the dark theme in the end. -/
theorem ended_subscription_is_heard :
    endingOthersReport .done =
      ([.themed 0 .dark, .note "gone".toList, .themed 1 .dark], some (.dark, none), some none) := by
  decide +kernel

open Classical in
/-- Leaves a note if what was given back might come to life again. -/
noncomputable def noteRevival (w : World LimitedBuffer Display) : World LimitedBuffer Display :=
  if w.Silences then w else w.record (.note "back".toList)

open Classical in
/-- Leaves a note of whoever is told and was neither subscribed nor stranded when the change
began. -/
noncomputable def noteUnsubscribed (begun : World LimitedBuffer Display)
    (x : Nat × Watcher LimitedBuffer Display) (w : World LimitedBuffer Display) :
    World LimitedBuffer Display :=
  if begun.Holds x.1 x.2 ∨ begun.Stranded x.1 x.2 then w else w.record (.note "heard".toList)

/-- A change of the theme after that is heard by the first observer only, and the
second surface stays in its theme. -/
theorem ended_subscription_stays_silent :
    let again := endingOthers (.perform (.setTheme .light) fun _ => .done)
    endingOthersReport (.perform (.setTheme .light) fun _ => .done) =
        ([.themed 0 .dark, .note "gone".toList, .themed 1 .dark, .themed 0 .light],
          some (.dark, none), some none) ∧
      again.run (Operation.watchedWhenTold noteRevival noteUnsubscribed 3) (World.initial .light) =
        again.run (Operation.run 3) (World.initial .light) ∧
      (again.run (Operation.run 3) (World.initial .light)).2.Silences := by
  intro again
  obtain ⟨hsame, hsilences⟩ := only_rounds_in_progress_are_heard .light 3 again noteRevival
    (fun w hw => if_pos hw) noteUnsubscribed fun begun x w hw => if_pos hw
  exact ⟨by decide +kernel, hsame, hsilences⟩

end Surface
end QueryView
