/-
Catching up after a panic.

A render layer or an observer that panics breaks off the round in which the observers are
told of a theme, and those that come later are not told.  The theme is the new one already,
so asking for it again changes nothing, and the surfaces that were not told stay behind
(`broken_round_outlasts_retries`).

They do not stay behind for good.  The next change to another theme tells everybody, and if
it comes to its end, and so do the changes that callbacks make within it, every surface
follows the theme (`everybody_catches_up`).  A world in which this is so is said to catch up,
and the theorem is that all worlds are of this kind in which anybody asks for a theme,
whatever was broken off before.

The theme that everybody has in the end is the one that was asked for, unless a callback set
another one.
-/
import QueryView.Proofs.Surface.Following

namespace QueryView
namespace Surface

variable {E R : Type} [EditableLayer E] [RenderLayer R]

/-! ## Changes of the theme that are not interfered with -/

namespace Operation

open Surface.Action World

/-- The meaning of operations that nest at most `depth` deep, where asking for a theme ends
the run. -/
def themeless : Nat → Meaning E R := runWith fun _ _ _ => throw .tooDeep

/-- The meaning of operations that nest at most `depth` deep, where asking for a theme ends
the run while another change of the theme is going on. -/
def undisturbed : Nat → Meaning E R :=
  runWith fun depth _ theme => step (themeless depth) (.setTheme theme)

theorem walked_theme (theme : Theme) : Walked True (fun _ : Operation E R => True)
    fun (_ : Unit) (w : World E R) => w.notifier.theme = theme :=
  walked_of_still (fun _ _ _ hw h => h.theme.trans hw) fun _ _ _ hw h => h.theme.trans hw

theorem matches_themeless {ι : Type} {P : ι → World E R → Prop}
    (hP : Walked True (fun _ => True) P) (depth : Nat) (op : Operation E R) :
    Matches True P (run depth op) (themeless depth op) := by
  rw [run_eq_runWith]
  refine matches_runWith hP (fun _ _ _ => ?_) depth op op.throughout_true
  exact fun _ _ _ hends => absurd rfl (hends trivial)

theorem step_setTheme_of_held {m : Meaning E R} {theme : Theme} {w : World E R}
    (h : w.notifier.held = true) :
    step m (.setTheme theme) w = (World.setTheme m theme >>= fun _ => pure Reply.done) w := by
  rw [step, get_bind_apply, if_pos h]

end Operation

namespace World

open Surface.Action

/-- If callbacks do not ask for a theme, the one that was set is the one that it is. -/
theorem setTheme_themeless {depth : Nat} {theme : Theme} {w : World E R}
    (hne : w.notifier.theme ≠ theme)
    (hends : (setTheme (Operation.themeless depth) theme w).1 ≠ .error .tooDeep) :
    (setTheme (Operation.run depth) theme w).2.notifier.theme = theme := by
  rw [setTheme_of_ne hne] at hends ⊢
  have htell : ∀ x ∈ w.notifier.observers, Matches True
      (fun (_ : Unit) (w : World E R) => w.notifier.theme = theme)
      (tell (Operation.run depth) theme x.2) (tell (Operation.themeless depth) theme x.2) :=
    fun x _ => matches_tell (Operation.walked_theme theme).toCarried
      (fun op _ => Operation.matches_themeless (Operation.walked_theme theme) depth op)
      (fun _ _ _ hw => hw) (fun _ body _ => (body theme).throughout_true) fun _ _ => .inl trivial
  obtain ⟨hsame, hkept⟩ :=
    matches_round (Operation.walked_theme theme).toCarried htell _ () rfl fun _ => hends
  rw [hsame]
  exact hkept

/-! ## Worlds that catch up -/

/-- Asking for another theme makes everybody follow, provided that no change of the theme is
broken off.  Asking for the theme that is set already changes nothing. -/
structure CatchesUp (w : World E R) : Prop where
  change : ∀ depth theme, w.notifier.theme ≠ theme →
    (Operation.steady depth (.setTheme theme) w).1 = .ok .done →
      (Operation.run depth (.setTheme theme) w).1 = .ok .done ∧
        (Operation.run depth (.setTheme theme) w).2.Follows ∧
        ((Operation.undisturbed depth (.setTheme theme) w).1 ≠ .error .tooDeep →
          (Operation.run depth (.setTheme theme) w).2.notifier.theme = theme)
  same : ∀ depth,
    (Operation.run (depth + 1) (.setTheme w.notifier.theme) w).2 = w

theorem Regular.catchesUp {w : World E R} (h : w.Regular) : w.CatchesUp := by
  constructor
  · intro depth theme hne hsteady
    cases depth with
    | zero => cases hsteady
    | succ depth =>
      obtain ⟨w', hheld, hset, hkept⟩ := Operation.setTheme_of_steady h hne hsteady
      have hrun : Operation.run (depth + 1) (.setTheme theme) w = (.ok .done, w') := by
        rw [Operation.run, Operation.step_setTheme_of_held hheld, bind_apply, hset]
        rfl
      rw [hrun]
      refine ⟨rfl, hkept.1.follows hkept.2, fun hends => ?_⟩
      have hundisturbed : Operation.undisturbed (depth + 1) (.setTheme theme) w =
          (setTheme (Operation.themeless depth) theme >>= fun _ => pure Reply.done) w :=
        Operation.step_setTheme_of_held hheld
      rw [hundisturbed] at hends
      have htheme := setTheme_themeless hne (ne_tooDeep_of_bind hends)
      rwa [hset] at htheme
  · intro depth
    rw [Operation.run]
    by_cases hheld : w.notifier.held = true
    · rw [Operation.step_setTheme_of_held hheld, bind_apply, setTheme_same rfl]
      rfl
    · rw [Operation.step, get_bind_apply, if_neg hheld]
      rfl

end World

/-! ## Runs -/

namespace Operation

open Surface.Action World

/-- The meaning of operations that nest at most `depth` deep, with somebody who does something
to the world whenever a theme is asked for, before anything is done about it. -/
def watchedBeforeThemes (watch : World E R → World E R) : Nat → Meaning E R :=
  runWith fun _ meaning theme => do
    modify watch
    step meaning (.setTheme theme)

theorem walked_regular : Walked False (fun _ : Operation E R => True)
    fun (_ : Unit) (w : World E R) => w.Regular :=
  walked_of_still (fun _ _ _ hw h => h.regular hw) fun _ _ _ hw h => hw.still h

theorem matches_watchedBeforeThemes {watch : World E R → World E R}
    (hwatch : ∀ w, w.CatchesUp → watch w = w) (depth : Nat) (op : Operation E R) :
    Matches False (fun _ : Unit => World.Regular) (watchedBeforeThemes watch depth op)
      (run depth op) := by
  rw [run_eq_runWith]
  refine matches_runWith walked_regular (fun depth hm theme => ?_) depth op op.throughout_true
  intro w i hw hends
  have hsame : watch w = w := hwatch w (World.Regular.catchesUp hw)
  obtain ⟨hstep, hkept⟩ :=
    matches_setTheme walked_regular.toCarried walked_regular.tells hm
      ⟨fun _ _ hw => (hw.withTheme theme).1, fun _ _ _ hw => hw.still (still_record _)⟩ w i hw hends
  refine ⟨?_, hkept⟩
  rw [bind_apply, modify_apply, hsame]
  exact hstep

variable {theme : Theme} {depth : Nat} {program : Script E R}

theorem watchedBeforeThemes_script {watch : World E R → World E R}
    (hwatch : ∀ w, w.CatchesUp → watch w = w) :
    program.run (watchedBeforeThemes watch depth) (World.initial theme) =
        program.run (run depth) (World.initial theme) ∧
      (program.run (run depth) (World.initial theme)).2.Regular :=
  World.matches_script walked_regular
    (fun op _ => matches_watchedBeforeThemes hwatch depth op) program program.throughout_true _ ()
    (World.regular_initial theme) False.elim

/-- Every world catches up in which a theme is asked for, whatever panics there were before and
whoever caught them. -/
theorem catchesUp_of_lookedAt {w : World E R}
    (h : LookedAt (fun watch => program.run (watchedBeforeThemes (watch ()) depth))
      (program.run (run depth)) (World.initial theme) () w) : w.CatchesUp :=
  h.holds (Q := fun _ => World.CatchesUp) fun _ hwatch =>
    (watchedBeforeThemes_script (hwatch ())).1

end Operation

/-- Whoever watches the worlds in which a theme is asked for, and does something only in those
that would not catch up, never does anything, whatever panics there were before and whoever
caught them. -/
theorem everybody_catches_up (theme : Theme) (depth : Nat) (program : Script E R)
    (watch : World E R → World E R) (hwatch : ∀ w, w.CatchesUp → watch w = w) :
    program.run (Operation.watchedBeforeThemes watch depth) (World.initial theme) =
        program.run (Operation.run depth) (World.initial theme) ∧
      (program.run (Operation.run depth) (World.initial theme)).2.CatchesUp := by
  obtain ⟨hsame, hkept⟩ := Operation.watchedBeforeThemes_script hwatch
  exact ⟨hsame, hkept.catchesUp⟩

/-! ## A round that is broken off

Two surfaces are shown on two devices.  While they are told of the dark theme the first
device panics, so the second surface is not told.  The embedder catches the panic, leaves a
note of it, and repairs the device. -/

def brokenRound (next : Script LimitedBuffer Display) : Script LimitedBuffer Display :=
  .perform (.create {} {}) fun _ =>
  .perform (.create {} {}) fun _ =>
  .perform (.on 0 (.renderLayer fun d =>
    ({ d with mode := .panics "lost".toList }, .ok ()))) fun _ =>
  .attempt (.setTheme .dark) fun outcome =>
    match outcome with
    | .ok _ => .done
    | .error reason =>
      .note reason
        (.perform (.on 0 (.renderLayer fun d => ({ d with mode := .works }, .ok ()))) fun _ => next)

/-- An observer that answers the light theme with the dark one. -/
def answerLightWithDark (next : Script LimitedBuffer Display) : Script LimitedBuffer Display :=
  .perform (.subscribe fun theme =>
    if theme = .light then .perform (.setTheme .dark) fun _ => .done else .done) fun _ => next

/-- An observer that does the same with a device that panics again, and catches that. -/
def answerLightWithBrokenDark (next : Script LimitedBuffer Display) :
    Script LimitedBuffer Display :=
  .perform (.subscribe fun theme =>
    if theme = .light then
      .perform (.on 0 (.renderLayer fun d =>
        ({ d with mode := .panics "lost".toList }, .ok ()))) fun _ =>
      .attempt (.setTheme .dark) fun _ => .done
    else .done) fun _ => next

/-- What an embedder sees who asks for a theme after a run: the reply, the theme of the
notifier, and the themes of two surfaces if they are subscribed. -/
def asking (program : Script LimitedBuffer Display) (theme : Theme) :
    Option Reply × Theme × List (Option Theme) :=
  let w := (program.run (Operation.run 3) (World.initial .light)).2
  let (outcome, w') := Operation.run 3 (.setTheme theme) w
  (outcome.toOption, w'.notifier.theme, [0, 1].map fun n =>
    ((w'.live? n).filter fun s => s.subscription.isSome).map fun s => s.state.theme)

/-- After the panic, asking for the dark theme once more returns and leaves the second
surface in the light theme.  Asking for the light theme leaves nobody in it if a callback
sets another one, and leaves the second surface behind if that is broken off. -/
theorem broken_round_outlasts_retries :
    .note "lost".toList ∈
        ((brokenRound .done).run (Operation.run 3) (World.initial .light)).2.trace ∧
      asking (brokenRound .done) .dark = (some .done, .dark, [some .dark, some .light]) ∧
      asking (brokenRound (answerLightWithDark .done)) .light =
        (some .done, .dark, [some .dark, some .dark]) ∧
      asking (brokenRound (answerLightWithBrokenDark .done)) .light =
        (some .done, .dark, [some .dark, some .light]) := by
  decide +kernel

open Classical in
/-- Leaves a note in a world that would not catch up. -/
noncomputable def noteLostForGood (w : World LimitedBuffer Display) : World LimitedBuffer Display :=
  if w.CatchesUp then w else w.record (.note "lost for good".toList)

/-- The world after the panic. -/
def brokenRoundWorld : World LimitedBuffer Display :=
  ((brokenRound .done).run (Operation.run 3) (World.initial .light)).2

/-- After the panic a surface is behind, and asking for the other theme makes everybody
follow. -/
theorem broken_round_is_caught_up :
    brokenRoundWorld.notifier.theme = .dark ∧
      (brokenRoundWorld.live? 1).map (fun s => s.state.theme) = some .light ∧
      (Operation.run 3 (.setTheme .light) brokenRoundWorld).2.Follows ∧
      (Operation.run 3 (.setTheme .light) brokenRoundWorld).2.notifier.theme = .light ∧
      (brokenRound .done).run (Operation.watchedBeforeThemes noteLostForGood 3)
          (World.initial .light) =
        (brokenRound .done).run (Operation.run 3) (World.initial .light) := by
  obtain ⟨hsame, hkept⟩ := everybody_catches_up .light 3 (brokenRound .done) noteLostForGood
    fun w hw => if_pos hw
  have hcatches : brokenRoundWorld.CatchesUp := hkept
  have hdark : brokenRoundWorld.notifier.theme = .dark := by decide +kernel
  have hsteady : (Operation.steady 3 (.setTheme .light) brokenRoundWorld).1 = .ok .done :=
    Action.eq_ok_of_toOption (by decide +kernel)
  have hundisturbed : (Operation.undisturbed 3 (.setTheme .light) brokenRoundWorld).1 ≠
      .error .tooDeep := Action.ne_tooDeep_of_isOk (by decide +kernel)
  have hne : brokenRoundWorld.notifier.theme ≠ .light := by
    rw [hdark]
    decide
  obtain ⟨-, hfollows, htheme⟩ := hcatches.change 3 .light hne hsteady
  exact ⟨hdark, by decide +kernel, hfollows, htheme hundisturbed, hsame⟩

end Surface
end QueryView
