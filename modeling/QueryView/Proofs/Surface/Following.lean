/-
Surfaces follow the theme.

While the notifier tells its observers of a theme, some surfaces are in the new theme and
some in the old one, and callbacks may change the theme again before all were told.  The
main theorem, `all_follow_when_a_change_ends`, says that nothing of this is left when a
change of the theme ends that is not part of another one: every surface that is alive and
subscribed is then in the theme of the notifier, and its runs are in the colors of that
theme.  Callbacks may do anything meanwhile, and render layers may fail.

One thing is asked, that no change of the theme is broken off.  A panic breaks off the round
of telling, and surfaces that were not told yet stay behind.  `Operation.steady` puts the
condition into the form of a run: it treats a change of the theme that is broken off as the
end of everything, so a run that does not end in this way has no such change in it.  A
run without panics is one of those (`steady_of_faultless`), but panics elsewhere do no harm.
-/
import QueryView.Proofs.Surface.Behind
import QueryView.Surface.Trial

namespace QueryView
namespace Surface

variable {E R : Type} [EditableLayer E] [RenderLayer R]

namespace Operation

open Surface.Action World

/-! ## Steady runs -/

/-- The meaning of operations that nest at most `depth` deep, where a change of the theme
that is broken off ends the run, and nobody can catch that. -/
def steady : Nat → Meaning E R :=
  runWith fun _ meaning theme => unbroken (step meaning (.setTheme theme))

theorem matches_unbroken_setTheme {m m' : Meaning E R}
    (hm : ∀ op, Matches True OnlyBehind (m op) (m' op)) (theme : Theme) :
    Matches True OnlyBehind (step m (.setTheme theme)) (unbroken (step m' (.setTheme theme))) := by
  intro w F hw hends
  obtain ⟨reply, w', hstep, hunbroken⟩ := exists_of_unbroken (hends trivial)
  rw [hunbroken]
  rw [step, get_bind_apply] at hstep ⊢
  split at hstep
  · next hheld =>
    obtain ⟨⟨⟩, _, hset, hreply⟩ := exists_of_bind_ok hstep
    cases hreply
    rw [if_pos hheld, bind_apply]
    -- Asking for the theme that is set already is no round, and has nobody to leave behind.
    by_cases hsame : w.notifier.theme = theme
    · rw [setTheme_same hsame] at hset ⊢
      cases hset
      exact ⟨rfl, hw⟩
    · obtain ⟨hround, hregular, hnobody⟩ := setTheme_round hm hw.1 hsame hset
      rw [hround]
      exact ⟨rfl, hregular, hnobody.mono fun _ => False.elim⟩
  · next hheld =>
    cases hstep
    rw [if_neg hheld]
    exact ⟨rfl, hw⟩

/-- In a steady run operations do what they do, and leave nobody behind. -/
theorem matches_steady (depth : Nat) (op : Operation E R) :
    Matches True OnlyBehind (run depth op) (steady depth op) := by
  rw [run_eq_runWith]
  exact matches_runWith walked_onlyBehind
    (fun _ hm theme => matches_unbroken_setTheme (fun op => hm op op.throughout_true) theme)
    depth op op.throughout_true

/-- A change to another theme, in a steady run, is a round of telling that leaves nobody
behind. -/
theorem setTheme_of_steady {depth : Nat} {theme : Theme} {w : World E R} (hw : w.Regular)
    (hne : w.notifier.theme ≠ theme)
    (h : (steady (depth + 1) (.setTheme theme) w).1 = .ok .done) :
    ∃ w', w.notifier.held = true ∧ World.setTheme (run depth) theme w = (.ok ⟨⟩, w') ∧
      w'.OnlyBehind fun _ => False := by
  have hends : (steady (depth + 1) (.setTheme theme) w).1 ≠ .error .tooDeep := by
    rw [h]
    nofun
  obtain ⟨reply, w', hstep, hunbroken⟩ := exists_of_unbroken hends
  have hreply : Except.ok reply = Except.ok Reply.done := (congrArg Prod.fst hunbroken).symm.trans h
  rw [step, get_bind_apply] at hstep
  split at hstep
  · next hheld =>
    obtain ⟨⟨⟩, _, hset, hdone⟩ := exists_of_bind_ok hstep
    cases hdone
    exact ⟨w', hheld, setTheme_round (matches_steady depth) hw hne hset⟩
  · cases hstep
    cases hreply

/-- The meaning of operations that nest at most `depth` deep, where any operation that is
broken off ends the run, and nobody can catch that. -/
def faultless : Nat → Meaning E R
  | 0 => fun _ => throw .tooDeep
  | depth + 1 => fun op => unbroken (step (faultless depth) op)

theorem walked_true :
    Walked True (fun _ : Operation E R => True) fun (_ : Unit) (_ : World E R) => True :=
  walked_of_still (fun _ _ _ _ _ => trivial) fun _ _ _ _ _ => trivial

theorem matches_faultless (depth : Nat) (op : Operation E R) :
    Matches True (fun (_ : Unit) (_ : World E R) => True) (steady depth op)
      (faultless depth op) := by
  induction depth generalizing op with
  | zero => exact matches_throw _
  | succ depth ih =>
    by_cases hop : ∃ theme, op = .setTheme theme
    · obtain ⟨theme, rfl⟩ := hop
      exact matches_unbroken_unbroken
        (matches_setTheme walked_true.toCarried walked_true.tells (fun op _ => ih op)
          ⟨fun _ _ _ => trivial, fun _ _ _ _ => trivial⟩)
    · rw [not_exists] at hop
      rw [steady, runWith_of_ne hop]
      exact matches_unbroken (matches_step walked_true (fun op _ => ih op) hop op.throughout_true)

end Operation

/-- A run is steady if nothing panics in it, and so no operation is broken off. -/
theorem steady_of_faultless {depth : Nat} {program : Script E R} {w : World E R}
    (h : (program.run (Operation.faultless depth) w).1 ≠ .error .tooDeep) :
    (program.run (Operation.steady depth) w).1 ≠ .error .tooDeep := by
  obtain ⟨hsame, -⟩ := World.matches_script Operation.walked_true
    (fun op _ => Operation.matches_faultless depth op) program program.throughout_true w ()
    trivial fun _ => h
  rwa [hsame]

/-- In a steady run everything is as in a run. -/
theorem run_of_steady {depth : Nat} {program : Script E R} {w : World E R}
    (h : (program.run (Operation.steady depth) w).1 ≠ .error .tooDeep) :
    program.run (Operation.run depth) w = program.run (Operation.steady depth) w := by
  have hop (op : Operation E R) : Action.Matches True (fun (_ : Unit) (_ : World E R) => True)
      (Operation.run depth op) (Operation.steady depth op) := by
    rw [Operation.run_eq_runWith]
    refine Operation.matches_runWith Operation.walked_true (fun _ hm theme => ?_) depth op
      op.throughout_true
    exact Action.matches_unbroken (Operation.matches_setTheme Operation.walked_true.toCarried
      Operation.walked_true.tells hm ⟨fun _ _ _ => trivial, fun _ _ _ _ => trivial⟩)
  exact (World.matches_script Operation.walked_true (fun op _ => hop op) program
    program.throughout_true w () trivial fun _ => h).1

namespace Operation

open Surface.Action World

/-! ## Watching changes of the theme -/

/-- The meaning of operations that nest at most `depth` deep, with somebody who does
something to the world whenever a change of the theme has come to its end that is not part
of another one. -/
def watchedAfterThemes (watch : World E R → World E R) : Nat → Meaning E R :=
  runWith fun depth _ theme => do
    let reply ← run (depth + 1) (.setTheme theme)
    modify watch
    return reply

theorem walked_nobodyBehind : Walked True (fun _ : Operation E R => True)
    fun (_ : Unit) (w : World E R) => w.OnlyBehind fun _ => False :=
  walked_of_still (fun _ _ _ hw h => h.onlyBehind hw) fun _ _ _ hw h => hw.still h

theorem matches_watchedAfterThemes {watch : World E R → World E R}
    (hwatch : ∀ w, w.Follows → watch w = w) (depth : Nat) (op : Operation E R) :
    Matches True (fun _ : Unit => OnlyBehind fun _ => False) (watchedAfterThemes watch depth op)
      (steady depth op) := by
  refine matches_runWith walked_nobodyBehind (fun depth _ theme => ?_) depth op
    op.throughout_true
  intro w _ hw hends
  obtain ⟨hrun, hkept⟩ := matches_steady (depth + 1) (.setTheme theme) w _ hw hends
  obtain ⟨reply, w', -, hunbroken⟩ := exists_of_unbroken (hends trivial)
  have hsteady : steady (depth + 1) (.setTheme theme) w = (.ok reply, w') := hunbroken
  rw [hsteady] at hrun hkept
  have hsame : watch w' = w' := hwatch w' (hkept.1.follows hkept.2)
  refine ⟨?_, hunbroken ▸ hkept⟩
  rw [hunbroken]
  simp only [bind_apply, hrun, modify_apply, hsame, pure_apply]

end Operation

section
variable {theme : Theme} {depth : Nat} {program : Script E R}
  (hsteady : (program.run (Operation.steady depth) (World.initial theme)).1 ≠ .error .tooDeep)
include hsteady

/-- A run that is watched is steady, and leaves nobody behind. -/
theorem Operation.watchedAfterThemes_script {watch : World E R → World E R}
    (hwatch : ∀ w, w.Follows → watch w = w) :
    program.run (watchedAfterThemes watch depth) (World.initial theme) =
        program.run (steady depth) (World.initial theme) ∧
      (program.run (steady depth) (World.initial theme)).2.OnlyBehind fun _ => False := by
  have hstart : (World.initial theme : World E R).OnlyBehind fun _ => False := by
    refine ⟨World.regular_initial theme, fun n hn => ?_⟩
    obtain ⟨s, hs, -⟩ := hn
    simp [World.initial, World.live?] at hs
  exact World.matches_script walked_nobodyBehind
    (fun op _ => matches_watchedAfterThemes hwatch depth op) program program.throughout_true _ ()
    hstart fun _ => hsteady

/-- In every world in which a change of the theme ends that is not part of another one, every
surface follows the theme. -/
theorem follows_of_lookedAt {w : World E R}
    (h : Action.LookedAt (fun watch => program.run (Operation.watchedAfterThemes (watch ()) depth))
      (program.run (Operation.run depth)) (World.initial theme) () w) : w.Follows :=
  h.holds (Q := fun _ => World.Follows) fun _ hwatch =>
    (Operation.watchedAfterThemes_script hsteady (hwatch ())).1.trans (run_of_steady hsteady).symm

end

/-- Whoever watches the ends of those changes of the theme that are not part of others, and
does something only in worlds in which a surface does not follow the theme, never does
anything in a run in which no change of the theme is broken off. -/
theorem all_follow_when_a_change_ends (theme : Theme) (depth : Nat) (program : Script E R)
    (hsteady : (program.run (Operation.steady depth) (World.initial theme)).1 ≠ .error .tooDeep)
    (watch : World E R → World E R) (hwatch : ∀ w, w.Follows → watch w = w) :
    program.run (Operation.watchedAfterThemes watch depth) (World.initial theme) =
        program.run (Operation.run depth) (World.initial theme) ∧
      (program.run (Operation.run depth) (World.initial theme)).2.Follows := by
  obtain ⟨hsame, hkept⟩ := Operation.watchedAfterThemes_script hsteady hwatch
  rw [run_of_steady hsteady]
  exact ⟨hsame, hkept.1.follows hkept.2⟩

/-! ## A change of the theme within another one

The second change of the theme in this run is answered by an observer with a third one, which
is to a theme that the outer change does not know of, and with a new surface.  The device of
another surface has failed by then. -/

def nestedChanges : Script LimitedBuffer Display :=
  .perform (.create {} {}) fun _ =>
  .perform (.subscribe fun theme =>
    if theme = .light then
      .perform (.setTheme .dark) fun _ =>
      .perform (.create {} {}) fun _ => .done
    else .done) fun _ =>
  .perform (.create {} {}) fun _ =>
  .perform (.on 1 (.renderLayer fun d =>
    ({ d with mode := .fails (.renderFailed "gone".toList) }, .ok ()))) fun _ =>
  .perform (.setTheme .dark) fun _ =>
  .perform (.setTheme .light) fun _ => .done

open Classical in
/-- Leaves a note if a surface does not follow the theme. -/
noncomputable def noteBehind (w : World LimitedBuffer Display) : World LimitedBuffer Display :=
  if w.Follows then w else w.record (.note "behind".toList)

theorem nested_changes_are_followed :
    let w := (nestedChanges.run (Operation.run 3) (World.initial .light)).2
    (nestedChanges.run (Operation.steady 3) (World.initial .light)).1 ≠ .error .tooDeep ∧
      (List.range 3).map (fun n => (w.live? n).map fun s => s.state.theme) =
        [some .dark, some .dark, some .dark] ∧
      (w.live? 1).map (fun s => s.rendered.mode) =
        some (.fails (.renderFailed "gone".toList)) ∧ w.Follows ∧
      nestedChanges.run (Operation.watchedAfterThemes noteBehind 3) (World.initial .light) =
        nestedChanges.run (Operation.run 3) (World.initial .light) := by
  have hsteady : (nestedChanges.run (Operation.steady 3) (World.initial .light)).1 ≠
      .error .tooDeep := Action.ne_tooDeep_of_isOk (by decide +kernel)
  obtain ⟨hsame, hfollows⟩ := all_follow_when_a_change_ends .light 3 nestedChanges hsteady
    noteBehind fun w hw => if_pos hw
  exact ⟨hsteady, by decide +kernel, by decide +kernel, hfollows, hsame⟩

end Surface
end QueryView
