/-
Observers that are told of an outdated theme.

Every change of the theme tells everybody of the theme that it is about.  If an observer answers
with another change, that one is over before the outer one goes on, and the outer one goes on to
tell the others of a theme that the notifier does not have any more
(`outdated_theme_is_told_last`).  So what an observer was told last need not be the theme of the
notifier.

The main theorem, `told_last_is_current_iff_it_was`, says that being told of an outdated theme
is the only reason for this.  When a change of the theme ends that is not part of another one,
an observer that is still subscribed was told of the theme of the notifier the last time that it
was called, or else the notifier had another theme already when it was told.

The diary says what the notifier had.  The invariant is the one by which surfaces follow the
theme: only those observers are misled, which is to say that the notifier had another theme when
they were called last, who are yet to be called in the round that is going on.  A new theme
misleads everybody who is subscribed, a call rights whoever is called, and nothing else matters
to an observer that has been called.  Somebody who subscribes has not been called, since numbers
of subscriptions are not used again.
-/
import QueryView.Proofs.Surface.Diary
import QueryView.Surface.Trial

namespace QueryView
namespace Surface

variable {E R : Type}

namespace World

/-! ## Observers that are misled -/

/-- The observer is subscribed, and when it was called last, the notifier had another theme
than now.  The trace is a diary. -/
def Misled (w : World E R) (i : Nat) : Prop :=
  (∃ id, w.subscriptions[i]? = some (some id)) ∧
    ∃ had told, [had, told] <:+ themesOf i w.trace ∧ had ≠ w.notifier.theme

/-- Whatever an observer that is subscribed was told last is the theme of the notifier if and
only if it was when the observer was told.  The trace is a diary. -/
def UpToDate (w : World E R) : Prop :=
  ∀ i id, w.subscriptions[i]? = some (some id) → ∀ had told, [had, told] <:+ themesOf i w.trace →
    (told = w.notifier.theme ↔ told = had)

/-- The worlds that a round of telling goes through: there have been so many subscriptions, and
no observer but some is misled. -/
structure OnlyMisled (bound : Nat × (Nat → Prop)) (w : World E R) : Prop where
  registered : w.Registered
  listed : w.Listed
  length : bound.1 ≤ w.subscriptions.length
  /-- Nobody was called before having subscribed. -/
  called : ∀ i, themesOf i w.trace ≠ [] → i < w.subscriptions.length
  misled : ∀ i, w.Misled i → bound.2 i

variable {w w' : World E R} {k : Nat} {F G : Nat → Prop}

theorem onlyMisled_initial (theme : Theme) :
    (World.initial theme : World E R).OnlyMisled (0, fun _ => False) where
  registered := registered_initial theme
  listed := listed_initial theme
  length := Nat.le_refl 0
  called := fun _ h => absurd rfl h
  misled := by
    rintro i ⟨⟨id, hid⟩, -⟩
    cases hid

theorem OnlyMisled.mono (h : w.OnlyMisled (k, F)) {k' : Nat} (hk : k' ≤ k)
    (hFG : ∀ i, F i → G i) : w.OnlyMisled (k', G) :=
  ⟨h.registered, h.listed, Nat.le_trans hk h.length, h.called, fun i hi => hFG i (h.misled i hi)⟩

theorem OnlyMisled.setSuppressing (h : w.OnlyMisled (k, F)) {n : Nat} {on : Bool} :
    (w.setSuppressing n on).OnlyMisled (k, F) :=
  ⟨h.registered.changeLive fun _ => rfl, h.listed.setSuppressing n on, h.length, h.called,
    h.misled⟩

/-- If nobody is misled, the notifier has the theme that it had when an observer was called
last. -/
theorem OnlyMisled.upToDate (h : w.OnlyMisled (k, fun _ => False)) : w.UpToDate := by
  intro i id hid had told hlast
  have hsame : had = w.notifier.theme :=
    Decidable.byContradiction fun hne => h.misled i ⟨⟨id, hid⟩, had, told, hlast, hne⟩
  rw [hsame]

end World

section
variable [EditableLayer E] [RenderLayer R] {p : Operation E R → Prop} {w w' : World E R}

theorem Turn.themesOf_trace (h : Turn p w w') (i : Nat) :
    themesOf i w'.trace = themesOf i w.trace := by
  obtain ⟨added, htrace, hadded⟩ := h.uncalled
  rw [htrace, themesOf_append_of_uncalled hadded]

/-- A turn misleads nobody. -/
theorem Turn.onlyMisled {bound : Nat × (Nat → Prop)} (h : Turn p w w') (hw : w.OnlyMisled bound) :
    w'.OnlyMisled bound where
  registered := h.registered hw.registered
  listed := h.listed hw.listed
  length := Nat.le_trans hw.length h.length_subscriptions_le
  called := by
    intro i hi
    rw [h.themesOf_trace] at hi
    exact Nat.lt_of_lt_of_le (hw.called i hi) h.length_subscriptions_le
  misled := by
    rintro i ⟨⟨id, hid⟩, had, told, hlast, hne⟩
    rw [h.themesOf_trace] at hlast
    rw [h.theme] at hne
    have hcalled : themesOf i w.trace ≠ [] := by
      intro hnil
      rw [hnil] at hlast
      cases List.suffix_nil.mp hlast
    refine hw.misled i ⟨⟨id, ?_⟩, had, told, hlast, hne⟩
    rcases h.kept_or_given_back (hw.called i hcalled) with hkept | hback
    · rw [← hkept, hid]
    · rw [hback] at hid
      cases hid

end

namespace World

open Surface.Action

variable {w w' : World E R} {m m' : Meaning E R} {theme : Theme} {k : Nat} {F G : Nat → Prop}

/-! ## Telling -/

/-- The observer is one of those who are on the list. -/
def Awaits (xs : List (Nat × Watcher E R)) (i : Nat) : Prop :=
  ∃ id body, (id, .observer i body) ∈ xs

theorem not_awaits_nil {i : Nat} : ¬ Awaits ([] : List (Nat × Watcher E R)) i := by
  rintro ⟨id, body, hmem⟩
  exact List.not_mem_nil hmem

theorem awaits_cons_iff {x : Nat × Watcher E R} {xs : List (Nat × Watcher E R)} {i : Nat} :
    Awaits (x :: xs) i ↔ (∃ body, x.2 = .observer i body) ∨ Awaits xs i := by
  constructor
  · rintro ⟨id, body, hmem⟩
    rcases List.mem_cons.mp hmem with rfl | hmem
    · exact .inl ⟨body, rfl⟩
    · exact .inr ⟨id, body, hmem⟩
  · rintro (⟨body, hx⟩ | ⟨id, body, hmem⟩)
    · exact ⟨x.1, body, hx ▸ List.mem_cons_self⟩
    · exact ⟨id, body, List.mem_cons_of_mem _ hmem⟩

/-- Only those are misled by a new theme whom the notifier knows. -/
theorem OnlyMisled.withTheme (h : w.OnlyMisled (k, F)) (theme : Theme) :
    (w.withTheme theme).OnlyMisled (w.subscriptions.length, Awaits w.notifier.observers) where
  registered := h.registered.withTheme theme
  listed := h.listed
  length := Nat.le_refl _
  called := h.called
  misled := by
    rintro i ⟨⟨id, hid⟩, -⟩
    obtain ⟨body, hbody⟩ := h.registered.observers i id hid
    exact ⟨id, body, hbody⟩

/-- Whoever is called is not misled. -/
theorem OnlyMisled.noted (h : w.OnlyMisled (k, F)) {i : Nat} (hi : i < k)
    (hFG : ∀ j, F j → j = i ∨ G j) (told : Theme) :
    (w.retrace (w.trace ++ entries i w.notifier.theme told)).OnlyMisled (k, G) where
  registered := h.registered.still { Still.refl w with }
  listed := h.listed
  length := h.length
  called := by
    intro j hj
    have hj : themesOf j (w.trace ++ entries i w.notifier.theme told) ≠ [] := hj
    by_cases hij : i = j
    · exact hij ▸ Nat.lt_of_lt_of_le hi h.length
    · rw [themesOf_entries_of_ne hij] at hj
      exact h.called j hj
  misled := by
    rintro j ⟨hsub, had, told', hlast, hne⟩
    have hlast : [had, told'] <:+ themesOf j (w.trace ++ entries i w.notifier.theme told) := hlast
    by_cases hij : i = j
    · -- Its last entries are the new ones.
      subst hij
      rw [themesOf_entries_self] at hlast
      obtain ⟨before, heq⟩ := hlast
      obtain ⟨-, hpair⟩ := List.append_inj' heq rfl
      exact absurd (List.cons.inj hpair).1 hne
    · rw [themesOf_entries_of_ne hij] at hlast
      exact (hFG j (h.misled j ⟨hsub, had, told', hlast, hne⟩)).resolve_left (Ne.symm hij)

/-- Notes the theme that the notifier has, if an observer is about to be told. -/
def noteTheme : Nat × Watcher E R → World E R → World E R
  | (_, .surface _), w => w
  | (_, .observer i _), w => w.record (.themed i w.notifier.theme)

variable [RenderLayer R]

/-- Tells somebody of a new theme, after a note of the one that the notifier has. -/
def noteAndTell (m : Meaning E R) (theme : Theme) (x : Nat × Watcher E R) : Action E R Unit := do
  modify (noteTheme x)
  tell m theme x.2

theorem noteAndTell_observer (m : Meaning E R) (id i : Nat) (body : Theme → Script E R) :
    noteAndTell m theme (id, .observer i body) w =
      (body theme).run m (w.retrace (w.trace ++ entries i w.notifier.theme theme)) := by
  rw [noteAndTell, bind_apply, modify_apply]
  show tell m theme (.observer i body) _ = _
  rw [tell_observer]
  congr 1
  simp [record, noteTheme, retrace, entries]

theorem noting_noteAndTell (hm : ∀ op, Noting (m op) (m' op)) (x : Nat × Watcher E R) :
    Noting (tell m theme x.2) (noteAndTell m' theme x) := by
  obtain ⟨id, watcher⟩ := x
  cases watcher with
  | surface n => exact noting_tell_surface m m' theme
  | observer i body =>
    intro w diary hdiary
    rw [noteAndTell_observer, tell_observer]
    have hnoted : Diary (w.record (.themed i theme)).trace
        (diary ++ entries i w.notifier.theme theme) := .noted i w.notifier.theme theme hdiary
    exact noting_script hm (body theme) _ _ hnoted

variable [EditableLayer E]

theorem walked_onlyMisled :
    Walked True (fun _ : Operation E R => True) (OnlyMisled : _ → World E R → Prop) where
  stores := fun _ w _ => w.stores_true
  turn := fun _ _ _ hw h => h.onlyMisled hw
  write := fun {_} _ {_ _} h => matches_suppressing h fun _ _ _ hw => hw.setSuppressing

/-! ## A round of telling -/

theorem matches_tell_surface (m m' : Meaning E R) (theme : Theme) (n : Nat) :
    Matches True OnlyMisled (tell m theme (.surface n)) (tell m' theme (.surface n)) := by
  refine matches_get_bind fun w => matches_ite ?_ (matches_pure _) w
  refine matches_holding_of_carried walked_onlyMisled.toCarried ?_
  exact matches_bind (matches_followTheme walked_onlyMisled.toCarried trivial) fun _ =>
    matches_pure _

/-- Telling the first of those who are to be told leaves only the others misled. -/
theorem noteAndTell_first (hm : ∀ op, Matches True OnlyMisled (m op) (m' op))
    {x : Nat × Watcher E R} {xs : List (Nat × Watcher E R)}
    (hknown : ∀ i, Awaits (x :: xs) i → i < k) (hw : w.OnlyMisled (k, Awaits (x :: xs)))
    (h : noteAndTell m' theme x w = (.ok ⟨⟩, w')) :
    noteAndTell m theme x w = (.ok ⟨⟩, w') ∧ w'.OnlyMisled (k, Awaits xs) := by
  obtain ⟨id, watcher⟩ := x
  cases watcher with
  | surface n =>
    have hrest : w.OnlyMisled (k, Awaits xs) := by
      refine hw.mono (Nat.le_refl k) fun i hi => (awaits_cons_iff.mp hi).resolve_left ?_
      rintro ⟨body, heq⟩
      cases heq
    have htell : tell m' theme (.surface n) w = (.ok ⟨⟩, w') := h
    obtain ⟨hsame, hkept⟩ := matches_tell_surface m m' theme n w _ hrest fun _ => by
      rw [htell]
      nofun
    rw [htell] at hsame hkept
    exact ⟨hsame, hkept⟩
  | observer i body =>
    have hothers (j : Nat) (hj : Awaits ((id, .observer i body) :: xs) j) :
        j = i ∨ Awaits xs j := by
      rcases awaits_cons_iff.mp hj with ⟨body', heq⟩ | hj
      · exact .inl (Watcher.observer.inj heq).1.symm
      · exact .inr hj
    have hcalled := hw.noted (hknown i (awaits_cons_iff.mpr (.inl ⟨body, rfl⟩))) hothers theme
    rw [noteAndTell_observer] at h ⊢
    -- A callback may do anything, but it misleads nobody who was not misled.
    obtain ⟨hsame, hkept⟩ := matches_script walked_onlyMisled (fun op _ => hm op) (body theme)
      (body theme).throughout_true _ _ hcalled fun _ => by
        rw [h]
        nofun
    rw [h] at hsame hkept
    exact ⟨hsame, hkept⟩

/-- After everybody was told nobody is misled, if only those were that are told. -/
theorem callInTurn_noteAndTell (hm : ∀ op, Matches True OnlyMisled (m op) (m' op))
    (xs : List (Nat × Watcher E R)) (hknown : ∀ i, Awaits xs i → i < k)
    (hw : w.OnlyMisled (k, Awaits xs))
    (h : callInTurn (noteAndTell m' theme) xs w = (.ok ⟨⟩, w')) :
    callInTurn (noteAndTell m theme) xs w = (.ok ⟨⟩, w') ∧
      w'.OnlyMisled (k, fun _ => False) := by
  induction xs generalizing w with
  | nil =>
    cases h
    exact ⟨rfl, hw.mono (Nat.le_refl k) fun _ => not_awaits_nil⟩
  | cons x xs ih =>
    rw [callInTurn_cons] at h
    obtain ⟨⟨⟩, gone, hfirst, hrest⟩ := exists_of_bind_ok h
    obtain ⟨⟨⟩, told, htold, hgone⟩ := exists_of_bind_ok hfirst
    obtain ⟨hsame, hleft⟩ := noteAndTell_first hm hknown hw htold
    have hgoing : Matches True OnlyMisled (letGo x) (letGo x) :=
      matches_letGo walked_onlyMisled.toCarried x
    obtain ⟨-, hkept⟩ := hgoing told _ hleft fun _ => by
      rw [hgone]
      nofun
    rw [hgone] at hkept
    have hboth : (noteAndTell m theme x >>= fun _ => letGo x) w = (.ok ⟨⟩, gone) := by
      rw [bind_apply, hsame]
      exact hgone
    have hlater : ∀ i, Awaits xs i → i < k := fun i hi => hknown i (awaits_cons_iff.mpr (.inr hi))
    obtain ⟨hround, hnobody⟩ := ih hlater hkept hrest
    refine ⟨?_, hnobody⟩
    rw [callInTurn_cons, bind_apply, hboth]
    exact hround

/-- The same of a round. -/
theorem round_noteAndTell (hm : ∀ op, Matches True OnlyMisled (m op) (m' op))
    (xs : List (Nat × Watcher E R)) (hknown : ∀ i, Awaits xs i → i < k)
    (hw : w.OnlyMisled (k, Awaits xs)) (h : round (noteAndTell m' theme) xs w = (.ok ⟨⟩, w')) :
    round (noteAndTell m theme) xs w = (.ok ⟨⟩, w') ∧ w'.OnlyMisled (k, fun _ => False) := by
  obtain ⟨called, hcalled, rfl⟩ := exists_of_round_ok h
  have hbegun : (w.beginRound xs).OnlyMisled (k, Awaits xs) :=
    walked_onlyMisled.turn _ w _ hw (.aside (.kept w.belongings _ w fun _ hb => .inl hb))
  obtain ⟨hsame, hkept⟩ := callInTurn_noteAndTell hm xs hknown hbegun hcalled
  refine ⟨round_of_ok hsame, walked_onlyMisled.turn _ called _ hkept ?_⟩
  exact .aside (.kept called.belongings _ called fun _ hb => .inl hb)

end World

namespace Operation

open Surface.Action World

variable [RenderLayer R] {w w' : World E R} {m m' : Meaning E R} {theme : Theme}

theorem announce_same {hear : World E R → Nat × Watcher E R → World E R → World E R}
    (h : w.notifier.theme = theme) : announce hear m theme w = (.ok ⟨⟩, w) := by
  rw [announce, get_bind_apply, if_pos h]
  rfl

theorem announce_of_ne (h : w.notifier.theme ≠ theme) :
    announce (fun _ => noteTheme) m theme w =
      round (noteAndTell m theme) w.notifier.observers (w.withTheme theme) := by
  rw [announce, get_bind_apply, if_neg h, bind_apply, modify_apply]
  rfl

variable [EditableLayer E]

/-- A change of the theme that comes to its end leaves nobody misled. -/
theorem announce_round (hm : ∀ op, Matches True OnlyMisled (m op) (m' op))
    {bound : Nat × (Nat → Prop)} (hw : w.OnlyMisled bound) (hne : w.notifier.theme ≠ theme)
    (h : announce (fun _ => noteTheme) m' theme w = (.ok ⟨⟩, w')) :
    announce (fun _ => noteTheme) m theme w = (.ok ⟨⟩, w') ∧
      w'.OnlyMisled (w.subscriptions.length, fun _ => False) := by
  rw [announce_of_ne hne] at h ⊢
  refine round_noteAndTell hm w.notifier.observers ?_ (hw.withTheme theme) h
  rintro i ⟨id, body, hmem⟩
  rcases hw.listed id _ hmem with hholds | ⟨-, hgone⟩
  · exact (List.getElem?_eq_some_iff.mp hholds).1
  · exact (List.getElem?_eq_some_iff.mp hgone).1

/-! ## Runs with a diary -/

/-- The meaning of operations that nest at most `depth` deep, with somebody who keeps a diary. -/
def noted : Nat → Meaning E R :=
  runWith fun _ meaning theme => announcedStep (fun _ => noteTheme) meaning (.setTheme theme)

/-- The same, where a change of the theme that is broken off ends the run, and nobody can catch
that. -/
def notedSteady : Nat → Meaning E R :=
  runWith fun _ meaning theme =>
    unbroken (announcedStep (fun _ => noteTheme) meaning (.setTheme theme))

/-- The meaning of operations that nest at most `depth` deep, with somebody who keeps a diary,
and somebody who does something to the world whenever a change of the theme has come to its end
that is not part of another one. -/
def notedAndWatched (watch : World E R → World E R) : Nat → Meaning E R :=
  runWith fun depth _ theme => do
    let reply ← noted (depth + 1) (.setTheme theme)
    modify watch
    return reply

theorem matches_unbroken_announced (hm : ∀ op, Matches True OnlyMisled (m op) (m' op))
    (theme : Theme) :
    Matches True OnlyMisled (announcedStep (fun _ => noteTheme) m (.setTheme theme))
      (unbroken (announcedStep (fun _ => noteTheme) m' (.setTheme theme))) := by
  intro w bound hw hends
  obtain ⟨reply, w', hstep, hunbroken⟩ := exists_of_unbroken (hends trivial)
  rw [hunbroken]
  rw [announcedStep, get_bind_apply] at hstep ⊢
  split at hstep
  · next hheld =>
    obtain ⟨⟨⟩, _, hset, hreply⟩ := exists_of_bind_ok hstep
    cases hreply
    rw [if_pos hheld, bind_apply]
    by_cases hsame : w.notifier.theme = theme
    · rw [announce_same hsame] at hset ⊢
      cases hset
      exact ⟨rfl, hw⟩
    · obtain ⟨hround, hnobody⟩ := announce_round hm hw hsame hset
      rw [hround]
      exact ⟨rfl, hnobody.mono hw.length fun _ => False.elim⟩
  · next hheld =>
    cases hstep
    rw [if_neg hheld]
    exact ⟨rfl, hw⟩

/-- In a steady run operations do what they do, and leave nobody misled. -/
theorem matches_notedSteady (depth : Nat) (op : Operation E R) :
    Matches True OnlyMisled (noted depth op) (notedSteady depth op) :=
  matches_runWith walked_onlyMisled
    (fun _ hm theme => matches_unbroken_announced (fun op => hm op op.throughout_true) theme)
    depth op op.throughout_true

theorem walked_nobodyMisled : Walked True (fun _ : Operation E R => True)
    fun (_ : Unit) (w : World E R) => w.OnlyMisled (0, fun _ => False) where
  stores := fun _ w _ => w.stores_true
  turn := fun _ _ _ hw h => h.onlyMisled hw
  write := fun {_} _ {_ _} h => matches_suppressing h fun _ _ _ hw => hw.setSuppressing

theorem matches_notedAndWatched {watch : World E R → World E R}
    (hwatch : ∀ w, w.UpToDate → watch w = w) (depth : Nat) (op : Operation E R) :
    Matches True (fun _ : Unit => OnlyMisled (0, fun _ => False)) (notedAndWatched watch depth op)
      (notedSteady depth op) := by
  refine matches_runWith walked_nobodyMisled (fun depth _ theme => ?_) depth op
    op.throughout_true
  intro w _ hw hends
  obtain ⟨hrun, hkept⟩ := matches_notedSteady (depth + 1) (.setTheme theme) w _ hw hends
  obtain ⟨reply, w', -, hunbroken⟩ := exists_of_unbroken (hends trivial)
  have hsteady : notedSteady (depth + 1) (.setTheme theme) w = (.ok reply, w') := hunbroken
  rw [hsteady] at hrun hkept
  have hsame : watch w' = w' := hwatch w' hkept.upToDate
  refine ⟨?_, hunbroken ▸ hkept⟩
  rw [hunbroken]
  simp only [bind_apply, hrun, modify_apply, hsame, pure_apply]

/-! ## The diary of a run -/

theorem noting_announced (hm : ∀ op, Noting (m op) (m' op)) (theme : Theme) :
    Noting (step m (.setTheme theme))
      (announcedStep (fun _ => noteTheme) m' (.setTheme theme)) := by
  refine noting_get_bind (fun _ _ => rfl) fun _ => noting_ite ?_ (noting_pure _)
  refine noting_bind ?_ fun _ => noting_pure _
  refine noting_get_bind (fun _ _ => rfl) fun w => noting_ite (noting_pure _) ?_
  refine noting_bind (noting_modify fun _ _ => ⟨rfl, rfl⟩) fun _ => ?_
  exact noting_round (fun x => noting_noteAndTell hm x) w.notifier.observers

theorem noting_steady (depth : Nat) (op : Operation E R) :
    Noting (steady depth op) (notedSteady depth op) :=
  noting_runWith (fun _ hm theme => noting_unbroken (noting_announced hm theme)) depth op

end Operation

section
variable [EditableLayer E] [RenderLayer R] {theme : Theme} {depth : Nat} {program : Script E R}
  (hsteady : (program.run (Operation.steady depth) (World.initial theme)).1 ≠ .error .tooDeep)
include hsteady

/-- Nothing is broken off in a steady run because somebody keeps a diary. -/
theorem Operation.notedSteady_script :
    (program.run (notedSteady depth) (World.initial theme)).1 ≠ .error .tooDeep := by
  obtain ⟨diary, hnoted, -⟩ := World.noting_script (noting_steady depth) program
    (World.initial theme) [] .blank
  exact (congrArg Prod.fst hnoted).trans_ne hsteady

theorem Operation.notedAndWatched_script {watch : World E R → World E R}
    (hwatch : ∀ w, w.UpToDate → watch w = w) :
    program.run (notedAndWatched watch depth) (World.initial theme) =
        program.run (notedSteady depth) (World.initial theme) ∧
      (program.run (notedSteady depth) (World.initial theme)).2.OnlyMisled (0, fun _ => False) :=
  World.matches_script walked_nobodyMisled
    (fun op _ => matches_notedAndWatched hwatch depth op) program program.throughout_true
    (World.initial theme) () (World.onlyMisled_initial theme) fun _ => notedSteady_script hsteady

/-- In every world in which a change of the theme ends that is not part of another one, the theme
that an observer was told of last is that of the notifier if and only if it was when the observer
was told. -/
theorem upToDate_of_lookedAt {w : World E R}
    (h : Action.LookedAt (fun watch => program.run (Operation.notedAndWatched (watch ()) depth))
      (program.run (Operation.noted depth)) (World.initial theme) () w) : w.UpToDate := by
  obtain ⟨hnoted, -⟩ := World.matches_script World.walked_onlyMisled
    (fun op _ => Operation.matches_notedSteady depth op) program program.throughout_true
    (World.initial theme) _ (World.onlyMisled_initial theme)
    fun _ => Operation.notedSteady_script hsteady
  exact h.holds (Q := fun _ => World.UpToDate) fun _ hwatch =>
    (Operation.notedAndWatched_script hsteady (hwatch ())).1.trans hnoted.symm

end

/-- A diary makes no difference to a run in which no change of the theme is broken off.  Whenever
a change of the theme ends that is not part of another one, the theme that an observer was told
of last is that of the notifier if and only if it was when the observer was told: whoever watches
the ends of changes, and does something only where this is not so, never does anything.  It is so
at the end of the run as well. -/
theorem told_last_is_current_iff_it_was [EditableLayer E] [RenderLayer R] (theme : Theme)
    (depth : Nat) (program : Script E R)
    (hsteady : (program.run (Operation.steady depth) (World.initial theme)).1 ≠ .error .tooDeep)
    (watch : World E R → World E R) (hwatch : ∀ w, w.UpToDate → watch w = w) :
    let plain := program.run (Operation.run depth) (World.initial theme)
    ∃ diary, Diary plain.2.trace diary ∧
      program.run (Operation.notedAndWatched watch depth) (World.initial theme) =
        (plain.1, plain.2.retrace diary) ∧
      ∀ i id told, plain.2.subscriptions[i]? = some (some id) →
        (themesOf i plain.2.trace).getLast? = some told →
          ∃ had, [had, told] <:+ themesOf i diary ∧
            (told = plain.2.notifier.theme ↔ told = had) := by
  intro plain
  have hrun : plain = program.run (Operation.steady depth) (World.initial theme) :=
    run_of_steady hsteady
  obtain ⟨diary, hnoted, hdiary⟩ := World.noting_script (Operation.noting_steady depth) program
    (World.initial theme) [] .blank
  obtain ⟨hwatched, hkept⟩ := Operation.notedAndWatched_script hsteady hwatch
  rw [← hrun] at hnoted hdiary
  have hplain : program.run (Operation.notedSteady depth) (World.initial theme) =
      (plain.1, plain.2.retrace diary) := hnoted
  rw [hplain] at hwatched hkept
  refine ⟨diary, hdiary, hwatched, fun i id told hid htold => ?_⟩
  obtain ⟨had, hlast⟩ := hdiary.last_told htold
  exact ⟨had, hlast, hkept.upToDate i id hid had told hlast⟩

/-! ## Observers that oppose each other

One observer wants it light, and answers the dark theme with a change. -/

def opposingObservers : Script LimitedBuffer Display :=
  .perform (.subscribe fun theme =>
    if theme = .dark then .perform (.setTheme .light) fun _ => .done else .done) fun _ =>
  .perform (.subscribe fun _ => .done) fun _ =>
  .perform (.setTheme .dark) fun _ => .done

/-- The other observer is told of the light theme and then of the dark one, when the notifier has
the light one again. -/
theorem outdated_theme_is_told_last :
    let w := (opposingObservers.run (Operation.run 3) (World.initial .light)).2
    (opposingObservers.run (Operation.faultless 3) (World.initial .light)).1.isOk = true ∧
      w.subscriptions = [some 1, some 2] ∧ w.notifier.theme = .light ∧
      themesOf 0 w.trace = [.dark, .light] ∧ themesOf 1 w.trace = [.light, .dark] := by
  decide +kernel

open Classical in
/-- Leaves a note if what an observer was told last is not to be explained. -/
noncomputable def noteUnexplained (w : World LimitedBuffer Display) : World LimitedBuffer Display :=
  if w.UpToDate then w else w.record (.note "unexplained".toList)

theorem outdated_theme_is_explained :
    let plain := opposingObservers.run (Operation.run 3) (World.initial .light)
    (opposingObservers.run (Operation.steady 3) (World.initial .light)).1 ≠ .error .tooDeep ∧
      themesOf 1 (opposingObservers.run (Operation.noted 3) (World.initial .light)).2.trace =
        [.light, .light, .light, .dark] ∧
      ∃ diary, Diary plain.2.trace diary ∧
        opposingObservers.run (Operation.notedAndWatched noteUnexplained 3) (World.initial .light) =
          (plain.1, plain.2.retrace diary) ∧
        ∀ i id told, plain.2.subscriptions[i]? = some (some id) →
          (themesOf i plain.2.trace).getLast? = some told →
            ∃ had, [had, told] <:+ themesOf i diary ∧
              (told = plain.2.notifier.theme ↔ told = had) := by
  intro plain
  have hsteady : (opposingObservers.run (Operation.steady 3) (World.initial .light)).1 ≠
      .error .tooDeep := Action.ne_tooDeep_of_isOk (by decide +kernel)
  exact ⟨hsteady, by decide +kernel, told_last_is_current_iff_it_was .light 3 opposingObservers
    hsteady noteUnexplained fun w hw => if_pos hw⟩

end Surface
end QueryView
