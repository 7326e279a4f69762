/-
Settings in another order.

The theorem of this module, `order_of_settings_makes_no_difference`, is about a surface whose
editable layer is a buffer and whose render layer is a screen with a sink that takes
everything.  Two lists of settings, of changes of the theme among them, leave it the same
if they are permutations of each other that keep the order on every field: the same state, the
same runs, the same text and layout in the buffer, and the same layout and frame on the screen.

What one setting makes of the appearance of the surface is `Appearance.adjust`
(`Adjustable.run`), so the theorem is the one about reordered folds.  Other surfaces may share
the notifier.  They are told of a theme before or after this one, and a screen may fail but does
not panic, so a round of telling always comes to its end.
-/
import QueryView.Proofs.Surface.Appearance
import QueryView.Proofs.Surface.CatchUp
import QueryView.Proofs.Surface.Deferred

namespace QueryView

open Terminal (Screen)

namespace Surface

/-- What stands for a surface in the list of a notifier. -/
def Watcher.isSurface {E R : Type} (n : Nat) : Watcher E R → Bool
  | .surface m => m == n
  | .observer _ _ => false

def Notifier.tells {E R : Type} (notifier : Notifier E R) (n : Nat) : Bool :=
  notifier.observers.any fun o => o.2.isSurface n

/-! ## Screens that take everything -/

theorem render_of_unlimited {screen : Screen} (h : screen.Unlimited) (runs : RunSequence) :
    RenderLayer.render screen runs =
      ((screen.showing runs).having (screen.offer (.render runs)), .shown) := by
  have hrender : screen.render runs =
      (.ok (), (screen.showing runs).having (screen.offer (.render runs))) :=
    Screen.perform_of_unlimited h (.render runs)
  show ((screen.render runs).2, Rendering.ofResult (screen.render runs).1) = _
  rw [hrender]
  rfl

namespace World

open Surface.Action

variable {w w' : World Buffer Screen} {n m : Nat} {s : Live Buffer Screen}

/-- A screen may fail but does not panic. -/
theorem exists_followTheme_eq (w : World Buffer Screen) (m : Nat) :
    ∃ shown, followTheme m w = (.ok shown, (followTheme m w).2) := by
  rw [followTheme_apply, changeAndShow_apply]
  exact exists_refresh_eq_of_outcome fun s _ reason => Rendering.ofResult_ne_panicked _ reason

/-- A surface that the embedder has a handle to outlives its guests. -/
theorem leave_of_handles {E R : Type} {w : World E R} (h : w.handles m ≠ 0) :
    w.leave m = w.changeSlot m fun slot => { slot with guests := slot.guests - 1 } := by
  have hkept : (w.changeSlot m fun slot => { slot with guests := slot.guests - 1 }).handles m =
      w.handles m := handles_changeSlot fun _ => rfl
  exact collect_of_held (held_of_handles (hkept ▸ h))

/-! ## Surfaces that can be adjusted -/

def appearance (w : World Buffer Screen) (n : Nat) (s : Live Buffer Screen) : Appearance where
  theme := w.notifier.theme
  subscribed := w.notifier.tells n
  state := s.state
  runs := s.runs
  editable := s.editable
  rendered := s.rendered.fresh none

/-- The surface is alive, its screen takes everything, nobody but itself hears of its edits,
and nobody but surfaces hears of the theme. -/
structure Adjustable (w : World Buffer Screen) (n : Nat) (s : Live Buffer Screen) : Prop where
  live : w.live? n = some s
  unlimited : s.rendered.Unlimited
  wired : w.WiredAt n
  notifierHeld : w.notifier.held = true
  watchers : ∀ o ∈ w.notifier.observers, ∃ m, o.2 = .surface m
  handled : ∀ m, (w.live? m).isSome → w.handles m ≠ 0

namespace Adjustable

variable {p : Appearance}

theorem handles (h : w.Adjustable n s) : w.handles n ≠ 0 := h.handled n (by rw [h.live]; rfl)

theorem changeLive (h : w.Adjustable n s) {f : Live Buffer Screen → Live Buffer Screen}
    (hf : (f s).rendered.Unlimited) : (w.changeLive n f).Adjustable n (f s) where
  live := by rw [live?_changeLive, if_pos rfl, h.live, Option.map_some]
  unlimited := hf
  wired := wiredAt_changeLive h.wired f
  notifierHeld := h.notifierHeld
  watchers := h.watchers
  handled m hm := by
    rw [handles_changeLive]
    refine h.handled m ?_
    rw [live?_changeLive] at hm
    split at hm
    · rwa [Option.isSome_map] at hm
    · exact hm

theorem record (h : w.Adjustable n s) (e : Event) : (w.record e).Adjustable n s := { h with }

theorem changeSlot (h : w.Adjustable n s) {f : Slot Buffer Screen → Slot Buffer Screen}
    (hlive : ∀ slot, (f slot).live = slot.live) (hhook : ∀ slot, (f slot).hook = slot.hook)
    (hhandles : ∀ slot, (f slot).handles = slot.handles) : (w.changeSlot m f).Adjustable n s where
  live := (live?_changeSlot_of_live hlive).trans h.live
  unlimited := h.unlimited
  wired handler hh := h.wired handler (hook?_changeSlot_of_hook hhook ▸ hh)
  notifierHeld := h.notifierHeld
  watchers := h.watchers
  handled k hk := by
    rw [live?_changeSlot_of_live hlive] at hk
    rw [handles_changeSlot hhandles]
    exact h.handled k hk

theorem enter (h : w.Adjustable n s) : (w.enter m).Adjustable n s :=
  h.changeSlot (fun _ => rfl) (fun _ => rfl) fun _ => rfl

theorem leave (h : w.Adjustable n s) (hm : w.handles m ≠ 0) :
    (w.leave m).Adjustable n s ∧ (w.leave m).appearance n s = w.appearance n s := by
  rw [leave_of_handles hm]
  exact ⟨h.changeSlot (fun _ => rfl) (fun _ => rfl) fun _ => rfl, rfl⟩

/-- Another surface that takes the theme is no concern of this one. -/
theorem followTheme_of_ne (h : w.Adjustable n s) (hne : m ≠ n) :
    (followTheme m w).2.Adjustable n s ∧
      (followTheme m w).2.appearance n s = w.appearance n s := by
  have hnotifier : (World.followTheme m w).2.notifier = w.notifier := by
    rw [followTheme_apply, notifier_changeAndShow]
  refine ⟨⟨?_, h.unlimited, ?_, ?_, ?_, ?_⟩, ?_⟩
  · rw [followTheme_apply, live?_changeAndShow, if_neg hne, h.live]
  · intro handler hh
    rw [followTheme_apply, changeAndShow_apply, hook?_refresh, changeState, hook?_changeLive] at hh
    exact h.wired handler hh
  · rw [hnotifier, h.notifierHeld]
  · rw [hnotifier]
    exact h.watchers
  · intro k hk
    rw [followTheme_apply, live?_changeAndShow] at hk
    rw [followTheme_apply, handles_changeAndShow]
    refine h.handled k ?_
    split at hk
    · rwa [Option.isSome_map] at hk
    · exact hk
  · rw [appearance, hnotifier]
    rfl

/-- A surface that is shown succeeds, and shows the runs of its state. -/
theorem refresh (h : w.Adjustable n s) :
    ∃ w' s', refresh n w = (.ok (.ok ()), w') ∧ w'.Adjustable n s' ∧
      w'.appearance n s' = (w.appearance n s).shown := by
  have hrender := render_of_unlimited h.unlimited s.state.runs
  have hshown := refresh_of_shown h.live (congrArg Prod.snd hrender)
  rw [refresh_world h.live, hrender] at hshown
  exact ⟨_, _, hshown, (h.changeLive ⟨h.unlimited.limit, h.unlimited.flush⟩).record _, rfl⟩

/-! ## A round of telling -/

variable (meaning : Meaning Buffer Screen)

theorem followTheme (h : w.Adjustable n s) :
    ∃ w' s', followTheme n w = (.ok (.ok ()), w') ∧ w'.Adjustable n s' ∧
      w'.appearance n s' = (w.appearance n s).followed := by
  rw [followTheme_apply, changeAndShow_apply]
  exact (h.changeLive (f := fun s => { s with state := { s.state with theme := w.notifier.theme } })
    h.unlimited).refresh

/-- Whoever is told of the theme, the others do not notice. -/
theorem tell (h : w.Adjustable n s) (theme : Theme) (m : Nat) :
    ∃ w' s', tell meaning theme (.surface m) w = (.ok ⟨⟩, w') ∧ w'.Adjustable n s' ∧
      w'.appearance n s' =
        if m = n then (w.appearance n s).followed else w.appearance n s := by
  by_cases hm : (w.live? m).isSome
  · have htell (shown : Except Failure Unit) (w₁ : World Buffer Screen)
        (hfollow : World.followTheme m (w.enter m) = (.ok shown, w₁)) :
        World.tell meaning theme (.surface m) w = (.ok ⟨⟩, w₁.leave m) := by
      rw [World.tell, get_bind_apply, if_pos hm, holding, bind_apply, modify_apply]
      simp only [andFinally, bind_apply, hfollow]
      rfl
    by_cases hmn : m = n
    · subst hmn
      obtain ⟨w₁, s', hfollow, hadjustable, hfollowed⟩ := (h.enter (m := m)).followTheme
      obtain ⟨hleft, hsame⟩ := hadjustable.leave hadjustable.handles
      exact ⟨_, s', htell _ _ hfollow, hleft, by rw [hsame, hfollowed, if_pos rfl]; rfl⟩
    · obtain ⟨shown, hfollow⟩ := exists_followTheme_eq (w.enter m) m
      have hhandles : (World.followTheme m (w.enter m)).2.handles m ≠ 0 := by
        rw [followTheme_apply, handles_changeAndShow, handles_enter]
        exact h.handled m hm
      obtain ⟨hadjustable, hunnoticed⟩ := (h.enter (m := m)).followTheme_of_ne hmn
      obtain ⟨hleft, hsame⟩ := hadjustable.leave hhandles
      exact ⟨_, s, htell _ _ hfollow, hleft, by rw [hsame, hunnoticed, if_neg hmn]; rfl⟩
  · have hmn : m ≠ n := by
      rintro rfl
      exact hm (by rw [h.live]; rfl)
    refine ⟨w, s, ?_, h, (if_neg hmn).symm⟩
    rw [World.tell, get_bind_apply, if_neg hm]
    rfl

theorem keep (h : w.Adjustable n s) (belongings : List (Nat × Belonging))
    (rounds : List (List (Nat × Watcher Buffer Screen))) :
    { w with belongings, rounds }.Adjustable n s := { h with }

theorem callInTurn (h : w.Adjustable n s) (theme : Theme)
    {observers : List (Nat × Watcher Buffer Screen)}
    (hsurfaces : ∀ o ∈ observers, ∃ m, o.2 = .surface m) :
    ∃ w' s', World.callInTurn (fun o => World.tell meaning theme o.2) observers w =
        (.ok ⟨⟩, w') ∧
      w'.Adjustable n s' ∧
      w'.appearance n s' =
        if observers.any fun o => o.2.isSurface n then (w.appearance n s).followed
        else w.appearance n s := by
  induction observers generalizing w s with
  | nil => exact ⟨w, s, rfl, h, rfl⟩
  | cons o observers ih =>
    obtain ⟨⟨m, hm⟩, hrest⟩ := List.forall_mem_cons.mp hsurfaces
    obtain ⟨w₁, s₁, htell, hadjustable, hfirst⟩ := h.tell meaning theme m
    have hgone : letGo o w₁ = (.ok ⟨⟩, w₁.finishFirst) := by
      rw [letGo, hm]
      rfl
    have hkept : w₁.finishFirst.Adjustable n s₁ := hadjustable.keep _ _
    obtain ⟨w', s', hround, hdone, hlast⟩ := ih hkept hrest
    refine ⟨w', s', ?_, hdone, ?_⟩
    · rw [callInTurn_cons, bind_apply, bind_apply, hm, htell]
      dsimp only
      rw [hgone]
      exact hround
    · have hfinished : w₁.finishFirst.appearance n s₁ = w₁.appearance n s₁ := rfl
      rw [hlast, hfinished, hfirst, List.any_cons, hm, Watcher.isSurface]
      by_cases hmn : m = n
      · rw [hmn, beq_self_eq_true, Bool.true_or, if_pos rfl, if_pos rfl,
          Appearance.followed_followed, ite_self]
      · rw [beq_eq_false_iff_ne.mpr hmn, Bool.false_or, if_neg hmn]

theorem withTheme (h : w.Adjustable n s) (theme : Theme) :
    (w.withTheme theme).Adjustable n s := { h with }

/-- A change of the theme is a success, and adjusts the surface if it is subscribed. -/
theorem setTheme (h : w.Adjustable n s) (theme : Theme) :
    ∃ w' s', World.setTheme meaning theme w = (.ok ⟨⟩, w') ∧ w'.Adjustable n s' ∧
      w'.appearance n s' = (w.appearance n s).adjust (.theme theme) := by
  by_cases hsame : w.notifier.theme = theme
  · exact ⟨w, s, setTheme_same hsame, h, (if_pos hsame).symm⟩
  · have hbegun : ((w.withTheme theme).beginRound w.notifier.observers).Adjustable n s :=
      (h.withTheme theme).keep _ _
    obtain ⟨w', s', hround, hadjustable, htold⟩ := hbegun.callInTurn meaning theme h.watchers
    refine ⟨w'.endRound, s', (setTheme_of_ne hsame).trans (round_of_ok hround),
      hadjustable.keep _ _, htold.trans ?_⟩
    exact (if_neg hsame).symm

/-! ## Settings of the surface -/

/-- A surface that is given the layout of its state, and is shown, succeeds. -/
theorem applyLayout (h : w.Adjustable n s) :
    ∃ w' s', applyLayout n w = (.ok (.ok ()), w') ∧ w'.Adjustable n s' ∧
      w'.appearance n s' = (w.appearance n s).laidOut.shown := by
  rw [applyLayout_of_some h.live]
  have hlaid : (w.layOut n s.state.layout).Adjustable n (laying s.state.layout s) :=
    (((h.changeLive h.unlimited).record _).changeLive
      ⟨h.unlimited.limit, h.unlimited.flush⟩).record _
  exact hlaid.refresh

theorem answer (h : w.Adjustable n s) (setting : Setting) :
    ∃ w' s', answer meaning n setting.request w = (.ok .done, w') ∧ w'.Adjustable n s' ∧
      w'.appearance n s' = (w.appearance n s).set setting := by
  have hshow (f : State → State) : ∃ w' s', changeAndShow n f w = (.ok (.ok ()), w') ∧
      w'.Adjustable n s' ∧
      w'.appearance n s' =
        { w.appearance n s with state := f (w.appearance n s).state }.shown := by
    rw [changeAndShow_apply]
    exact (h.changeLive (f := fun s => { s with state := f s.state }) h.unlimited).refresh
  cases setting with
  | text t =>
    have hwritten : (w.changeLive n (writing fun e => EditableLayer.write e t)).Adjustable n
        (writing (fun e => EditableLayer.write e t) s) := h.changeLive h.unlimited
    obtain ⟨w', s', hshown, hadjustable, hset⟩ := (hwritten.changeLive
      (f := fun s => { s with state := { s.state with text := t } }) h.unlimited).refresh
    refine ⟨w', s', replyOf_of_shown ?_, hadjustable, hset⟩
    rw [setText_apply h.wired (held_of_handles h.handles), changeAndShow_apply]
    exact hshown
  | language l =>
    obtain ⟨w', s', hshown, hset⟩ := hshow fun s => { s with language := l }
    exact ⟨w', s', replyOf_of_shown hshown, hset⟩
  | plainTextColor c =>
    obtain ⟨w', s', hshown, hset⟩ := hshow fun s => { s with plainTextColor := c }
    exact ⟨w', s', replyOf_of_shown hshown, hset⟩
  | layout change =>
    obtain ⟨w', s', hshown, hset⟩ := (h.changeLive
      (f := fun s => { s with state := { s.state with layout := change.apply s.state.layout } })
      h.unlimited).applyLayout
    refine ⟨w', s', ?_, hset⟩
    rw [Setting.request, World.answer, bind_apply, modify_apply]
    exact replyOf_of_shown hshown

/-! ## Runs of settings -/

/-- An adjustment succeeds, and has its effect on the appearance. -/
theorem run (h : w.Adjustable n s) (depth : Nat) (adjustment : Adjustment) :
    ∃ w' s', Operation.run (depth + 1) (adjustment.operation n) w = (.ok .done, w') ∧
      w'.Adjustable n s' ∧ w'.appearance n s' = (w.appearance n s).adjust adjustment := by
  cases adjustment with
  | theme t =>
    obtain ⟨w', s', hset, hadjustable⟩ := h.setTheme (Operation.run depth) t
    refine ⟨w', s', ?_, hadjustable⟩
    show Operation.step (Operation.run depth) (.setTheme t) w = _
    rw [Operation.step_setTheme_of_held h.notifierHeld, bind_apply, hset]
    rfl
  | setting setting =>
    obtain ⟨w', s', hanswer, hadjustable, hset⟩ :=
      (h.enter (m := n)).answer (Operation.run depth) setting
    obtain ⟨hleft, hsame⟩ := hadjustable.leave hadjustable.handles
    exact ⟨w'.leave n, s', run_on_of_answer h.handles hanswer, hleft, hsame.trans hset⟩

theorem runInTurn (h : w.Adjustable n s) (depth : Nat) (adjustments : List Adjustment) :
    ∃ w' s', Operation.runInTurn (depth + 1) (adjustments.map (Adjustment.operation n)) w =
        (.ok (.ok ()), w') ∧
      w'.Adjustable n s' ∧
      w'.appearance n s' = adjustments.foldl Appearance.adjust (w.appearance n s) := by
  induction adjustments generalizing w s with
  | nil => exact ⟨w, s, rfl, h, rfl⟩
  | cons adjustment adjustments ih =>
    obtain ⟨w₁, s₁, hfirst, hadjustable, hadjusted⟩ := h.run depth adjustment
    obtain ⟨w', s', hrest, hdone, hall⟩ := ih hadjustable
    refine ⟨w', s', (Operation.runInTurn_cons hfirst nofun _).trans hrest, hdone, ?_⟩
    rw [hall, hadjusted, List.foldl_cons]

end Adjustable

/-! ## The first surface of a world -/

section
variable {E R : Type} [EditableLayer E] [RenderLayer R] {w w' : World E R} {editable : E}
  {rendered shown : R}

/-- A surface that could be laid out and shown stays, and the embedder has a handle to it. -/
theorem create_of_shown (h : applyLayout w.slots.length
      ((w.withFresh editable rendered).enter w.slots.length) = (.ok (.ok ()), w')) :
    create editable rendered w = (.ok (.created w.slots.length),
      (w'.changeSlot w.slots.length fun slot => { slot with handles := 1 }).leave
        w.slots.length) := by
  rw [create, get_bind_apply, bind_apply, modify_apply]
  show Action.holding w.slots.length _ (w.withFresh editable rendered) = _
  rw [holding, bind_apply, modify_apply]
  simp only [andFinally, bind_apply, h]
  rfl

theorem create_first (editable : E) (theme : Theme)
    (hrender : RenderLayer.render (RenderLayer.applyLayout rendered Layout.standard)
      (State.initial theme).runs = (shown, .shown)) :
    ∃ w s, create editable rendered (World.initial theme) = (.ok (.created 0), w) ∧
      w.slots = [{ live := some s, handles := 1, guests := 0, hook := none }] ∧
      w.notifier = { theme, observers := [(1, .surface 0)], nextId := 2, held := true } ∧
      s.rendered = shown := by
  have hlive : (((World.initial theme).withFresh editable rendered).enter 0).live? 0 =
      some ((World.initial theme).fresh editable rendered) := rfl
  have happly := (applyLayout_of_some hlive).trans
    (refresh_of_shown rfl (congrArg Prod.snd hrender))
  rw [refresh_world rfl] at happly
  exact ⟨_, _, create_of_shown happly, rfl, rfl, congrArg Prod.fst hrender⟩

end

theorem adjustable_of_slots {k guests id : Nat}
    (hslots : w.slots =
      [{ live := some s, handles := k + 1, guests, hook := some (.edits 0) }])
    (hnotifier : w.notifier.held = true) (hwatchers : w.notifier.observers = [(id, .surface 0)])
    (hsink : s.rendered.Unlimited) : w.Adjustable 0 s where
  live := live?_of_slots hslots
  unlimited := hsink
  wired handler hh := by
    rw [hook?, hslots] at hh
    exact (Option.some.inj hh).symm
  notifierHeld := hnotifier
  watchers o ho := by
    rw [hwatchers, List.mem_singleton] at ho
    exact ⟨0, by rw [ho]⟩
  handled m hm := by
    cases m with
    | zero => simp [World.handles, hslots]
    | succ m => simp [live?, hslots] at hm

/-- The first surface, with its own edits connected to it, can be adjusted. -/
theorem exists_adjustable (theme : Theme) (buffer : Buffer) {screen : Screen} (h : screen.Unlimited)
    (depth : Nat) :
    ∃ w s, Operation.runInTurn (depth + 1)
        [.create buffer screen, .on 0 (.connect (.edits 0))] (World.initial theme) =
          (.ok (.ok ()), w) ∧
      w.Adjustable 0 s := by
  have hlaid : (screen.applyLayout Layout.standard).Unlimited := ⟨h.limit, h.flush⟩
  have hrender := render_of_unlimited hlaid (State.initial theme).runs
  obtain ⟨⟨slots, notifier, subscriptions, trace⟩, s, hcreate, hslots, hnotifier, hrendered⟩ :=
    create_first buffer theme hrender
  cases hslots
  cases hnotifier
  have hrun : Operation.run (depth + 1) (.create buffer screen) (World.initial theme) = _ := hcreate
  refine ⟨_, s, Operation.runInTurn_cons hrun nofun _, adjustable_of_slots rfl rfl rfl ?_⟩
  rw [hrendered]
  exact ⟨h.limit, h.flush⟩

/-! ## The order of settings -/

/-- Settings and changes of the theme can be made in any order that is the same on every
field. -/
theorem order_of_settings_makes_no_difference (h : w.Adjustable n s)
    {adjustments others : List Adjustment}
    (hreordered : Reordered Adjustment.fields adjustments others) (depth : Nat) :
    ∃ w₁ s₁ w₂ s₂,
      Operation.runInTurn (depth + 1) (adjustments.map (Adjustment.operation n)) w =
        (.ok (.ok ()), w₁) ∧
      Operation.runInTurn (depth + 1) (others.map (Adjustment.operation n)) w =
        (.ok (.ok ()), w₂) ∧
      w₁.live? n = some s₁ ∧ w₂.live? n = some s₂ ∧
      w₁.notifier.theme = w₂.notifier.theme ∧
      s₁.state = s₂.state ∧ s₁.runs = s₂.runs ∧
      s₁.editable.text = s₂.editable.text ∧ s₁.editable.layout = s₂.editable.layout ∧
      s₁.rendered.layout = s₂.rendered.layout ∧ s₁.rendered.frame = s₂.rendered.frame := by
  obtain ⟨w₁, s₁, hrun₁, hadjustable₁, happearance₁⟩ := h.runInTurn depth adjustments
  obtain ⟨w₂, s₂, hrun₂, hadjustable₂, happearance₂⟩ := h.runInTurn depth others
  have hsame : w₁.appearance n s₁ = w₂.appearance n s₂ := by
    rw [happearance₁, happearance₂]
    exact hreordered.foldl_eq (fun a b => Appearance.adjust_comm) _
  have hpart {α : Type} (part : Appearance → α) :
      part (w₁.appearance n s₁) = part (w₂.appearance n s₂) := congrArg part hsame
  exact ⟨w₁, s₁, w₂, s₂, hrun₁, hrun₂, hadjustable₁.live, hadjustable₂.live,
    hpart Appearance.theme, hpart Appearance.state, hpart Appearance.runs,
    hpart fun p => p.editable.text, hpart fun p => p.editable.layout,
    hpart fun p => p.rendered.layout, hpart fun p => p.rendered.frame⟩

/-- A text that is read-only before it is set, under a theme that is set before or after both. -/
theorem theme_before_or_after : ∃ w s w₁ s₁ w₂ s₂,
    Operation.runInTurn 1 [.create {} {}, .on 0 (.connect (.edits 0))] (World.initial .light) =
      (.ok (.ok ()), w) ∧
    w.Adjustable 0 s ∧
    Operation.runInTurn 1 [.setTheme .dark, .on 0 (.changeLayout (.readOnly true)),
      .on 0 (.setText "[1]".toList)] w = (.ok (.ok ()), w₁) ∧
    Operation.runInTurn 1 [.on 0 (.setText "[1]".toList), .on 0 (.changeLayout (.readOnly true)),
      .setTheme .dark] w = (.ok (.ok ()), w₂) ∧
    w₁.live? 0 = some s₁ ∧ w₂.live? 0 = some s₂ ∧ s₁.runs = s₂.runs ∧
    s₁.rendered.frame = s₂.rendered.frame := by
  have hsink : ({} : Screen).Unlimited := ⟨rfl, rfl⟩
  obtain ⟨w, s, hrun, hadjustable⟩ := exists_adjustable .light {} hsink 0
  have hreordered : Reordered Adjustment.fields
      [.theme .dark, .setting (.layout (.readOnly true)), .setting (.text "[1]".toList)]
      [.setting (.text "[1]".toList), .setting (.layout (.readOnly true)), .theme .dark] :=
    ⟨(List.reverse_perm _).symm, fun x => by cases x <;> rfl⟩
  obtain ⟨w₁, s₁, w₂, s₂, hrun₁, hrun₂, hs₁, hs₂, -, -, hruns, -, -, -, hframe⟩ :=
    order_of_settings_makes_no_difference hadjustable hreordered 0
  exact ⟨w, s, w₁, s₁, w₂, s₂, hrun, hadjustable, hrun₁, hrun₂, hs₁, hs₂, hruns, hframe⟩

end World
end Surface
end QueryView
