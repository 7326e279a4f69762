/-
Surfaces that are behind the theme.

A surface is behind if it is subscribed and in another theme than the notifier.  A turn
leaves no surface behind that was not behind before.  Changing the theme does, and then the
notifier tells all observers that it knows, one after the other.  A surface that is told
takes the theme that the notifier has by then, which need not be the one it is told of, and
is not behind any more.

So what holds between two observers is that only those are behind who are yet to be told,
and it holds whatever the observers do meanwhile: the theme may be changed again, and
subscriptions, surfaces and observers may come and go.  All that is asked is that no change
of the theme is broken off, and then nobody is behind at the end (`setTheme_round`).
-/
import QueryView.Proofs.Surface.Registry

namespace QueryView
namespace Surface
namespace World

variable {E R : Type}

/-- The surface with a number is alive and subscribed, and in another theme than the
notifier. -/
def Behind (w : World E R) (n : Nat) : Prop :=
  ∃ s, w.live? n = some s ∧ s.subscription ≠ none ∧ s.state.theme ≠ w.notifier.theme

/-- No surface outside of `F` is behind. -/
def BehindIn (F : Nat → Prop) (w : World E R) : Prop := ∀ n, w.Behind n → F n

/-- The notifier knows whoever is subscribed, and the runs of every surface are those of its
state. -/
structure Regular (w : World E R) : Prop where
  registered : w.Registered
  runs : ∀ n s, w.live? n = some s → s.runs = s.state.runs

/-- The worlds that a round of telling goes through: regular, and no surface outside of `F`
is behind. -/
def OnlyBehind (F : Nat → Prop) (w : World E R) : Prop := w.Regular ∧ w.BehindIn F

/-- Every surface that is alive and subscribed is in the theme of the notifier, and its runs
are in the colors of that theme. -/
def Follows (w : World E R) : Prop :=
  ∀ n s, w.live? n = some s → s.subscription ≠ none →
    s.state.theme = w.notifier.theme ∧
      s.runs = (Highlighter.mk w.notifier.theme.palette
        (s.state.plainTextColor.getD w.notifier.theme.plainTextColor)).highlight
          s.state.text s.state.language

theorem regular_initial (theme : Theme) : (World.initial theme : World E R).Regular := by
  refine ⟨registered_initial theme, fun n s hs => ?_⟩
  simp [World.initial, live?] at hs

variable {w w' : World E R} {n : Nat} {F G : Nat → Prop}

theorem Regular.still (h : w.Regular) (hstill : Still w w') : w'.Regular := by
  refine ⟨h.registered.still hstill, fun n s' hs' => ?_⟩
  obtain ⟨s, hs, hstate, hruns, -⟩ := hstill.live n s' hs'
  rw [hstate, hruns]
  exact h.runs n s hs

theorem OnlyBehind.still (h : w.OnlyBehind F) (hstill : Still w w') : w'.OnlyBehind F := by
  refine ⟨h.1.still hstill, fun n hn => h.2 n ?_⟩
  obtain ⟨s', hs', hsub, hne⟩ := hn
  obtain ⟨s, hs, hstate, -, hsame⟩ := hstill.live n s' hs'
  rw [hstate, hstill.theme] at hne
  exact ⟨s, hs, hsame ▸ hsub, hne⟩

theorem BehindIn.mono (h : w.BehindIn F) (hFG : ∀ n, F n → G n) : w.BehindIn G :=
  fun n hn => hFG n (h n hn)

/-- If nobody is behind, the surfaces are as they should be. -/
theorem Regular.follows (h : w.Regular) (hnobody : w.BehindIn fun _ => False) : w.Follows := by
  intro n s hs hsub
  have htheme : s.state.theme = w.notifier.theme :=
    Decidable.byContradiction fun hne => hnobody n ⟨s, hs, hsub, hne⟩
  refine ⟨htheme, ?_⟩
  rw [h.runs n s hs, State.runs, State.highlighter, State.effectivePlainTextColor, htheme]

end World

/-! ## What a turn does to a surface -/

namespace World

variable {E R : Type} {w : World E R} {n : Nat}

theorem theme_unsubscribeSurface :
    (w.unsubscribeSurface n).notifier.theme = w.notifier.theme := by
  unfold unsubscribeSurface
  cases (w.live? n).bind Live.subscription <;> rfl

theorem theme_leave : (w.leave n).notifier.theme = w.notifier.theme := by
  unfold leave collect
  split
  · split
    · exact theme_unsubscribeSurface
    · rfl
  · rfl

variable [RenderLayer R]

theorem notifier_changeAndShow {f : State → State} :
    (changeAndShow n f w).2.notifier = w.notifier := by
  rw [changeAndShow_apply, notifier_refresh, changeState, notifier_changeLive]

variable [EditableLayer E]

theorem notifier_applyLayout : (applyLayout n w).2.notifier = w.notifier := by
  cases h : w.live? n with
  | none => rw [applyLayout_of_none h]
  | some s =>
    rw [applyLayout_of_some h, notifier_refresh]
    rfl

theorem theme_create (editable : E) (rendered : R) :
    (create editable rendered w).2.notifier.theme = w.notifier.theme := by
  obtain ⟨f, hcreate⟩ := create_world editable rendered w
  rw [hcreate, theme_leave]
  show (applyLayout w.slots.length
    ((w.withFresh editable rendered).enter w.slots.length)).2.notifier.theme = w.notifier.theme
  rw [notifier_applyLayout]
  rfl

end World

section
variable {E R : Type} [EditableLayer E] [RenderLayer R] {p : Operation E R → Prop}
  {w w' : World E R}

theorem Turn.theme (h : Turn p w w') : w'.notifier.theme = w.notifier.theme := by
  cases h with
  | aside h => exact h.still.theme
  | shown n f w hf => rw [World.notifier_changeAndShow]
  | followed n w => rw [World.followTheme_apply, World.notifier_changeAndShow]
  | laidOut n change w _ => exact congrArg Notifier.theme World.notifier_applyLayout
  | created editable rendered w => exact World.theme_create editable rendered
  | left n w => exact World.theme_leave
  | released n w => exact World.theme_unsubscribeSurface
  | subscribed | unsubscribed | stranded | strandedSurface => rfl

/-- After a turn a surface is in the theme that it was in, or in that of the notifier.  If
its state was changed, it was shown. -/
theorem Turn.live (h : Turn p w w') {n : Nat} {s' : Live E R} (hs' : w'.live? n = some s') :
    (s'.state.theme = w.notifier.theme ∧ s'.runs = s'.state.runs) ∨
      ∃ s, w.live? n = some s ∧ s'.state.theme = s.state.theme ∧
        (s'.state = s.state ∧ s'.runs = s.runs ∨ s'.runs = s'.state.runs) ∧
        (s'.subscription ≠ none → s.subscription ≠ none) := by
  have hsame (hs : w.live? n = some s') : ∃ s, w.live? n = some s ∧
      s'.state.theme = s.state.theme ∧
      (s'.state = s.state ∧ s'.runs = s.runs ∨ s'.runs = s'.state.runs) ∧
      (s'.subscription ≠ none → s.subscription ≠ none) := ⟨s', hs, rfl, .inl ⟨rfl, rfl⟩, id⟩
  cases h with
  | aside h =>
    obtain ⟨s, hs, hstate, hruns, hsub⟩ := h.still.live n s' hs'
    exact .inr ⟨s, hs, by rw [hstate], .inl ⟨hstate, hruns⟩, fun h => hsub ▸ h⟩
  | shown m f w hf =>
    rw [World.live?_changeAndShow] at hs'
    split at hs'
    · obtain ⟨s, hs, rfl⟩ := Option.map_eq_some_iff.mp hs'
      exact .inr ⟨s, hs, hf s.state, .inr rfl, id⟩
    · exact .inr (hsame hs')
  | followed m w =>
    rw [World.followTheme_apply, World.live?_changeAndShow] at hs'
    split at hs'
    · obtain ⟨s, hs, rfl⟩ := Option.map_eq_some_iff.mp hs'
      exact .inl ⟨rfl, rfl⟩
    · exact .inr (hsame hs')
  | laidOut m change w _ =>
    rw [World.live?_applyLayout, World.changeState, World.live?_changeLive] at hs'
    split at hs'
    · obtain ⟨_, hchanged, rfl⟩ := Option.map_eq_some_iff.mp hs'
      obtain ⟨s, hs, rfl⟩ := Option.map_eq_some_iff.mp hchanged
      exact .inr ⟨s, hs, rfl, .inr rfl, id⟩
    · exact .inr (hsame hs')
  | created editable rendered w =>
    rcases World.live?_create hs' with hs | ⟨-, rfl⟩
    · exact .inr (hsame hs)
    · exact .inl ⟨rfl, rfl⟩
  | left m w =>
    rcases World.live?_leave (w := w) (n := m) (m := n) with hleave | hleave
    · exact .inr (hsame (hleave ▸ hs'))
    · rw [hleave] at hs'
      cases hs'
  | released m w =>
    rw [World.live?_unsubscribeSurface] at hs'
    split at hs'
    · obtain ⟨s, hs, rfl⟩ := Option.map_eq_some_iff.mp hs'
      exact .inr ⟨s, hs, rfl, .inl ⟨rfl, rfl⟩, fun h => absurd rfl h⟩
    · exact .inr (hsame hs')
  | subscribed | unsubscribed | stranded => exact .inr (hsame hs')
  | strandedSurface m w _ _ =>
    rcases World.live?_strandSurface_or (w := w) (n := m) (m := n) with hstays | hgone
    · exact .inr (hsame (hstays ▸ hs'))
    · rw [hgone] at hs'
      cases hs'

theorem Turn.regular (h : Turn p w w') (hw : w.Regular) : w'.Regular := by
  refine ⟨h.registered hw.registered, fun n s' hs' => ?_⟩
  -- It was shown in the turn, or is as it was, or was shown with another state.
  rcases h.live hs' with ⟨-, hruns⟩ | ⟨s, hs, -, ⟨hstate, hruns⟩ | hruns, -⟩
  · exact hruns
  · rw [hstate, hruns]
    exact hw.runs n s hs
  · exact hruns

theorem Turn.behind (h : Turn p w w') {n : Nat} (hbehind : w'.Behind n) : w.Behind n := by
  obtain ⟨s', hs', hsub, hne⟩ := hbehind
  rw [h.theme] at hne
  rcases h.live hs' with ⟨htheme, -⟩ | ⟨s, hs, htheme, -, hold⟩
  · exact absurd htheme hne
  · exact ⟨s, hs, hold hsub, htheme ▸ hne⟩

theorem Turn.onlyBehind {F : Nat → Prop} (h : Turn p w w') (hw : w.OnlyBehind F) :
    w'.OnlyBehind F :=
  ⟨h.regular hw.1, fun n hn => hw.2 n (h.behind hn)⟩

end

/-! ## A round of telling -/

namespace World

open Surface.Action

/-- Only those are left behind by a new theme whom the notifier knows. -/
theorem Regular.withTheme {E R : Type} {w : World E R} (h : w.Regular) (theme : Theme) :
    (w.withTheme theme).OnlyBehind fun n => ∃ id, (id, .surface n) ∈ w.notifier.observers := by
  constructor
  · exact ⟨h.registered.withTheme theme, h.runs⟩
  · intro n hn
    obtain ⟨s, hs, hsub, -⟩ := hn
    obtain ⟨id, hid⟩ := Option.ne_none_iff_exists'.mp hsub
    exact ⟨id, h.registered.surfaces n s id hs hid⟩

variable {E R : Type} [RenderLayer R] {w w' : World E R} {m m' : Meaning E R} {theme : Theme}

theorem setTheme_same (h : w.notifier.theme = theme) : setTheme m theme w = (.ok ⟨⟩, w) := by
  rw [setTheme, get_bind_apply, if_pos h]
  rfl

theorem setTheme_of_ne (h : w.notifier.theme ≠ theme) : setTheme m theme w =
    round (fun x => tell m theme x.2) w.notifier.observers (w.withTheme theme) := by
  rw [setTheme, get_bind_apply, if_neg h, bind_apply, modify_apply]
  rfl

theorem not_behind_followTheme {n : Nat} : ¬ (followTheme n w).2.Behind n := by
  intro hbehind
  obtain ⟨s', hs', -, hne⟩ := hbehind
  rw [followTheme_apply, live?_changeAndShow, if_pos rfl] at hs'
  obtain ⟨s, -, rfl⟩ := Option.map_eq_some_iff.mp hs'
  rw [followTheme_apply, notifier_changeAndShow] at hne
  exact hne rfl

variable [EditableLayer E]

theorem walked_onlyBehind {lenient : Prop} :
    Walked lenient (fun _ : Operation E R => True) OnlyBehind :=
  walked_of_still (fun _ _ _ hw h => h.onlyBehind hw) fun _ _ _ hw h => hw.still h

/-- A surface that is told of a theme takes that of the notifier. -/
theorem tell_surface {n : Nat} {F : Nat → Prop} (hw : w.OnlyBehind fun k => k = n ∨ F k)
    (h : tell m theme (.surface n) w = (.ok ⟨⟩, w')) : w'.OnlyBehind F := by
  rw [tell, get_bind_apply] at h
  split at h
  · simp only [holding, bind_apply, modify_apply, andFinally] at h
    have hentered := hw.still (still_changeSlot n (f := fun slot =>
      { slot with guests := slot.guests + 1 }) fun _ => rfl)
    have hfollowed := (Turn.followed (p := fun _ => True) n (w.enter n) trivial).onlyBehind hentered
    have hnot : ¬ (followTheme n (w.enter n)).2.Behind n := not_behind_followTheme
    rcases hfollow : followTheme n (w.enter n) with ⟨_ | shown, followed⟩
    · rw [hfollow] at h
      cases h
    · rw [hfollow] at h hfollowed hnot
      cases h
      have hrest : followed.OnlyBehind F := by
        refine ⟨hfollowed.1, fun k hk => (hfollowed.2 k hk).resolve_left ?_⟩
        rintro rfl
        exact hnot hk
      exact (Turn.left n followed).onlyBehind (p := fun _ => True) hrest
  · next hnone =>
    cases h
    refine ⟨hw.1, fun k hk => (hw.2 k hk).resolve_left ?_⟩
    rintro rfl
    obtain ⟨s, hs, -⟩ := hk
    exact hnone (by rw [hs]; rfl)

/-- Telling the first of those who are to be told leaves only the others behind.  What that
does may be taken from another meaning of operations that matches. -/
theorem tell_first (hm : ∀ op, Matches True OnlyBehind (m op) (m' op)) {x : Nat × Watcher E R}
    {xs : List (Nat × Watcher E R)} (hw : w.OnlyBehind fun n => ∃ id, (id, .surface n) ∈ x :: xs)
    (h : tell m' theme x.2 w = (.ok ⟨⟩, w')) :
    tell m theme x.2 w = (.ok ⟨⟩, w') ∧ w'.OnlyBehind fun n => ∃ id, (id, .surface n) ∈ xs := by
  obtain ⟨id, watcher⟩ := x
  cases watcher with
  | surface n =>
    refine ⟨h, tell_surface (n := n) ⟨hw.1, hw.2.mono fun k hk => ?_⟩ h⟩
    obtain ⟨id', hid'⟩ := hk
    rcases List.mem_cons.mp hid' with heq | hmem
    · exact .inl (Watcher.surface.inj (Prod.mk.inj heq).2)
    · exact .inr ⟨id', hmem⟩
  | observer i body =>
    -- A callback may do anything, but it leaves nobody behind who was not.
    have hdone : True → (tell m' theme (.observer i body) w).1 ≠ .error .tooDeep := by
      rw [h]
      nofun
    obtain ⟨hsame, hkept⟩ := matches_tell (walked_onlyBehind : Walked True _ _).toCarried
      (fun op _ => hm op) (fun _ _ _ hw => ⟨hw.1.still (still_record _), hw.2⟩)
      (fun _ body _ => (body theme).throughout_true) (fun _ _ => .inl trivial) w _ hw hdone
    rw [h] at hsame hkept
    refine ⟨hsame, hkept.1, hkept.2.mono fun k hk => ?_⟩
    obtain ⟨id', hid'⟩ := hk
    rcases List.mem_cons.mp hid' with heq | hmem
    · cases (Prod.mk.inj heq).2
    · exact ⟨id', hmem⟩

/-- What a callback owns is dropped after it was called, and that leaves nobody behind. -/
theorem tell_letGo_first (hm : ∀ op, Matches True OnlyBehind (m op) (m' op))
    {x : Nat × Watcher E R} {xs : List (Nat × Watcher E R)}
    (hw : w.OnlyBehind fun n => ∃ id, (id, .surface n) ∈ x :: xs)
    (h : (tell m' theme x.2 >>= fun _ => letGo x) w = (.ok ⟨⟩, w')) :
    (tell m theme x.2 >>= fun _ => letGo x) w = (.ok ⟨⟩, w') ∧
      w'.OnlyBehind fun n => ∃ id, (id, .surface n) ∈ xs := by
  obtain ⟨⟨⟩, told, htold, hgone⟩ := exists_of_bind_ok h
  obtain ⟨hsame, hleft⟩ := tell_first hm hw htold
  have hdone : True → (letGo x told).1 ≠ .error .tooDeep := by
    rw [hgone]
    nofun
  have hlet := matches_letGo (walked_onlyBehind : Walked True _ _).toCarried x told _ hleft hdone
  rw [hgone] at hlet
  rw [bind_apply, hsame]
  exact ⟨hgone, hlet.2⟩

/-- After a round nobody is behind, if only those were that are told. -/
theorem callInTurn_tell (hm : ∀ op, Matches True OnlyBehind (m op) (m' op))
    (xs : List (Nat × Watcher E R)) (hw : w.OnlyBehind fun n => ∃ id, (id, .surface n) ∈ xs)
    (h : callInTurn (fun x => tell m' theme x.2) xs w = (.ok ⟨⟩, w')) :
    callInTurn (fun x => tell m theme x.2) xs w = (.ok ⟨⟩, w') ∧
      w'.OnlyBehind fun _ => False := by
  induction xs generalizing w with
  | nil =>
    cases h
    refine ⟨rfl, hw.1, fun n hn => ?_⟩
    obtain ⟨id, hid⟩ := hw.2 n hn
    exact absurd hid List.not_mem_nil
  | cons x xs ih =>
    -- Who is left behind after the first is told is among those who come later.
    obtain ⟨⟨⟩, told, htold, hrest⟩ := exists_of_bind_ok h
    obtain ⟨hsame, hleft⟩ := tell_letGo_first hm hw htold
    obtain ⟨hround, hnobody⟩ := ih hleft hrest
    refine ⟨?_, hnobody⟩
    rw [callInTurn_cons, bind_apply, hsame]
    exact hround

/-- A change of the theme that comes to its end leaves nobody behind. -/
theorem setTheme_round (hm : ∀ op, Matches True OnlyBehind (m op) (m' op)) (hw : w.Regular)
    (hne : w.notifier.theme ≠ theme) (h : setTheme m' theme w = (.ok ⟨⟩, w')) :
    setTheme m theme w = (.ok ⟨⟩, w') ∧ w'.OnlyBehind fun _ => False := by
  rw [setTheme_of_ne hne] at h ⊢
  have hbegun : ((w.withTheme theme).beginRound w.notifier.observers).OnlyBehind fun n =>
      ∃ id, (id, .surface n) ∈ w.notifier.observers :=
    (hw.withTheme theme).still (still_keep _ _)
  obtain ⟨told, htold, rfl⟩ := exists_of_round_ok h
  obtain ⟨hsame, hnobody⟩ := callInTurn_tell hm w.notifier.observers hbegun htold
  exact ⟨round_of_ok hsame, hnobody.still (still_keep _ _)⟩

end World

end Surface
end QueryView
