/-
What a change of the theme calls.

A change to another theme tells everybody who is on the list when it begins.  Callbacks that are
told may do a lot meanwhile: they may take up subscriptions of their own, and give these back,
and create surfaces and write them.  As long as they do not panic, do not ask for a theme and
leave those alone who are yet to be told, everybody is called exactly once, in the order of
subscription and with the new theme (`World.Announces`).

The trace shows this: what is added to it falls into one piece for each watcher, which begins
with the call and has no other call of an observer in it (`Watcher.CalledIn`).  The reason for
the second half is that observers are called by changes of the theme only, so that the part of
the trace in which nobody asks for a theme has no call in it (`Turn.uncalled`).  A surface that
was destroyed and is stranded on the list has no piece, since there is nothing to show.

That nobody is called twice needs that nobody is on the list twice, and that it is everybody
who is called needs that nobody is missing from it.  The main theorem, `rounds_are_in_order`,
therefore has both, for all worlds in which operations of a run begin or end.  The list has
nobody on it who should not be there unless something was handed over to a callback.  If a
callback owns a subscription, the list may keep somebody whose subscription has ended, and calls
it for good (`owned_subscription_outlives_its_end`).
-/
import Mathlib.Data.List.Forall2
import QueryView.Proofs.Surface.CatchUp
import QueryView.Proofs.Surface.Census

namespace QueryView
namespace Surface

variable {E R : Type}

/-! ## Worlds that are in order -/

namespace World

/-- The notifier knows exactly those who hold a subscription and those who are stranded, each
once and by numbers that increase. -/
structure Accounted (w : World E R) : Prop where
  registered : w.Registered
  listed : w.Listed
  increasing : w.Increasing
  distinct : (w.notifier.observers.map Prod.snd).Nodup
  strandedOnce : w.StrandedOnce

/-- The subscriptions of the embedder that have not ended, and the surfaces that are alive and
have theirs. -/
def countSubscribed (w : World E R) : Nat :=
  w.subscriptions.countP Option.isSome +
    w.slots.countP fun slot => (slot.live.bind Live.subscription).isSome

/-- The observers of the notifier are as many as there are subscriptions of the embedder and
surfaces that have theirs, and besides these there are those who are stranded.  They are all
different, and their numbers increase. -/
structure InOrder (w : World E R) : Prop where
  increasing : w.Increasing
  distinct : (w.notifier.observers.map Prod.snd).Nodup
  count : w.notifier.observers.length = w.countSubscribed + w.stranded.length

variable {w w' : World E R}

/-- There is somebody to be called: an observer, or a surface that is alive. -/
def isThere (w : World E R) : Watcher E R → Bool
  | .surface n => (w.live? n).isSome
  | .observer _ _ => true

/-- Those whom a change of the theme is to call, in the order of subscription. -/
def listeners (w : World E R) : List (Watcher E R) :=
  (w.notifier.observers.map Prod.snd).filter w.isThere

theorem Holds.isThere {id : Nat} {watcher : Watcher E R} (h : w.Holds id watcher) :
    w.isThere watcher = true := by
  cases watcher with
  | surface n =>
    obtain ⟨s, hs, -⟩ := Option.bind_eq_some_iff.mp h
    rw [World.isThere, hs]
    rfl
  | observer i body => rfl

/-- Whoever is gone is there as much as before. -/
theorem Gone.isThere_eq {watcher : Watcher E R} (h : w.Gone watcher) (h' : w'.Gone watcher) :
    w'.isThere watcher = w.isThere watcher := by
  cases watcher with
  | surface n => rw [World.isThere, World.isThere, h.2, h'.2]
  | observer i body => rfl

/-- Everybody on the list is called if nobody is stranded. -/
theorem Listed.listeners_eq (h : w.Listed) (hstranded : w.stranded = []) :
    w.listeners = w.notifier.observers.map Prod.snd := by
  refine List.filter_eq_self.mpr fun watcher hmem => ?_
  obtain ⟨⟨id, _⟩, hlist, rfl⟩ := List.mem_map.mp hmem
  rcases h id _ hlist with hholds | ⟨hid, -⟩
  · exact hholds.isThere
  · rw [hstranded] at hid
    exact absurd hid List.not_mem_nil

/-- Nobody is on the list whose subscription has ended, and everybody on it is called. -/
structure NobodyLeftOver (w : World E R) : Prop where
  count : w.notifier.observers.length = w.countSubscribed
  listeners : w.listeners = w.notifier.observers.map Prod.snd

theorem Accounted.inOrder (h : w.Accounted) : w.InOrder :=
  ⟨h.increasing, h.distinct,
    length_observers h.registered h.listed h.increasing h.strandedOnce⟩

theorem Accounted.nobodyLeftOver (h : w.Accounted) (hstranded : w.stranded = []) :
    w.NobodyLeftOver := by
  refine ⟨?_, h.listed.listeners_eq hstranded⟩
  rw [h.inOrder.count, hstranded]
  rfl

theorem accounted_initial (theme : Theme) : (World.initial theme : World E R).Accounted :=
  ⟨registered_initial theme, listed_initial theme, increasing_initial theme, .nil,
    strandedOnce_initial theme⟩

theorem themed_accounted (theme : Theme) :
    Themed (fun (_ : Unit) (w : World E R) => w.Accounted) theme where
  withTheme := fun _ _ hw =>
    ⟨hw.registered.withTheme theme, hw.listed, hw.increasing, hw.distinct,
      hw.strandedOnce.withTheme theme⟩
  called := fun _ _ _ hw =>
    ⟨hw.registered.still (still_record _), hw.listed, hw.increasing, hw.distinct,
      hw.strandedOnce.record _⟩

theorem Accounted.setSuppressing (h : w.Accounted) (n : Nat) (on : Bool) :
    (w.setSuppressing n on).Accounted :=
  ⟨h.registered.changeLive fun _ => rfl, h.listed.setSuppressing n on, h.increasing, h.distinct,
    h.strandedOnce.setSuppressing n on⟩

end World

section
variable [EditableLayer E] [RenderLayer R]

theorem Turn.accounted {p : Operation E R → Prop} {w w' : World E R} (h : Turn p w w')
    (hw : w.Accounted) : w'.Accounted :=
  ⟨h.registered hw.registered, h.listed hw.listed, hw.increasing.listStep hw.registered h.list,
    World.nodup_watchers hw.distinct hw.listed h.list,
    h.strandedOnce hw.strandedOnce hw.registered⟩

theorem World.walked_accounted : Walked False (fun _ : Operation E R => True)
    fun (_ : Unit) (w : World E R) => w.Accounted where
  stores := fun _ w _ => w.stores_true
  turn := fun _ _ _ hw h => h.accounted hw
  write := fun {_} n {_ _} h => Action.matches_suppressing h fun _ _ on hw =>
    hw.setSuppressing n on

theorem World.walked_accounted_unowned : Walked False Operation.HandsNothingOver
    fun (_ : Unit) (w : World E R) => w.Accounted ∧ w.Unowned where
  stores := fun _ _ hw => hw.2.stores
  owned := fun i w hw => walked_unowned.owned i w hw.2
  tells := tells_of_follows fun _ => trivial
  turn := fun _ _ _ hw h => ⟨h.accounted hw.1, h.unowned hw.2⟩
  write := fun {_} n {_ _} h => Action.matches_suppressing h fun _ _ on hw =>
    ⟨hw.1.setSuppressing n on, hw.2.setSuppressing n on⟩

end

/-! ## Calls -/

/-- An observer of themes is called. -/
def Event.isThemed : Event → Bool
  | .themed _ _ => true
  | _ => false

/-- Nothing else than one call of the watcher, with a theme: an observer is called, and does
what it does while no observer is called, or a surface is shown in the theme. -/
def Watcher.CalledIn (theme : Theme) : Watcher E R → List Event → Prop
  | .surface n, call => ∃ (state : State) (outcome : Rendering),
      state.theme = theme ∧ call = [.rendered n state.runs outcome]
  | .observer i _, call => ∃ rest : List Event,
      call = .themed i theme :: rest ∧ ∀ e ∈ rest, e.isThemed = false

namespace World

/-- Between the two worlds no observer of themes is called. -/
def Uncalled (w w' : World E R) : Prop :=
  ∃ added, w'.trace = w.trace ++ added ∧ ∀ e ∈ added, e.isThemed = false

variable {w w' w'' : World E R} {n : Nat}

theorem uncalled_of_trace_eq (h : w'.trace = w.trace) : Uncalled w w' :=
  ⟨[], by rw [h, List.append_nil], fun _ he => absurd he List.not_mem_nil⟩

theorem Uncalled.trans (h : Uncalled w w') (h' : Uncalled w' w'') : Uncalled w w'' := by
  obtain ⟨added, htrace, hadded⟩ := h
  obtain ⟨added', htrace', hadded'⟩ := h'
  refine ⟨added ++ added', by rw [htrace', htrace, List.append_assoc], fun e he => ?_⟩
  rcases List.mem_append.mp he with he | he
  · exact hadded e he
  · exact hadded' e he

theorem uncalled_record {e : Event} (h : e.isThemed = false) : Uncalled w (w.record e) :=
  ⟨[e], rfl, fun _ he => List.mem_singleton.mp he ▸ h⟩

section
variable [RenderLayer R]

theorem uncalled_refresh : Uncalled w (refresh n w).2 := by
  cases hs : w.live? n with
  | none =>
    rw [refresh_of_none hs]
    exact uncalled_of_trace_eq rfl
  | some s =>
    exact ⟨[renderedEvent n s], trace_refresh hs, fun _ he => List.mem_singleton.mp he ▸ rfl⟩

theorem uncalled_changeAndShow (f : State → State) : Uncalled w (changeAndShow n f w).2 := by
  rw [changeAndShow_apply]
  exact uncalled_refresh (w := w.changeState n f)

theorem trace_followTheme {s : Live E R} (hs : w.live? n = some s) :
    (followTheme n w).2.trace = w.trace ++
      [renderedEvent n { s with state := { s.state with theme := w.notifier.theme } }] := by
  rw [followTheme_apply, changeAndShow_apply]
  exact trace_refresh (live?_changeState hs _)

variable [EditableLayer E]

theorem uncalled_applyLayout : Uncalled w (applyLayout n w).2 := by
  cases hs : w.live? n with
  | none =>
    rw [applyLayout_of_none hs]
    exact uncalled_of_trace_eq rfl
  | some s =>
    rw [applyLayout_of_some hs]
    refine Uncalled.trans ⟨_, trace_layOut, fun e he => ?_⟩ uncalled_refresh
    rcases List.mem_cons.mp he with rfl | he
    · rfl
    · rw [List.mem_singleton.mp he]
      rfl

end
end World

section
variable [EditableLayer E] {p : Operation E R → Prop} {w w' : World E R}

theorem Aside.uncalled (h : Aside p w w') : World.Uncalled w w' := by
  cases h with
  | noted | told => exact World.uncalled_record rfl
  | written | drawn | observed | connected | disconnected | handled | entered | kept | abandoned =>
    exact World.uncalled_of_trace_eq rfl

/-- Observers of themes are not called in a turn. -/
theorem Turn.uncalled [RenderLayer R] (h : Turn p w w') : World.Uncalled w w' := by
  cases h with
  | aside h => exact h.uncalled
  | shown n f w => exact World.uncalled_changeAndShow f
  | followed n w =>
    rw [World.followTheme_apply]
    exact World.uncalled_changeAndShow _
  | laidOut n change w =>
    exact World.uncalled_applyLayout (w := w.changeState n fun s =>
      { s with layout := change.apply s.layout })
  | created editable rendered w =>
    obtain ⟨f, hcreate⟩ := World.create_world editable rendered w
    rw [hcreate]
    have hlaidOut : World.Uncalled w (World.applyLayout w.slots.length
        ((w.withFresh editable rendered).enter w.slots.length)).2 :=
      World.uncalled_applyLayout (w := (w.withFresh editable rendered).enter w.slots.length)
    exact hlaidOut.trans (World.uncalled_of_trace_eq World.trace_leave)
  | left n w => exact World.uncalled_of_trace_eq World.trace_leave
  | released n w => exact World.uncalled_of_trace_eq World.trace_unsubscribeSurface
  | subscribed | unsubscribed | stranded | strandedSurface => exact World.uncalled_of_trace_eq rfl

end

/-! ## Rounds -/

namespace World

open Surface.Action

/-- Since then nobody has asked for a theme, and nobody has been called. -/
def SilentSince (theme : Theme) (begun w : World E R) : Prop :=
  w.notifier.theme = theme ∧ Uncalled begun w

variable [RenderLayer R] {w w' : World E R} {theme : Theme} {depth n : Nat}

/-- Tells somebody of a new theme and lets it go. -/
def tellAndLetGo (m : Meaning E R) (theme : Theme) (x : Nat × Watcher E R) : Action E R Unit := do
  tell m theme x.2
  letGo x

/-- A round goes on with the world as it is after somebody was told. -/
theorem callInTurn_tell_cons (m : Meaning E R) (x : Nat × Watcher E R)
    (later : List (Nat × Watcher E R)) :
    callInTurn (fun x => tell m theme x.2) (x :: later) =
      tellAndLetGo m theme x >>= fun _ => callInTurn (fun x => tell m theme x.2) later := rfl

/-- To tell a surface that is alive is to show it once, in the theme of the notifier. -/
theorem called_surface {m : Meaning E R} {s : Live E R} (htheme : w.notifier.theme = theme)
    (hs : w.live? n = some s) (h : tell m theme (.surface n) w = (.ok ⟨⟩, w')) :
    w'.notifier.theme = theme ∧ ∃ call, w'.trace = w.trace ++ call ∧
      (Watcher.surface n : Watcher E R).CalledIn theme call := by
  have htold : tell m theme (.surface n) w =
      Action.holding n (followTheme n >>= fun _ => pure ⟨⟩) w := by
    rw [tell, get_bind_apply, if_pos (by rw [hs]; rfl)]
  have htrace := trace_followTheme ((live?_enter (n := n)).trans hs)
  have hnotifier : (followTheme n (w.enter n)).2.notifier = w.notifier := by
    rw [followTheme_apply, notifier_changeAndShow]
    rfl
  rw [htold, holding, bind_apply, modify_apply] at h
  simp only [andFinally, bind_apply] at h
  rcases hfollow : followTheme n (w.enter n) with ⟨_ | shown, followed⟩
  · rw [hfollow] at h
    cases h
  · rw [hfollow] at h htrace hnotifier
    cases h
    refine ⟨?_, _, trace_leave.trans htrace, _, _, htheme, rfl⟩
    rw [theme_leave, hnotifier, htheme]

theorem tell_surface_of_none (m : Meaning E R) (h : w.live? n = none) :
    tell m theme (.surface n) w = (.ok ⟨⟩, w) := by
  rw [tell, get_bind_apply, h]
  rfl

theorem tell_observer (m : Meaning E R) (i : Nat) (body : Theme → Script E R) :
    tell m theme (.observer i body) w = (body theme).run m (w.record (.themed i theme)) := by
  rw [tell, bind_apply, modify_apply]

/-- Telling a surface is all the same whatever operations mean. -/
theorem tellAndLetGo_surface (m m' : Meaning E R) (id : Nat) :
    tellAndLetGo m theme (id, .surface n) w = tellAndLetGo m' theme (id, .surface n) w := rfl

variable [EditableLayer E]

theorem walked_silentSince : Walked True (fun _ : Operation E R => True)
    (SilentSince theme : World E R → World E R → Prop) where
  stores := fun _ w _ => w.stores_true
  turn := fun _ _ _ hw h => ⟨h.theme.trans hw.1, hw.2.trans h.uncalled⟩
  write := fun {_} _ {_ _} h => matches_suppressing h
    fun _ _ _ hw => ⟨hw.1, hw.2.trans (uncalled_of_trace_eq rfl)⟩

theorem walked_gone : Walked False (fun _ : Operation E R => True)
    fun (watcher : Watcher E R) (w : World E R) => w.Gone watcher where
  stores := fun _ w _ => w.stores_true
  turn := fun _ _ _ hw h => h.gone hw
  write := fun {_} n {_ _} h => matches_suppressing h fun _ _ on hw => hw.setSuppressing n on

/-- Whoever is gone is so after somebody was told, too. -/
theorem Gone.tellAndLetGo {watcher : Watcher E R} (h : w.Gone watcher) (depth : Nat)
    (theme : Theme) (x : Nat × Watcher E R) :
    (tellAndLetGo (Operation.run depth) theme x w).2.Gone watcher := by
  have hthemed (theme : Theme) : Themed (fun (watcher : Watcher E R) (w : World E R) =>
      w.Gone watcher) theme := ⟨fun _ _ hw => hw, fun _ _ _ hw => hw⟩
  have htell : Matches False (fun (watcher : Watcher E R) (w : World E R) => w.Gone watcher)
      (tell (Operation.run depth) theme x.2) (tell (Operation.run depth) theme x.2) :=
    matches_tell walked_gone.toCarried (Operation.matches_run walked_gone hthemed depth)
      (hthemed theme).called (fun _ body _ => (body theme).throughout_true) fun _ _ => .inl trivial
  have hboth := matches_bind htell fun _ => matches_letGo walked_gone.toCarried x
  exact (hboth w watcher h False.elim).2

/-- Those on the list can be told of a theme one after the other.  Nobody panics or asks for a
theme, and whoever comes later and has its subscription has it yet when somebody was told. -/
inductive Obliging (depth : Nat) (theme : Theme) : List (Nat × Watcher E R) → World E R → Prop where
  | nobody (w : World E R) : Obliging depth theme [] w
  | told {x : Nat × Watcher E R} {later : List (Nat × Watcher E R)} {w : World E R}
      (hok : (tellAndLetGo (Operation.themeless depth) theme x w).1.isOk = true)
      (hlater : ∀ y ∈ later, w.Holds y.1 y.2 →
        (tellAndLetGo (Operation.themeless depth) theme x w).2.Holds y.1 y.2)
      (hrest : Obliging depth theme later
        (tellAndLetGo (Operation.themeless depth) theme x w).2) :
      Obliging depth theme (x :: later) w

instance (w : World E R) (id : Nat) : (watcher : Watcher E R) → Decidable (w.Holds id watcher)
  | .surface n => inferInstanceAs (Decidable (w.subscription? n = some id))
  | .observer i _ => inferInstanceAs (Decidable (w.subscriptions[i]? = some (some id)))

instance decidableObliging (depth : Nat) (theme : Theme) : (xs : List (Nat × Watcher E R)) →
    (w : World E R) → Decidable (Obliging depth theme xs w)
  | [], w => .isTrue (.nobody w)
  | x :: later, w =>
    have := decidableObliging depth theme later
      (tellAndLetGo (Operation.themeless depth) theme x w).2
    decidable_of_iff ((tellAndLetGo (Operation.themeless depth) theme x w).1.isOk = true ∧
      (∀ y ∈ later, w.Holds y.1 y.2 →
        (tellAndLetGo (Operation.themeless depth) theme x w).2.Holds y.1 y.2) ∧
      Obliging depth theme later (tellAndLetGo (Operation.themeless depth) theme x w).2)
      ⟨fun ⟨hok, hlater, hrest⟩ => .told hok hlater hrest,
        fun | .told hok hlater hrest => ⟨hok, hlater, hrest⟩⟩

/-- An observer is called when it is told, and if it asks for no theme, nobody else is. -/
theorem called_observer {id i : Nat} {body : Theme → Script E R}
    (htheme : w.notifier.theme = theme)
    (h : tellAndLetGo (Operation.themeless depth) theme (id, .observer i body) w =
      (.ok ⟨⟩, w')) :
    tellAndLetGo (Operation.run depth) theme (id, .observer i body) w = (.ok ⟨⟩, w') ∧
      w'.notifier.theme = theme ∧ ∃ call, w'.trace = w.trace ++ call ∧
        (Watcher.observer i body).CalledIn theme call := by
  have hcalled : (w.record (.themed i theme)).notifier.theme = theme := htheme
  have htold (m : Meaning E R) : tellAndLetGo m theme (id, .observer i body) w =
      ((body theme).run m >>= fun _ => letGo (id, .observer i body))
        (w.record (.themed i theme)) := by
    rw [World.tellAndLetGo, bind_apply, tell_observer, bind_apply]
  rw [htold] at h ⊢
  have hscript : Matches True (SilentSince theme) ((body theme).run (Operation.run depth))
      ((body theme).run (Operation.themeless depth)) := matches_script walked_silentSince
    (fun op _ => Operation.matches_themeless walked_silentSince depth op) (body theme)
    (body theme).throughout_true
  have hdone : True → (((body theme).run (Operation.themeless depth) >>= fun _ =>
      letGo (id, .observer i body)) (w.record (.themed i theme))).1 ≠ .error .tooDeep := by
    rw [h]
    nofun
  obtain ⟨hsame, hkept⟩ := matches_bind hscript
    (fun _ => matches_letGo walked_silentSince.toCarried (id, .observer i body)) _
    (w.record (.themed i theme)) ⟨hcalled, uncalled_of_trace_eq rfl⟩ hdone
  rw [h] at hsame hkept
  obtain ⟨htheme', rest, htrace, hrest⟩ := hkept
  refine ⟨hsame, htheme', .themed i theme :: rest, ?_, rest, rfl, hrest⟩
  rw [htrace, trace_record, List.append_assoc]
  rfl

/-- Whoever is there is called once when it is told. -/
theorem called_when_told {x : Nat × Watcher E R} (htheme : w.notifier.theme = theme)
    (h : (tellAndLetGo (Operation.themeless depth) theme x w).1.isOk = true) :
    ∃ w' calls, tellAndLetGo (Operation.themeless depth) theme x w = (.ok ⟨⟩, w') ∧
      tellAndLetGo (Operation.run depth) theme x w = (.ok ⟨⟩, w') ∧ w'.notifier.theme = theme ∧
        w'.trace = w.trace ++ calls.flatten ∧
          List.Forall₂ (Watcher.CalledIn theme) ([x.2].filter w.isThere) calls := by
  obtain ⟨id, watcher⟩ := x
  rcases htold : tellAndLetGo (Operation.themeless depth) theme (id, watcher) w
    with ⟨_ | ⟨⟩, w'⟩
  · rw [htold] at h
    cases h
  have hcalled {call : List Event} (hthere : w.isThere watcher = true)
      (hcall : watcher.CalledIn theme call) :
      List.Forall₂ (Watcher.CalledIn theme) ([watcher].filter w.isThere) [call] := by
    rw [List.filter_cons_of_pos hthere]
    exact .cons hcall .nil
  cases watcher with
  | surface n =>
    have hrun := (tellAndLetGo_surface (Operation.run depth) _ id).trans htold
    obtain ⟨⟨⟩, w₁, htell, hgo⟩ := exists_of_bind_ok htold
    cases hgo
    cases hs : w.live? n with
    | none =>
      rw [tell_surface_of_none _ hs] at htell
      cases htell
      refine ⟨_, [], rfl, hrun, htheme, (List.append_nil _).symm, ?_⟩
      rw [List.filter_cons_of_neg (by rw [isThere, hs]; nofun)]
      exact .nil
    | some s =>
      obtain ⟨htheme', call, htrace, hcall⟩ := called_surface htheme hs htell
      refine ⟨_, [call], rfl, hrun, htheme', ?_, hcalled (by rw [isThere, hs]; rfl) hcall⟩
      rw [List.flatten_singleton]
      exact htrace
  | observer i body =>
    obtain ⟨hrun, htheme', call, htrace, hcall⟩ := called_observer htheme htold
    refine ⟨w', [call], rfl, hrun, htheme', ?_, hcalled rfl hcall⟩
    rw [List.flatten_singleton]
    exact htrace

/-- A round is made of the calls of those who are there, in the order in which they stand on the
list. -/
theorem callInTurn_of_obliging {xs : List (Nat × Watcher E R)} (htheme : w.notifier.theme = theme)
    (hlisted : ∀ x ∈ xs, w.Holds x.1 x.2 ∨ w.Gone x.2) (h : Obliging depth theme xs w) :
    ∃ w' calls, callInTurn (fun x => tell (Operation.run depth) theme x.2) xs w = (.ok ⟨⟩, w') ∧
      w'.notifier.theme = theme ∧ w'.trace = w.trace ++ calls.flatten ∧
        List.Forall₂ (Watcher.CalledIn theme) ((xs.map Prod.snd).filter w.isThere) calls := by
  induction xs generalizing w with
  | nil => exact ⟨w, [], rfl, htheme, (List.append_nil _).symm, .nil⟩
  | cons x later ih =>
    obtain ⟨⟩ | ⟨hok, hlater, hrest⟩ := h
    obtain ⟨told, calls, hthemeless, hrun, htold, htrace, hcalls⟩ := called_when_told htheme hok
    rw [hthemeless] at hlater hrest
    have hgone (y : Nat × Watcher E R) (hy : w.Gone y.2) : told.Gone y.2 := by
      have hstill := hy.tellAndLetGo depth theme x
      rwa [hrun] at hstill
    -- Whoever comes later is there as much as before.
    have hthere : ∀ watcher ∈ later.map Prod.snd, w.isThere watcher = told.isThere watcher := by
      intro watcher hmem
      obtain ⟨y, hy, rfl⟩ := List.mem_map.mp hmem
      rcases hlisted y (List.mem_cons_of_mem x hy) with hholds | hy'
      · rw [hholds.isThere, (hlater y hy hholds).isThere]
      · exact (hy'.isThere_eq (hgone y hy')).symm
    obtain ⟨w', calls', hround, htheme', htrace', hcalls'⟩ := ih htold
      (fun y hy => (hlisted y (List.mem_cons_of_mem x hy)).imp (hlater y hy) (hgone y)) hrest
    refine ⟨w', calls ++ calls', ?_, htheme', ?_, ?_⟩
    · rw [callInTurn_tell_cons, bind_apply, hrun]
      exact hround
    · rw [htrace', htrace, List.flatten_append, List.append_assoc]
    · rw [← List.filter_congr hthere] at hcalls'
      show List.Forall₂ _ (([x.2] ++ later.map Prod.snd).filter w.isThere) _
      rw [List.filter_append]
      exact List.rel_append hcalls hcalls'

/-- A change to another theme that is not hindered by callbacks calls everybody who is on the list
when it begins, once, in the order of subscription and with the new theme.  Asking for the theme
that is set already calls nobody. -/
structure Announces (w : World E R) : Prop where
  change : ∀ depth theme, w.notifier.held = true → w.notifier.theme ≠ theme →
    Obliging depth theme w.notifier.observers
        ((w.withTheme theme).beginRound w.notifier.observers) →
      ∃ w' calls, Operation.run (depth + 1) (.setTheme theme) w = (.ok .done, w') ∧
        w'.notifier.theme = theme ∧ w'.trace = w.trace ++ calls.flatten ∧
          List.Forall₂ (Watcher.CalledIn theme) w.listeners calls
  same : ∀ depth, w.notifier.held = true →
    Operation.run (depth + 1) (.setTheme w.notifier.theme) w = (.ok .done, w)

theorem Listed.announces (h : w.Listed) : w.Announces where
  change := by
    intro depth theme hheld hne hobliging
    have hlisted : ∀ x ∈ w.notifier.observers,
        ((w.withTheme theme).beginRound w.notifier.observers).Holds x.1 x.2 ∨
          ((w.withTheme theme).beginRound w.notifier.observers).Gone x.2 :=
      fun x hx => (h x.1 x.2 hx).imp id And.right
    have htheme : ((w.withTheme theme).beginRound w.notifier.observers).notifier.theme = theme :=
      rfl
    obtain ⟨w', calls, hround, htheme', htrace, hcalls⟩ :=
      callInTurn_of_obliging htheme hlisted hobliging
    refine ⟨w'.endRound, calls, ?_, htheme', htrace, hcalls⟩
    rw [Operation.run, Operation.step_setTheme_of_held hheld, bind_apply, setTheme_of_ne hne,
      round_of_ok hround]
    rfl
  same := by
    intro depth hheld
    rw [Operation.run, Operation.step_setTheme_of_held hheld, bind_apply, setTheme_same rfl]
    rfl

end World

/-! ## Runs -/

namespace Operation

open Surface.Action World

variable [EditableLayer E] [RenderLayer R] {watch : World E R → World E R}

/-- The meaning of operations that nest at most `depth` deep, with somebody who does something
to the world at the beginning and at the end of each, nested ones included, however it ends. -/
def inspected (watch : World E R → World E R) : Nat → Meaning E R
  | 0 => fun _ => throw .tooDeep
  | depth + 1 => fun op => do
    modify watch
    andFinally (step (inspected watch depth) op) watch

/-- Whoever does nothing in worlds with a property that operations keep does nothing at all. -/
theorem matches_inspected {p : Operation E R → Prop} {P : Unit → World E R → Prop}
    (hP : Walked False p P) (hthemed : ∀ theme, Themed P theme)
    (hidle : ∀ i w, P i w → watch w = w) (depth : Nat) (op : Operation E R)
    (h : op.Throughout p) : Matches False P (inspected watch depth op) (run depth op) := by
  induction depth generalizing op with
  | zero => exact matches_throw _
  | succ depth ih =>
    intro w i hw hends
    obtain ⟨hsame, hkept⟩ := matches_step_of_themed hP hthemed ih h w i hw hends
    refine ⟨?_, hkept⟩
    show (modify watch >>= fun _ => andFinally (step (inspected watch depth) op) watch) w = _
    rw [bind_apply, modify_apply, hidle i w hw]
    show ((step (inspected watch depth) op w).1, watch (step (inspected watch depth) op w).2) = _
    rw [hsame, hidle i _ hkept]
    rfl

/-- The same of a whole run. -/
theorem inspected_script {p : Operation E R → Prop} {P : World E R → Prop}
    (hP : Walked False p fun (_ : Unit) => P)
    (hthemed : ∀ theme, Themed (fun (_ : Unit) => P) theme) {theme : Theme}
    (hinitial : P (World.initial theme)) (hidle : ∀ w, P w → watch w = w) (depth : Nat)
    (program : Script E R) (h : program.Throughout p) :
    program.run (inspected watch depth) (World.initial theme) =
        program.run (run depth) (World.initial theme) ∧
      P (program.run (run depth) (World.initial theme)).2 :=
  matches_script hP (matches_inspected hP hthemed (fun _ => hidle) depth) program h _ () hinitial
    False.elim

/-- The list is accounted for throughout a run, and so is that nobody is stranded if nothing is
handed over. -/
theorem inspected_script_of_accounted {theme : Theme} {depth : Nat} {program : Script E R}
    (hwatch : ∀ w, w.Accounted → (program.Throughout HandsNothingOver → w.stranded = []) →
      watch w = w) :
    program.run (inspected watch depth) (World.initial theme) =
        program.run (run depth) (World.initial theme) ∧
      (program.run (run depth) (World.initial theme)).2.Accounted := by
  by_cases hnothing : program.Throughout HandsNothingOver
  · have hthemed (theme : Theme) :
        Themed (fun (_ : Unit) (w : World E R) => w.Accounted ∧ w.Unowned) theme :=
      ⟨fun i w hw => ⟨(themed_accounted theme).withTheme i w hw.1,
        (themed_unowned theme).withTheme i w hw.2⟩,
        fun k i w hw => ⟨(themed_accounted theme).called k i w hw.1,
          (themed_unowned theme).called k i w hw.2⟩⟩
    obtain ⟨hsame, haccounted, -⟩ := inspected_script walked_accounted_unowned hthemed
      ⟨accounted_initial theme, unowned_initial theme⟩
      (fun w hw => hwatch w hw.1 fun _ => hw.2.stranded) depth program hnothing
    exact ⟨hsame, haccounted⟩
  · exact inspected_script walked_accounted themed_accounted (accounted_initial theme)
      (fun w hw => hwatch w hw fun h => absurd h hnothing) depth program program.throughout_true

/-- In every world in which an operation of a run begins or ends, a nested one or not, the
observers are those who should be there, a change of the theme calls them, and nobody is left over
on the list unless something is handed over to callbacks in the run. -/
theorem inOrder_of_lookedAt {theme : Theme} {depth : Nat} {program : Script E R} {w : World E R}
    (h : LookedAt (fun watch => program.run (inspected (watch ()) depth))
      (program.run (run depth)) (World.initial theme) () w) :
    w.InOrder ∧ w.Announces ∧ (program.Throughout HandsNothingOver → w.NobodyLeftOver) := by
  obtain ⟨haccounted, hstranded⟩ :=
    h.holds (Q := fun _ w => w.Accounted ∧ (program.Throughout HandsNothingOver → w.stranded = []))
      fun _ hwatch => (inspected_script_of_accounted fun w hw hstranded =>
        hwatch () w ⟨hw, hstranded⟩).1
  exact ⟨haccounted.inOrder, haccounted.listed.announces,
    fun hnothing => haccounted.nobodyLeftOver (hstranded hnothing)⟩

end Operation

/-- Whoever looks on at the beginning and at the end of every operation, and does something only
if the observers are not those who should be there or a change of the theme would not call
them, never does anything.  Nobody is left over on the list unless something is handed over to
callbacks. -/
theorem rounds_are_in_order [EditableLayer E] [RenderLayer R] (theme : Theme) (depth : Nat)
    (program : Script E R) (watch : World E R → World E R)
    (hwatch : ∀ w, w.InOrder → w.Announces →
      (program.Throughout Operation.HandsNothingOver → w.NobodyLeftOver) → watch w = w) :
    program.run (Operation.inspected watch depth) (World.initial theme) =
        program.run (Operation.run depth) (World.initial theme) ∧
      (program.run (Operation.run depth) (World.initial theme)).2.InOrder ∧
      (program.run (Operation.run depth) (World.initial theme)).2.Announces ∧
      (program.Throughout Operation.HandsNothingOver →
        (program.run (Operation.run depth) (World.initial theme)).2.NobodyLeftOver) := by
  obtain ⟨hsame, hkept⟩ := Operation.inspected_script_of_accounted fun w hw hstranded =>
    hwatch w hw.inOrder hw.listed.announces fun hnothing => hw.nobodyLeftOver (hstranded hnothing)
  exact ⟨hsame, hkept.inOrder, hkept.listed.announces, fun hnothing =>
    hkept.nobodyLeftOver (Operation.stranded_of_program theme depth program hnothing)⟩

/-! ## Subscriptions of many kinds

Four surfaces are created, of which the second one panics and the third one cannot be shown;
the fourth one is disposed of, although there is another handle to it.  The first of two
observers takes up a subscription and gives it back, takes up another one, and creates a surface
when it is told. -/

def mixedSubscriptions : Script LimitedBuffer Display :=
  .perform (.create {} {}) fun _ =>
  .attempt (.create {} { mode := .panics "lost".toList }) fun _ =>
  .perform (.create {} { mode := .fails (.renderFailed "lost".toList) }) fun _ =>
  .perform (.subscribe fun _ =>
    .perform (.subscribe fun _ => .done) fun _ =>
    .perform (.unsubscribe 2) fun _ =>
    .perform (.subscribe fun _ => .done) fun _ =>
    .perform (.create {} {}) fun _ => .done) fun _ =>
  .perform (.create {} {}) fun _ =>
  .perform (.on 3 .clone) fun _ =>
  .perform (.on 3 .dispose) fun _ =>
  .perform (.on 3 .drop) fun _ =>
  .perform (.subscribe fun _ => .done) fun _ => .done

/-- The world after all of this. -/
def mixedWorld : World LimitedBuffer Display :=
  (mixedSubscriptions.run (Operation.run 3) (World.initial .light)).2

open Classical in
/-- Leaves a note in a world that is not in order. -/
noncomputable def noteOutOfOrder (w : World LimitedBuffer Display) : World LimitedBuffer Display :=
  if w.InOrder ∧ w.Announces ∧ w.NobodyLeftOver then w else w.record (.note "out of order".toList)

theorem mixedSubscriptions_handsNothingOver :
    mixedSubscriptions.Throughout Operation.HandsNothingOver := by
  simp [mixedSubscriptions, Script.Throughout, Operation.Throughout, Request.Throughout,
    Operation.HandsNothingOver]

/-- One surface and two observers are subscribed in the end, and the dark theme is told to all
three of them.  Two more are subscribed afterwards. -/
theorem mixed_subscriptions_are_called :
    mixedWorld.ids = [1, 4, 6] ∧ mixedWorld.NobodyLeftOver ∧
      World.Obliging 2 .dark mixedWorld.notifier.observers
        ((mixedWorld.withTheme .dark).beginRound mixedWorld.notifier.observers) ∧
      (∃ w' calls, Operation.run 3 (.setTheme .dark) mixedWorld = (.ok .done, w') ∧
        w'.trace = mixedWorld.trace ++ calls.flatten ∧
        List.Forall₂ (Watcher.CalledIn .dark) mixedWorld.listeners calls) ∧
      (Operation.run 3 (.setTheme .dark) mixedWorld).2.trace.filter Event.isThemed =
        [.themed 0 .dark, .themed 1 .dark] ∧
      (Operation.run 3 (.setTheme .dark) mixedWorld).2.ids = [1, 4, 6, 8, 9] ∧
      mixedSubscriptions.run (Operation.inspected noteOutOfOrder 3) (World.initial .light) =
        mixedSubscriptions.run (Operation.run 3) (World.initial .light) := by
  obtain ⟨hsame, -, hkept, hnobody⟩ := rounds_are_in_order .light 3 mixedSubscriptions
    noteOutOfOrder fun w horder hannounces hnobody =>
      if_pos ⟨horder, hannounces, hnobody mixedSubscriptions_handsNothingOver⟩
  have hannounces : mixedWorld.Announces := hkept
  have hobliging : World.Obliging 2 .dark mixedWorld.notifier.observers
      ((mixedWorld.withTheme .dark).beginRound mixedWorld.notifier.observers) := by
    decide +kernel
  have hheld : mixedWorld.notifier.held = true := by decide +kernel
  have hlight : mixedWorld.notifier.theme = .light := by decide +kernel
  have hne : mixedWorld.notifier.theme ≠ .dark := by
    rw [hlight]
    decide
  obtain ⟨w', calls, hrun, -, htrace, hcalls⟩ := hannounces.change 2 .dark hheld hne hobliging
  exact ⟨by decide +kernel, hnobody mixedSubscriptions_handsNothingOver, hobliging,
    ⟨w', calls, hrun, htrace, hcalls⟩, by decide +kernel, by decide +kernel, hsame⟩

/-! ## A subscription that is owned

The second observer owns the subscription of the first one.  When its own subscription is given
back, both subscriptions end, in a panic. -/

def ownedSubscription (next : Script LimitedBuffer Display) : Script LimitedBuffer Display :=
  .perform (.subscribe fun _ => .done) fun _ =>
  .perform (.subscribe fun _ => .done) fun _ =>
  .perform (.entrust 1 (.subscription 0)) fun _ =>
  .attempt (.unsubscribe 1) fun outcome =>
    match outcome with
    | .ok _ => .done
    | .error reason => .note reason next

/-- No subscription is left, and the notifier has an observer, which it calls. -/
theorem owned_subscription_outlives_its_end :
    let w := ((ownedSubscription .done).run (Operation.run 3) (World.initial .light)).2
    w.trace = [.note World.alreadyBorrowed] ∧ w.subscriptions = [none, none] ∧
      w.ids = [1] ∧ w.countSubscribed = 0 ∧
      (Operation.run 3 (.setTheme .dark) w).2.trace =
        [.note World.alreadyBorrowed, .themed 0 .dark] := by
  decide +kernel

end Surface
end QueryView
