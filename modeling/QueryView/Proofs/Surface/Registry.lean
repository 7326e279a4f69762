/-
Whom the notifier knows.

The notifier knows its observers by numbers that it gives out, each once.  A surface that is
alive holds the number of its subscription, and so does the embedder for each of its own; in
a world that is `Registered` every number that is held stands in the list of the notifier,
as that of its holder.  So whoever is subscribed is told of a new theme.

Giving a subscription back takes a number out of the list.  It must not be the number of
anybody else, and that is what the other half of the property is for: no number stands for
two observers, and the next number is a new one.
-/
import QueryView.Proofs.Surface.Turn

namespace QueryView
namespace Surface
namespace World

variable {E R : Type}

/-- The subscriptions that are held are those that the notifier knows. -/
structure Registered (w : World E R) : Prop where
  unique : ∀ id a b, (id, a) ∈ w.notifier.observers → (id, b) ∈ w.notifier.observers → a = b
  below : ∀ id a, (id, a) ∈ w.notifier.observers → id < w.notifier.nextId
  surfaces : ∀ n s id, w.live? n = some s → s.subscription = some id →
    (id, .surface n) ∈ w.notifier.observers
  observers : ∀ i id, w.subscriptions[i]? = some (some id) →
    ∃ body, (id, .observer i body) ∈ w.notifier.observers

variable {w w' : World E R} {n : Nat}

theorem registered_initial (theme : Theme) : (World.initial theme : World E R).Registered := by
  constructor <;> simp [World.initial, live?]

/-- Changes that leave the list alone, and give nobody a subscription. -/
theorem Registered.congr (h : w.Registered)
    (hlive : ∀ n s' id, w'.live? n = some s' → s'.subscription = some id →
      ∃ s, w.live? n = some s ∧ s.subscription = some id)
    (hobservers : w'.notifier.observers = w.notifier.observers)
    (hnext : w'.notifier.nextId = w.notifier.nextId)
    (hsubscriptions : w'.subscriptions = w.subscriptions) : w'.Registered := by
  constructor
  · rw [hobservers]
    exact h.unique
  · rw [hobservers, hnext]
    exact h.below
  · intro n s' id hs' hid
    obtain ⟨s, hs, hsub⟩ := hlive n s' id hs' hid
    rw [hobservers]
    exact h.surfaces n s id hs hsub
  · rw [hobservers, hsubscriptions]
    exact h.observers

theorem Registered.still (h : w.Registered) (hstill : Still w w') : w'.Registered := by
  refine h.congr (fun n s' id hs' hid => ?_) hstill.observers hstill.nextId hstill.subscriptions
  obtain ⟨s, hs, -, -, hsub⟩ := hstill.live n s' hs'
  exact ⟨s, hs, hsub ▸ hid⟩

theorem Registered.changeLive (h : w.Registered) {f : Live E R → Live E R}
    (hf : ∀ s, (f s).subscription = s.subscription) : (w.changeLive n f).Registered := by
  refine h.congr (fun m s' id hs' hid => ?_) rfl rfl rfl
  rw [live?_changeLive] at hs'
  split at hs'
  · obtain ⟨s, hs, rfl⟩ := Option.map_eq_some_iff.mp hs'
    exact ⟨s, hs, hf s ▸ hid⟩
  · exact ⟨s', hs', hid⟩

theorem Registered.withTheme (h : w.Registered) (theme : Theme) : (w.withTheme theme).Registered :=
  ⟨h.unique, h.below, h.surfaces, h.observers⟩

/-! ## Giving back -/

theorem mem_forget {id k : Nat} {a : Watcher E R} (h : (k, a) ∈ w.notifier.observers)
    (hne : k ≠ id) : (k, a) ∈ (w.forget id).notifier.observers :=
  List.mem_filter.mpr ⟨h, by simpa using hne⟩

/-- The number of one observer may go, if nobody holds it afterwards. -/
theorem Registered.forget (h : w.Registered) {id : Nat} {a : Watcher E R}
    (ha : (id, a) ∈ w.notifier.observers) (hnotifier : w'.notifier = (w.forget id).notifier)
    (hlive : ∀ n s' k, w'.live? n = some s' → s'.subscription = some k →
      a ≠ .surface n ∧ ∃ s, w.live? n = some s ∧ s.subscription = some k)
    (hsubscriptions : ∀ i k, w'.subscriptions[i]? = some (some k) →
      (∀ body, a ≠ .observer i body) ∧ w.subscriptions[i]? = some (some k)) : w'.Registered := by
  have hsubset : w'.notifier.observers ⊆ w.notifier.observers := by
    rw [hnotifier]
    exact List.filter_sublist.subset
  have hstays (k : Nat) (b : Watcher E R) (hb : (k, b) ∈ w.notifier.observers) (hne : a ≠ b) :
      (k, b) ∈ w'.notifier.observers := by
    rw [hnotifier]
    refine mem_forget hb fun heq => ?_
    rw [heq] at hb
    exact hne (h.unique id a b ha hb)
  constructor
  · exact fun k b c hb hc => h.unique k b c (hsubset hb) (hsubset hc)
  · intro k b hb
    rw [hnotifier]
    exact h.below k b (hsubset hb)
  · intro n s' k hs' hk
    obtain ⟨hne, s, hs, hsub⟩ := hlive n s' k hs' hk
    exact hstays k _ (h.surfaces n s k hs hsub) hne
  · intro i k hk
    obtain ⟨hne, hold⟩ := hsubscriptions i k hk
    obtain ⟨body, hbody⟩ := h.observers i k hold
    exact ⟨body, hstays k _ hbody (hne body)⟩

theorem Registered.unsubscribe (h : w.Registered) {i id : Nat}
    (hid : w.subscriptions[i]? = some (some id)) : (w.unsubscribe i id).Registered := by
  obtain ⟨body, hbody⟩ := h.observers i id hid
  refine h.forget hbody rfl (fun n s' k hs' hk => ⟨nofun, s', hs', hk⟩) fun j k hk => ?_
  have hset : (w.subscriptions.set i none)[j]? = some (some k) := hk
  rw [List.getElem?_set] at hset
  split at hset
  · split at hset <;> cases hset
  · next hne =>
    refine ⟨fun other heq => ?_, hset⟩
    exact hne (Watcher.observer.inj heq).1

theorem subscriptions_unsubscribeSurface :
    (w.unsubscribeSurface n).subscriptions = w.subscriptions := by
  unfold unsubscribeSurface
  cases (w.live? n).bind Live.subscription <;> rfl

theorem Registered.unsubscribeSurface (h : w.Registered) : (w.unsubscribeSurface n).Registered := by
  have hlive (m : Nat) (s' : Live E R) (k : Nat) (hs' : (w.unsubscribeSurface n).live? m = some s')
      (hk : s'.subscription = some k) :
      m ≠ n ∧ ∃ s, w.live? m = some s ∧ s.subscription = some k := by
    rw [live?_unsubscribeSurface] at hs'
    split at hs'
    · obtain ⟨s, -, rfl⟩ := Option.map_eq_some_iff.mp hs'
      cases hk
    · next hne => exact ⟨Ne.symm hne, s', hs', hk⟩
  cases hsub : (w.live? n).bind Live.subscription with
  | none =>
    have hnotifier : (w.unsubscribeSurface n).notifier = w.notifier := by
      rw [World.unsubscribeSurface, hsub]
      rfl
    exact h.congr (fun m s' k hs' hk => (hlive m s' k hs' hk).2) (by rw [hnotifier])
      (by rw [hnotifier]) subscriptions_unsubscribeSurface
  | some id =>
    obtain ⟨s, hs, hid⟩ := Option.bind_eq_some_iff.mp hsub
    have hnotifier : (w.unsubscribeSurface n).notifier = (w.forget id).notifier := by
      rw [World.unsubscribeSurface, hsub]
      rfl
    refine h.forget (h.surfaces n s id hs hid) hnotifier (fun m s' k hs' hk => ?_) fun i k hk => ?_
    · obtain ⟨hne, hold⟩ := hlive m s' k hs' hk
      exact ⟨fun heq => hne (Watcher.surface.inj heq).symm, hold⟩
    · rw [subscriptions_unsubscribeSurface] at hk
      refine ⟨?_, hk⟩
      intro body heq
      cases heq

theorem Registered.collect (h : w.Registered) : (w.collect n).Registered := by
  unfold World.collect
  split
  · split
    · refine (h.unsubscribeSurface (n := n)).congr (fun m s' k hs' hk => ?_) rfl rfl rfl
      rw [live?_changeSlot] at hs'
      split at hs'
      · cases hslot : (w.unsubscribeSurface n).slots[m]? <;> simp [hslot] at hs'
      · exact ⟨s', hs', hk⟩
    · exact h
  · exact h

theorem Registered.leave (h : w.Registered) : (w.leave n).Registered := by
  have hguest : (w.changeSlot n fun slot => { slot with guests := slot.guests - 1 }).Registered :=
    h.still (still_changeSlot n fun _ => rfl)
  exact hguest.collect

/-! ## Stranding

Whoever is stranded stays on the list and is not subscribed any more. -/

theorem Registered.strand (h : w.Registered) {i id : Nat} : (w.strand i id).Registered := by
  refine ⟨h.unique, h.below, h.surfaces, fun j k hk => ?_⟩
  have hset : (w.subscriptions.set i none)[j]? = some (some k) := hk
  rw [List.getElem?_set] at hset
  split at hset
  · split at hset <;> cases hset
  · exact h.observers j k hset

theorem Registered.strandSurface (h : w.Registered) : (w.strandSurface n).Registered := by
  refine h.congr (fun m s' id hs' hid => ?_) rfl rfl rfl
  rw [live?_strandSurface] at hs'
  split at hs'
  · cases hs'
  · exact ⟨s', hs', hid⟩

/-! ## Taking up -/

/-- Somebody new is known by the next number. -/
theorem Registered.enrol (h : w.Registered) {a : Watcher E R}
    (hobservers : w'.notifier.observers = w.notifier.observers ++ [(w.notifier.nextId, a)])
    (hnext : w'.notifier.nextId = w.notifier.nextId + 1)
    (hlive : ∀ n s' id, w'.live? n = some s' → s'.subscription = some id →
      (∃ s, w.live? n = some s ∧ s.subscription = some id) ∨
        a = .surface n ∧ id = w.notifier.nextId)
    (hsubscriptions : ∀ i id, w'.subscriptions[i]? = some (some id) →
      w.subscriptions[i]? = some (some id) ∨
        (∃ body, a = .observer i body) ∧ id = w.notifier.nextId) : w'.Registered := by
  have hmem (id : Nat) (b : Watcher E R) : (id, b) ∈ w'.notifier.observers ↔
      (id, b) ∈ w.notifier.observers ∨ id = w.notifier.nextId ∧ b = a := by
    rw [hobservers, List.mem_append, List.mem_singleton, Prod.mk.injEq]
  have hold (id : Nat) (b : Watcher E R) (hb : (id, b) ∈ w.notifier.observers) :
      id ≠ w.notifier.nextId := Nat.ne_of_lt (h.below id b hb)
  constructor
  · intro id b c hb hc
    rcases (hmem id b).mp hb with hb | ⟨hid, rfl⟩ <;> rcases (hmem id c).mp hc with hc | ⟨hid', rfl⟩
    · exact h.unique id b c hb hc
    · exact absurd hid' (hold id b hb)
    · exact absurd hid (hold id c hc)
    · rfl
  · intro id b hb
    rw [hnext]
    rcases (hmem id b).mp hb with hb | ⟨rfl, -⟩
    · exact Nat.lt_succ_of_lt (h.below id b hb)
    · exact Nat.lt_succ_self _
  · intro n s' id hs' hid
    refine (hmem id _).mpr ?_
    rcases hlive n s' id hs' hid with ⟨s, hs, hsub⟩ | ⟨ha, hnew⟩
    · exact .inl (h.surfaces n s id hs hsub)
    · exact .inr ⟨hnew, ha.symm⟩
  · intro i id hid
    rcases hsubscriptions i id hid with hid | ⟨⟨body, ha⟩, hnew⟩
    · obtain ⟨body, hbody⟩ := h.observers i id hid
      exact ⟨body, (hmem id _).mpr (.inl hbody)⟩
    · exact ⟨body, (hmem id _).mpr (.inr ⟨hnew, ha.symm⟩)⟩

theorem Registered.withFresh (h : w.Registered) (editable : E) (rendered : R) :
    (w.withFresh editable rendered).Registered := by
  refine h.enrol rfl rfl (fun n s' id hs' hid => ?_) fun i id hid => .inl hid
  rw [live?_withFresh] at hs'
  split at hs'
  · next hn =>
    cases hs'
    exact .inr ⟨by rw [hn], (Option.some.inj hid).symm⟩
  · exact .inl ⟨s', hs', hid⟩

theorem Registered.subscribe (h : w.Registered) (body : Theme → Script E R) :
    (w.subscribe body).Registered := by
  refine h.enrol rfl rfl (fun n s' id hs' hid => .inl ⟨s', hs', hid⟩) fun i id hid => ?_
  have hget : (w.subscriptions ++ [some w.notifier.nextId])[i]? = some (some id) := hid
  rw [List.getElem?_append] at hget
  split at hget
  · exact .inl hget
  · next hge =>
    rw [List.getElem?_singleton] at hget
    split at hget
    · next hi =>
      have hlength : w.subscriptions.length = i := by omega
      exact .inr ⟨⟨body, by rw [hlength]⟩, (Option.some.inj (Option.some.inj hget)).symm⟩
    · cases hget

/-! ## Showing -/

variable [RenderLayer R]

theorem Registered.refresh (h : w.Registered) : (refresh n w).2.Registered := by
  cases hs : w.live? n with
  | none =>
    rw [refresh_of_none hs]
    exact h
  | some s =>
    have hrendered : (w.changeLive n fun s' => { s' with
        runs := s.state.runs
        rendered := (RenderLayer.render s.rendered s.state.runs).1 }).Registered :=
      h.changeLive fun _ => rfl
    rw [refresh_world hs]
    exact hrendered.still (still_record _)

theorem Registered.changeAndShow (h : w.Registered) (f : State → State) :
    (changeAndShow n f w).2.Registered := by
  have hchanged : (w.changeState n f).Registered := h.changeLive fun _ => rfl
  rw [changeAndShow_apply]
  exact hchanged.refresh

variable [EditableLayer E]

theorem still_layOut (layout : Layout) : Still w (w.layOut n layout) := by
  refine ⟨fun m s' hs' => ?_, rfl, rfl, rfl, rfl, rfl⟩
  rw [live?_layOut] at hs'
  split at hs'
  · obtain ⟨s, hs, rfl⟩ := Option.map_eq_some_iff.mp hs'
    exact ⟨s, hs, rfl, rfl, rfl⟩
  · exact ⟨s', hs', rfl, rfl, rfl⟩

theorem Registered.applyLayout (h : w.Registered) : (applyLayout n w).2.Registered := by
  cases hs : w.live? n with
  | none =>
    rw [applyLayout_of_none hs]
    exact h
  | some s =>
    rw [applyLayout_of_some hs]
    exact (h.still (still_layOut s.state.layout)).refresh

theorem Registered.create (h : w.Registered) (editable : E) (rendered : R) :
    (create editable rendered w).2.Registered := by
  obtain ⟨f, hcreate⟩ := create_world editable rendered w
  rw [hcreate]
  have hentered : ((w.withFresh editable rendered).enter w.slots.length).Registered :=
    (h.withFresh editable rendered).still (still_changeSlot _ fun _ => rfl)
  refine Registered.leave ?_
  exact hentered.applyLayout.still (still_changeSlot _ fun _ => rfl)

end World

/-- Whatever happens in a turn, the notifier knows all who are subscribed afterwards. -/
theorem Turn.registered {E R : Type} [EditableLayer E] [RenderLayer R]
    {p : Operation E R → Prop} {w w' : World E R} (h : Turn p w w') (hw : w.Registered) :
    w'.Registered := by
  cases h with
  | aside h => exact hw.still h.still
  | shown n f w _ => exact hw.changeAndShow f
  | followed n w =>
    rw [World.followTheme_apply]
    exact hw.changeAndShow _
  | laidOut n change w _ =>
    have hchanged : (w.changeState n fun s =>
        { s with layout := change.apply s.layout }).Registered := hw.changeLive fun _ => rfl
    exact hchanged.applyLayout
  | created editable rendered w => exact hw.create editable rendered
  | left n w => exact hw.leave
  | released n w => exact hw.unsubscribeSurface
  | subscribed body w _ => exact hw.subscribe body
  | unsubscribed i id w h => exact hw.unsubscribe h
  | stranded => exact hw.strand
  | strandedSurface n w _ _ => exact hw.strandSurface

end Surface
end QueryView
