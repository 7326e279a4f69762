/-
What the moves of a world leave alone.

A quiet move shows nothing and brings in no callback.  It may end a surface, but one that
lives on has the state, the runs, the render layer and the observers that it had.  Together
with a look at the other moves this gives the first property that every move keeps: if all
callbacks satisfy a condition, so do all that come later.
-/
import QueryView.Proofs.Surface.Move

namespace QueryView
namespace Surface

variable {E R : Type}

/-- What became of handing runs to the render layer of a surface, if the event is about
that. -/
def Event.outcomeOf? (n : Nat) : Event → Option Rendering
  | .rendered m _ outcome => if m = n then some outcome else none
  | _ => none

namespace World

/-- What became of the last runs that were handed to the render layer of a surface. -/
def lastOutcome? (w : World E R) (n : Nat) : Option Rendering :=
  (w.trace.filterMap (Event.outcomeOf? n)).getLast?

theorem lastOutcome?_of_trace_append {w w' : World E R} {es : List Event}
    (h : w'.trace = w.trace ++ es) (n : Nat) :
    w'.lastOutcome? n = (es.filterMap (Event.outcomeOf? n)).getLast?.or (w.lastOutcome? n) := by
  rw [lastOutcome?, h, List.filterMap_append, List.getLast?_append, lastOutcome?]

theorem lastOutcome?_of_trace_eq {w w' : World E R} (h : w'.trace = w.trace) (n : Nat) :
    w'.lastOutcome? n = w.lastOutcome? n := by rw [lastOutcome?, h, lastOutcome?]

/-- The second world shows what the first one shows, and has no callback that the first one
has not. -/
structure Quiet (w w' : World E R) : Prop where
  live : ∀ n s', w'.live? n = some s' → ∃ s, w.live? n = some s ∧ s'.state = s.state ∧
    s'.runs = s.runs ∧ s'.rendered = s.rendered ∧ s'.observers = s.observers
  hook : ∀ n handler, w'.hook? n = some handler → w.hook? n = some handler
  watchers : w'.notifier.observers ⊆ w.notifier.observers
  outcome : ∀ n, w'.lastOutcome? n = w.lastOutcome? n

variable {w w' : World E R}

theorem Quiet.keepsFewer (h : Quiet w w') : KeepsFewer w w' := by
  constructor
  · intro n s' hs'
    obtain ⟨s, hs, -, -, -, ho⟩ := h.live n s' hs'
    exact .inr ⟨s, hs, ho⟩
  · exact h.hook
  · exact fun id i body hb => h.watchers hb

/-- It is enough that no surface, no hook and no subscription is new, if each surface that
is left is the old one but for its editable layer, its echo flag and its subscription. -/
theorem quiet_of_trace_eq
    (hlive : ∀ n s', w'.live? n = some s' → ∃ s, w.live? n = some s ∧ s'.state = s.state ∧
      s'.runs = s.runs ∧ s'.rendered = s.rendered ∧ s'.observers = s.observers)
    (hhook : ∀ n handler, w'.hook? n = some handler → w.hook? n = some handler)
    (hwatchers : w'.notifier.observers ⊆ w.notifier.observers) (htrace : w'.trace = w.trace) :
    Quiet w w' := ⟨hlive, hhook, hwatchers, lastOutcome?_of_trace_eq htrace⟩

theorem quiet_record {e : Event} (h : ∀ n, e.outcomeOf? n = none) : Quiet w (w.record e) := by
  constructor
  · exact fun n s' hs' => ⟨s', hs', rfl, rfl, rfl, rfl⟩
  · exact fun n handler hh => hh
  · exact List.Subset.refl _
  · intro n
    rw [lastOutcome?_of_trace_append trace_record n]
    simp [h n]

theorem quiet_changeLive {n : Nat} {f : Live E R → Live E R}
    (h : ∀ s, (f s).state = s.state ∧ (f s).runs = s.runs ∧ (f s).rendered = s.rendered ∧
      (f s).observers = s.observers) : Quiet w (w.changeLive n f) := by
  refine quiet_of_trace_eq ?_ ?_ ?_ ?_
  · intro m s' hs'
    rw [live?_changeLive] at hs'
    split at hs'
    · obtain ⟨s, hs, rfl⟩ := Option.map_eq_some_iff.mp hs'
      exact ⟨s, hs, h s⟩
    · exact ⟨s', hs', rfl, rfl, rfl, rfl⟩
  · intro m handler hh
    rwa [hook?_changeLive] at hh
  · exact List.Subset.refl _
  · rfl

/-- Surfaces may end, as long as those that are left stay as they are. -/
theorem quiet_of_live?_or {w w' : World E R}
    (hlive : ∀ n, w'.live? n = w.live? n ∨ w'.live? n = none)
    (hhook : ∀ n handler, w'.hook? n = some handler → w.hook? n = some handler)
    (hwatchers : w'.notifier.observers ⊆ w.notifier.observers) (htrace : w'.trace = w.trace) :
    Quiet w w' := by
  refine quiet_of_trace_eq ?_ hhook hwatchers htrace
  intro n s' hs'
  rcases hlive n with h | h
  · exact ⟨s', h ▸ hs', rfl, rfl, rfl, rfl⟩
  · rw [h] at hs'
    cases hs'

end World

theorem QuietMove.quiet {w w' : World E R} (h : QuietMove w w') : World.Quiet w w' := by
  cases h with
  | noted words w => exact World.quiet_record fun _ => rfl
  | told n i t w => exact World.quiet_record fun _ => rfl
  | themed i theme w => exact World.quiet_record fun _ => rfl
  | written n editable w => exact World.quiet_changeLive fun _ => ⟨rfl, rfl, rfl, rfl⟩
  | suppressed n on w => exact World.quiet_changeLive fun _ => ⟨rfl, rfl, rfl, rfl⟩
  | disconnected n w =>
    refine World.quiet_of_live?_or ?_ ?_ (List.Subset.refl _) rfl
    · exact fun m => .inl (World.live?_changeSlot_of_live (by intro _; rfl))
    · intro m handler hh
      rw [World.hook?_changeSlot] at hh
      split at hh
      · cases hslot : w.slots[m]? <;> simp [hslot] at hh
      · exact hh
  | released n w =>
    refine World.quiet_of_trace_eq ?_ ?_ World.observers_forget?_sublist.subset
      World.trace_unsubscribeSurface
    · intro m s' hs'
      rw [World.live?_unsubscribeSurface] at hs'
      split at hs'
      · obtain ⟨s, hs, rfl⟩ := Option.map_eq_some_iff.mp hs'
        exact ⟨s, hs, rfl, rfl, rfl, rfl⟩
      · exact ⟨s', hs', rfl, rfl, rfl, rfl⟩
    · intro m handler hh
      rwa [World.hook?_unsubscribeSurface] at hh
  | handled n f w =>
    refine World.quiet_of_live?_or ?_ ?_ (List.Subset.refl _) rfl
    · exact fun m => .inl (World.live?_changeSlot_of_live (by intro _; rfl))
    · intro m handler hh
      rwa [World.hook?_changeSlot_of_hook (by intro _; rfl)] at hh
  | entered n w =>
    refine World.quiet_of_live?_or (fun m => .inl World.live?_enter) ?_ (List.Subset.refl _) rfl
    intro m handler hh
    rwa [World.hook?_enter] at hh
  | left n w =>
    refine World.quiet_of_live?_or (fun m => World.live?_leave) ?_
      World.observers_leave_sublist.subset World.trace_leave
    intro m handler hh
    rwa [World.hook?_leave] at hh
  | themeSet theme w =>
    exact World.quiet_of_live?_or (fun _ => .inl rfl) (fun _ _ hh => hh) (List.Subset.refl _) rfl
  | unsubscribed i id w =>
    exact World.quiet_of_live?_or (fun _ => .inl rfl) (fun _ _ hh => hh)
      List.filter_sublist.subset rfl
  | strandedSurface n w =>
    refine World.quiet_of_live?_or (fun m => World.live?_strandSurface_or) ?_
      (List.Subset.refl _) rfl
    intro m handler hh
    rwa [World.hook?_strandSurface] at hh
  | abandoned w | kept _ _ w | stranded _ _ w =>
    exact World.quiet_of_live?_or (fun _ => .inl rfl) (fun _ _ hh => hh) (List.Subset.refl _) rfl

/-! ## Callbacks stay in check -/

namespace World

variable {w w' : World E R}

theorem KeepsFewer.trans {w'' : World E R} (h : KeepsFewer w w') (h' : KeepsFewer w' w'') :
    KeepsFewer w w'' := by
  constructor
  · intro n s'' hs''
    rcases h'.live n s'' hs'' with hnone | ⟨s', hs', ho'⟩
    · exact .inl hnone
    · rcases h.live n s' hs' with hnone | ⟨s, hs, ho⟩
      · exact .inl (ho'.trans hnone)
      · exact .inr ⟨s, hs, ho'.trans ho⟩
  · exact fun n handler hh => h.hook n handler (h'.hook n handler hh)
  · exact fun id i body hb => h.watchers id i body (h'.watchers id i body hb)

theorem keepsFewer_changeLive {n : Nat} {f : Live E R → Live E R}
    (h : ∀ s, (f s).observers = s.observers) : KeepsFewer w (w.changeLive n f) := by
  constructor
  · intro m s' hs'
    rw [live?_changeLive] at hs'
    split at hs'
    · obtain ⟨s, hs, rfl⟩ := Option.map_eq_some_iff.mp hs'
      exact .inr ⟨s, hs, h s⟩
    · exact .inr ⟨s', hs', rfl⟩
  · intro m handler hh
    rwa [hook?_changeLive] at hh
  · exact fun id i body hb => hb

theorem keepsFewer_changeState {n : Nat} {f : State → State} :
    KeepsFewer w (w.changeState n f) := keepsFewer_changeLive fun _ => rfl

/-- A new surface has no observers, nothing is connected to its hook, and the notifier
knows it by its number. -/
theorem keepsFewer_withFresh (editable : E) (rendered : R) :
    KeepsFewer w (w.withFresh editable rendered) := by
  constructor
  · intro m s' hs'
    rw [live?_withFresh] at hs'
    split at hs'
    · cases hs'
      exact .inl rfl
    · exact .inr ⟨s', hs', rfl⟩
  · intro m handler hh
    rwa [hook?_withFresh] at hh
  · intro id i body hb
    simpa [withFresh] using hb

theorem keepsFewer_refresh [RenderLayer R] {n : Nat} : KeepsFewer w (refresh n w).2 := by
  constructor
  · intro m s' hs'
    rw [live?_refresh] at hs'
    split at hs'
    · obtain ⟨s, hs, rfl⟩ := Option.map_eq_some_iff.mp hs'
      exact .inr ⟨s, hs, rfl⟩
    · exact .inr ⟨s', hs', rfl⟩
  · intro m handler hh
    rwa [hook?_refresh] at hh
  · intro id i body hb
    rwa [notifier_refresh] at hb

variable [EditableLayer E] [RenderLayer R]

theorem keepsFewer_applyLayout {n : Nat} : KeepsFewer w (applyLayout n w).2 := by
  cases h : w.live? n with
  | none =>
    rw [applyLayout_of_none h]
    exact (quiet_of_live?_or (fun _ => .inl rfl) (fun _ _ hh => hh) (List.Subset.refl _)
      rfl).keepsFewer
  | some s =>
    rw [applyLayout_of_some h]
    refine KeepsFewer.trans ?_ keepsFewer_refresh
    constructor
    · intro m s' hs'
      rw [live?_layOut] at hs'
      split at hs'
      · obtain ⟨s, hs, rfl⟩ := Option.map_eq_some_iff.mp hs'
        exact .inr ⟨s, hs, rfl⟩
      · exact .inr ⟨s', hs', rfl⟩
    · intro m handler hh
      rwa [hook?_layOut] at hh
    · exact fun id i body hb => hb

end World

variable [EditableLayer E] [RenderLayer R]

theorem Move.stores {p : Operation E R → Prop} {w w' : World E R} (h : Move p w w')
    (hw : w.Stores p) : w'.Stores p := by
  cases h with
  | quiet h => exact hw.of_keepsFewer h.quiet.keepsFewer
  | shown n f w =>
    rw [World.changeAndShow_apply]
    exact (hw.of_keepsFewer World.keepsFewer_changeState).of_keepsFewer World.keepsFewer_refresh
  | laidOut n f w =>
    exact (hw.of_keepsFewer World.keepsFewer_changeState).of_keepsFewer
      World.keepsFewer_applyLayout
  | created editable rendered w =>
    obtain ⟨f, hcreate⟩ := World.create_world editable rendered w
    rw [hcreate]
    have hfresh := hw.of_keepsFewer (World.keepsFewer_withFresh editable rendered)
    have hentered := hfresh.of_keepsFewer (QuietMove.entered w.slots.length _).quiet.keepsFewer
    have hlaid := hentered.of_keepsFewer (World.keepsFewer_applyLayout (n := w.slots.length))
    have hheld := hlaid.of_keepsFewer (QuietMove.handled w.slots.length f _).quiet.keepsFewer
    exact hheld.of_keepsFewer (QuietMove.left w.slots.length _).quiet.keepsFewer
  | drawn n change w s hp hs => exact hw.of_keepsFewer (World.keepsFewer_changeLive fun _ => rfl)
  | observed n body w hbody =>
    constructor
    · intro m s' hs' body' hbody'
      rw [World.live?_changeLive] at hs'
      split at hs'
      · obtain ⟨s, hs, rfl⟩ := Option.map_eq_some_iff.mp hs'
        rcases List.mem_append.mp hbody' with hold | hnew
        · exact hw.observers m s hs body' hold
        · rw [List.mem_singleton.mp hnew]
          exact hbody
      · exact hw.observers m s' hs' body' hbody'
    · intro m handler hh
      rw [World.hook?_changeLive] at hh
      exact hw.hooks m handler hh
    · exact hw.watchers
  | connected n handler w hhandler =>
    constructor
    · intro m s' hs'
      rw [World.live?_changeSlot_of_live (by intro _; rfl)] at hs'
      exact hw.observers m s' hs'
    · intro m handler' hh
      rw [World.hook?_changeSlot] at hh
      split at hh
      · obtain ⟨slot, -, hslot⟩ := Option.bind_eq_some_iff.mp hh
        rw [← Option.some.inj hslot]
        exact hhandler
      · exact hw.hooks m handler' hh
    · exact hw.watchers
  | subscribed body w hbody =>
    refine ⟨hw.observers, hw.hooks, ?_⟩
    intro id i body' hb
    rcases List.mem_append.mp hb with hold | hnew
    · exact hw.watchers id i body' hold
    · simp only [List.mem_singleton, Prod.mk.injEq, Watcher.observer.injEq] at hnew
      rw [hnew.2.2]
      exact hbody

/-- To be kept by all moves, a property has to be kept by those moves only that occur in
worlds whose callbacks are in check. -/
theorem closed_of_move {p : Operation E R → Prop} {P : World E R → Prop}
    (h : ∀ w w', P w → Move p w w' → P w')
    (hpermits : Permissive p := by
      exact permissive_of_forall (fun _ => trivial) fun _ _ => trivial) :
    Closed p fun w => P w ∧ w.Stores p where
  stores := fun _ hw => hw.2
  permits := hpermits
  move := fun w w' hw hm => ⟨h w w' hw.1 hm, hm.stores hw.2⟩

end Surface
end QueryView
