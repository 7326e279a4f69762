/-
What lasts at every surface.

A turn is about one surface at most, and there are not many things that it can make of one: its
editable layer is written, its render layer is drawn on behind its back, it is shown again, it
is laid out by a setter, or it is new.  A property of surfaces that outlives each of these is
`Lasting`, and it then holds of every surface whenever an operation ends, whatever the operation
ends with (`Operation.run_watched_of_lasting`).  Of the world around a surface the property may know
the layouts that its two layers were given last, which are read off the trace (`World.given`).

To speak of what becomes of surfaces that are there already, and of these only, the property may
also count on the surfaces that come later having higher numbers: there is a number below which
none is new (`World.Every.known`).
-/
import QueryView.Proofs.Surface.Quiet
import QueryView.Proofs.Surface.Writing

namespace QueryView
namespace Surface

variable {E R : Type}

/-! ## Layouts that were given -/

/-- The layout that the event gives to the editable layer of a surface. -/
def Event.editableLayoutOf? (n : Nat) : Event → Option Layout
  | .editableLayout m layout => if m = n then some layout else none
  | _ => none

/-- The layout that the event gives to the render layer of a surface. -/
def Event.renderLayoutOf? (n : Nat) : Event → Option Layout
  | .renderLayout m layout => if m = n then some layout else none
  | _ => none

/-- The layouts that the layers of a surface were given last. -/
structure Given where
  editable : Option Layout
  rendered : Option Layout
  deriving DecidableEq

/-- Both layers were given the same layout. -/
def Given.both (layout : Layout) : Given := ⟨some layout, some layout⟩

namespace World

def given (n : Nat) (w : World E R) : Given where
  editable := (w.trace.filterMap (Event.editableLayoutOf? n)).getLast?
  rendered := (w.trace.filterMap (Event.renderLayoutOf? n)).getLast?

variable {w w' : World E R} {n m : Nat}

theorem given_of_trace_eq (h : w'.trace = w.trace) (n : Nat) : w'.given n = w.given n := by
  rw [given, given, h]

theorem given_of_trace_append {es : List Event} (h : w'.trace = w.trace ++ es) (n : Nat) :
    w'.given n =
      ⟨(es.filterMap (Event.editableLayoutOf? n)).getLast?.or (w.given n).editable,
        (es.filterMap (Event.renderLayoutOf? n)).getLast?.or (w.given n).rendered⟩ := by
  rw [given, h, List.filterMap_append, List.filterMap_append, List.getLast?_append,
    List.getLast?_append, given]

/-- Events that give no layout leave the layouts that were given. -/
theorem given_of_trace_concat {e : Event} (h : w'.trace = w.trace ++ [e])
    (heditable : e.editableLayoutOf? n = none) (hrendered : e.renderLayoutOf? n = none) :
    w'.given n = w.given n := by
  rw [given_of_trace_append h]
  simp [heditable, hrendered]

variable [RenderLayer R]

@[simp] theorem given_refresh : (refresh n w).2.given m = w.given m := by
  cases hs : w.live? n with
  | none => rw [refresh_of_none hs]
  | some s => exact given_of_trace_concat (trace_refresh hs) rfl rfl

theorem given_changeAndShow {f : State → State} :
    (changeAndShow n f w).2.given m = w.given m := by
  rw [changeAndShow_apply, given_refresh]
  exact given_of_trace_eq rfl m

variable [EditableLayer E]

theorem given_applyLayout_self {s : Live E R} (hs : w.live? n = some s) :
    (applyLayout n w).2.given n = .both s.state.layout := by
  rw [applyLayout_of_some hs, given_refresh, given_of_trace_append trace_layOut]
  simp [List.filterMap_cons, Event.editableLayoutOf?, Event.renderLayoutOf?, Given.both]

theorem given_applyLayout_of_ne (hne : n ≠ m) : (applyLayout n w).2.given m = w.given m := by
  cases hs : w.live? n with
  | none => rw [applyLayout_of_none hs]
  | some s =>
    rw [applyLayout_of_some hs, given_refresh, given_of_trace_append trace_layOut]
    simp [List.filterMap_cons, Event.editableLayoutOf?, Event.renderLayoutOf?, hne]

theorem given_create (editable : E) (rendered : R) (m : Nat) :
    (create editable rendered w).2.given m =
      if w.slots.length = m then .both .standard else w.given m := by
  obtain ⟨f, hcreate⟩ := create_world editable rendered w
  have hfresh : ((w.withFresh editable rendered).enter w.slots.length).live? w.slots.length =
      some (w.fresh editable rendered) := by
    rw [live?_enter, live?_withFresh, if_pos rfl]
  rw [hcreate, given_of_trace_eq trace_leave, given_of_trace_eq trace_changeSlot]
  split
  · next hm =>
    subst hm
    exact given_applyLayout_self hfresh
  · next hm =>
    rw [given_applyLayout_of_ne hm]
    exact given_of_trace_eq rfl m

end World

/-! ## Properties that last -/

/-- A property of surfaces with numbers that outlives everything that a turn makes of one, in a
run whose operations satisfy `p`, and that every new surface has whose number is `k` at least. -/
structure Lasting [EditableLayer E] [RenderLayer R] (p : Operation E R → Prop) (k : Nat)
    (Q : Nat → Given → Live E R → Prop) : Prop where
  permits : Permissive p := by exact permissive_of_forall (fun _ => trivial) fun _ _ => trivial
  /-- Of flags, observers and subscriptions the property is not. -/
  aside : ∀ n g s suppressing observers subscription, Q n g s →
    Q n g { s with suppressing, observers, subscription }
  written : ∀ n g s change, Alters p n change → Q n g s →
    Q n g { s with editable := (change s.editable).1 }
  drawn : ∀ n g s change, p (.on n (.renderLayer change)) → Q n g s →
    Q n g { s with rendered := (change s.rendered).1 }
  shown : ∀ n g s state, state.layout = s.state.layout → Q n g s →
    Q n g (World.rendering { s with state })
  laidOut : ∀ n g s change layout, p (.on n (.changeLayout change)) →
    layout = change.apply s.state.layout → Q n g s →
    Q n (.both layout)
      (World.rendering (World.laying layout { s with state := { s.state with layout } }))
  created : ∀ n editable rendered (w : World E R), k ≤ n →
    Q n (.both .standard)
      (World.rendering (World.laying .standard (w.fresh editable rendered)))

/-- Every surface has the property, and those with numbers below `k` are not new. -/
structure World.Every (k : Nat) (Q : Nat → Given → Live E R → Prop) (w : World E R) : Prop where
  known : k ≤ w.slots.length
  surface : ∀ n s, w.live? n = some s → Q n (w.given n) s

variable {p : Operation E R → Prop} {k : Nat} {Q : Nat → Given → Live E R → Prop}
  {w w' : World E R}

theorem World.every_initial (theme : Theme) : (World.initial theme : World E R).Every 0 Q where
  known := Nat.zero_le _
  surface := fun n s hs => by simp [World.initial, live?] at hs

/-- One surface is changed, and no layout is given. -/
theorem World.Every.changeLive_surface (hw : w.Every k Q) {n m : Nat} {f : Live E R → Live E R}
    (hf : ∀ s, w.live? n = some s → Q n (w.given n) s → Q n (w.given n) (f s))
    {s' : Live E R} (hs' : (w.changeLive n f).live? m = some s') :
    Q m ((w.changeLive n f).given m) s' := by
  rw [given_of_trace_eq trace_changeLive]
  rw [live?_changeLive] at hs'
  split at hs'
  · next hm =>
    subst hm
    obtain ⟨s, hs, rfl⟩ := Option.map_eq_some_iff.mp hs'
    exact hf s hs (hw.surface n s hs)
  · exact hw.surface m s' hs'

theorem themed_every (theme : Theme) :
    Themed (fun (_ : Unit) (w : World E R) => w.Stores p ∧ w.Every k Q) theme where
  withTheme := fun _ _ hw => ⟨hw.1.withTheme theme, hw.2.known, hw.2.surface⟩
  called := fun i _ w hw => by
    refine ⟨hw.1.record _, hw.2.known, fun n s hs => ?_⟩
    rw [World.given_of_trace_concat World.trace_record rfl rfl]
    exact hw.2.surface n s hs

/-! ## What a turn makes of a surface -/

variable [EditableLayer E] [RenderLayer R]

theorem World.Every.changeAndShow_surface (hQ : Lasting p k Q) (hw : w.Every k Q) {n m : Nat}
    {f : State → State} (hf : ∀ s, (f s).layout = s.layout) {s' : Live E R}
    (hs' : (changeAndShow n f w).2.live? m = some s') :
    Q m ((changeAndShow n f w).2.given m) s' := by
  rw [given_changeAndShow]
  rw [live?_changeAndShow] at hs'
  split at hs'
  · obtain ⟨s, hs, rfl⟩ := Option.map_eq_some_iff.mp hs'
    exact hQ.shown m _ s (f s.state) (hf s.state) (hw.surface m s hs)
  · exact hw.surface m s' hs'

theorem Aside.surface (hQ : Lasting p k Q) (h : Aside p w w') (hw : w.Every k Q) {m : Nat}
    {s' : Live E R} (hs' : w'.live? m = some s') : Q m (w'.given m) s' := by
  cases h with
  | noted words w =>
    rw [World.given_of_trace_concat World.trace_record rfl rfl]
    exact hw.surface m s' hs'
  | told n i t w =>
    rw [World.given_of_trace_concat World.trace_record rfl rfl]
    exact hw.surface m s' hs'
  | written n change w s halters hs =>
    refine hw.changeLive_surface (fun s₁ hs₁ hholds => ?_) hs'
    cases hs.symm.trans hs₁
    exact hQ.written n _ s change halters hholds
  | drawn n change w s hp hs =>
    refine hw.changeLive_surface (fun s₁ hs₁ hholds => ?_) hs'
    cases hs.symm.trans hs₁
    exact hQ.drawn n _ s change hp hholds
  | observed n body w _ =>
    exact hw.changeLive_surface (fun s _ hholds => hQ.aside n _ s _ _ _ hholds) hs'
  | connected | disconnected | handled =>
    rw [World.given_of_trace_eq World.trace_changeSlot]
    rw [World.live?_changeSlot_of_live (by intro _; rfl)] at hs'
    exact hw.surface m s' hs'
  | entered n w =>
    rw [World.live?_enter] at hs'
    exact hw.surface m s' hs'
  | kept | abandoned => exact hw.surface m s' hs'

theorem Turn.surface (hQ : Lasting p k Q) (h : Turn p w w') (hw : w.Every k Q) {m : Nat}
    {s' : Live E R} (hs' : w'.live? m = some s') : Q m (w'.given m) s' := by
  cases h with
  | aside h => exact h.surface hQ hw hs'
  | shown n f w _ hlayout => exact hw.changeAndShow_surface hQ hlayout hs'
  | followed n w _ =>
    rw [World.followTheme_apply] at hs' ⊢
    refine hw.changeAndShow_surface hQ ?_ hs'
    exact fun _ => rfl
  | laidOut n change w hp =>
    rw [World.live?_applyLayout] at hs'
    split at hs'
    · next hnm =>
      subst hnm
      obtain ⟨s₁, hs₁, rfl⟩ := Option.map_eq_some_iff.mp hs'
      rw [World.given_applyLayout_self hs₁]
      rw [World.changeState, World.live?_changeLive, if_pos rfl] at hs₁
      obtain ⟨s, hs, rfl⟩ := Option.map_eq_some_iff.mp hs₁
      exact hQ.laidOut n _ s change _ hp rfl (hw.surface n s hs)
    · next hnm =>
      rw [World.given_applyLayout_of_ne hnm, World.changeState,
        World.given_of_trace_eq World.trace_changeLive]
      rw [World.changeState, World.live?_changeLive, if_neg hnm] at hs'
      exact hw.surface m s' hs'
  | created editable rendered w =>
    rw [World.given_create]
    rcases World.live?_create hs' with hs | ⟨rfl, rfl⟩
    · rw [if_neg (Nat.ne_of_gt (World.lt_length_of_live? hs))]
      exact hw.surface m s' hs
    · rw [if_pos rfl]
      exact hQ.created _ editable rendered w hw.known
  | left n w =>
    rw [World.given_of_trace_eq World.trace_leave]
    rcases World.live?_leave (w := w) (n := n) (m := m) with hleave | hleave
    · exact hw.surface m s' (hleave ▸ hs')
    · rw [hleave] at hs'
      cases hs'
  | released n w =>
    rw [World.given_of_trace_eq World.trace_unsubscribeSurface]
    rw [World.live?_unsubscribeSurface] at hs'
    split at hs'
    · obtain ⟨s, hs, rfl⟩ := Option.map_eq_some_iff.mp hs'
      exact hQ.aside m _ s s.suppressing s.observers none (hw.surface m s hs)
    · exact hw.surface m s' hs'
  | strandedSurface n w _ _ =>
    rcases World.live?_strandSurface_or (w := w) (n := n) (m := m) with hstays | hgone
    · exact hw.surface m s' (hstays ▸ hs')
    · rw [hgone] at hs'
      cases hs'
  | subscribed | unsubscribed | stranded => exact hw.surface m s' hs'

theorem Turn.every (hQ : Lasting p k Q) (h : Turn p w w') (hw : w.Every k Q) : w'.Every k Q where
  known := Nat.le_trans hw.known h.length_slots_le
  surface := fun _ _ hs' => h.surface hQ hw hs'

/-! ## Runs -/

/-- What lasts is walked, along with the condition that keeps callbacks in check. -/
theorem Lasting.walked (hQ : Lasting p k Q) :
    Walked False p fun (_ : Unit) (w : World E R) => w.Stores p ∧ w.Every k Q where
  stores := fun _ _ hw => hw.1
  owned := fun _ _ _ _ => hQ.permits.own
  tells := tells_of_follows hQ.permits.follow
  turn := fun _ _ _ hw h => ⟨h.move.stores hw.1, h.every hQ hw.2⟩
  write := fun {_} n {_ _} h => Action.matches_suppressing h fun _ w on hw => by
    have hmove : Move p w (w.setSuppressing n on) := .quiet (.suppressed n on w)
    refine ⟨hmove.stores hw.1, ⟨?_, fun m s' hs' => ?_⟩⟩
    · rw [World.setSuppressing, World.length_changeLive]
      exact hw.2.known
    · exact hw.2.changeLive_surface (fun s _ hholds => hQ.aside n _ s on _ _ hholds) hs'

namespace Operation

open World

/-- The callbacks that a program leaves behind are those of its operations. -/
theorem stores_of_program (hpermits : Permissive p) (theme : Theme) (depth : Nat)
    (program : Script E R) (hprogram : program.Throughout p) :
    (program.run (run depth) (World.initial theme)).2.Stores p := by
  have hclosed : Closed p fun w : World E R => True ∧ w.Stores p :=
    closed_of_move (fun _ _ _ _ => trivial) hpermits
  exact (kept_by_script (i := ()) hclosed.walked hclosed.themed
    ⟨trivial, stores_initial p theme⟩ depth program hprogram).2

/-- An operation leaves at every surface what lasts. -/
theorem every_of_run (hQ : Lasting p k Q)
    (depth : Nat) {op : Operation E R} (hop : op.Throughout p) {w : World E R}
    (hstores : w.Stores p) (hw : w.Every k Q) : (run depth op w).2.Every k Q :=
  ((matches_run hQ.walked themed_every depth op hop w () ⟨hstores, hw⟩
    False.elim).2).2

/-- What lasts holds of every surface at the end of a program. -/
theorem every_of_program (hQ : Lasting p 0 Q)
    (theme : Theme) (depth : Nat) (program : Script E R) (hprogram : program.Throughout p) :
    (program.run (run depth) (World.initial theme)).2.Every 0 Q :=
  (kept_by_script (i := ()) hQ.walked themed_every
    ⟨stores_initial p theme, every_initial theme⟩ depth program hprogram).2

/-- It holds at the end of every operation, too: whoever watches the ends of all operations, nested
ones included, and does something only where it does not hold, never does anything. -/
theorem run_watched_of_lasting (hQ : Lasting p 0 Q)
    (theme : Theme) (depth : Nat) (program : Script E R) (hprogram : program.Throughout p)
    (watch : World E R → World E R) (hwatch : ∀ w, w.Every 0 Q → watch w = w) :
    program.run (watched watch depth) (World.initial theme) =
      program.run (run depth) (World.initial theme) := by
  have hwalked := hQ.walked
  have hmatches := matches_script hwalked
    (matches_watched hwalked themed_every (fun w hw => hwatch w hw.2) depth) program hprogram
  have hstart : (World.initial theme : World E R).Stores p ∧
      (World.initial theme : World E R).Every 0 Q := ⟨stores_initial p theme, every_initial theme⟩
  exact (hmatches (World.initial theme) () hstart False.elim).1

end Operation
end Surface
end QueryView
