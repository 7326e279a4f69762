/-
Everything that can happen to a world between two callbacks.

A run of an operation is a sequence of turns, of changes of the theme, and of echo flags that
are raised and given back.  `Turn p` lists what may happen in a turn, with the condition `p`
on the operations that may occur.  A change of a surface's state and the display of the
result are one turn, because no callback runs between the two.  The list says what becomes of
the theme of a surface, which is the one that it had or that of the notifier, and of a
subscription, which is given back by the one who has it.  An editable layer is changed by a
write or by an operation that asks for it, a layout by a setter, and observers of themes are
not called.

A property of worlds is `Carried` if it keeps the callbacks of a world in check and every turn
keeps it.  Then every operation keeps it that neither writes an editable layer nor changes the
theme (`matches_answer_of_not_writes`, `matches_step_of_not_on`), and the change of the theme
does if the property survives a new theme and the calls of observers (`Themed`,
`matches_setTheme`).  It is `Walked` if moreover a write keeps it whenever what happens in the
write does, and then every operation keeps it but the change of the theme (`matches_step`).
This is the one place where the text of the operations is gone through; whatever is shown of
all runs starts from here.

Some properties do not survive a new theme.  For these `Operation.runWith` takes what is made
of a change of the theme as a parameter, and `matches_runWith` carries what is shown of it
through the nesting.
-/
import QueryView.Proofs.Surface.Callback
import QueryView.Proofs.Surface.Match
import QueryView.Proofs.Surface.Shown

namespace QueryView
namespace Surface

variable {E R : Type}

/-! ## Turns -/

/-- The editable layer of a surface may be changed in this way: by a write, or by an operation
that satisfies `p`. -/
def Alters [EditableLayer E] (p : Operation E R → Prop) (n : Nat) (change : E → E × List Text) :
    Prop :=
  (∃ t, change = fun e => EditableLayer.write e t) ∨ p (.on n (.editLayer change))

/-- Something may be handed over to callbacks. -/
def MayOwn (p : Operation E R → Prop) : Prop := ∃ i belonging, p (.entrust i belonging)

/-- A condition on operations that lets surfaces follow the theme and callbacks own something. -/
structure Permissive (p : Operation E R → Prop) : Prop where
  follow : ∀ n, p (.on n .followTheme)
  own : MayOwn p

theorem permissive_of_forall {p : Operation E R → Prop} (hfollow : ∀ n, p (.on n .followTheme))
    (hentrust : ∀ i belonging, p (.entrust i belonging)) : Permissive p :=
  ⟨hfollow, 0, .handle 0, hentrust 0 (.handle 0)⟩

/-- A step of a world that changes nothing of what surfaces show and are subscribed to. -/
inductive Aside [EditableLayer E] (p : Operation E R → Prop) : World E R → World E R → Prop where
  | noted (words w) : Aside p w (w.record (.note words))
  | told (n i t w) : Aside p w (w.record (.edited n i t))
  /-- The editable layer is not the one it was. -/
  | written (n change w s) (h : Alters p n change) (hs : w.live? n = some s) :
      Aside p w (w.changeLive n fun s' => { s' with editable := (change s.editable).1 })
  /-- The render layer was changed behind the surface's back. -/
  | drawn (n change w s) (h : p (.on n (.renderLayer change))) (hs : w.live? n = some s) :
      Aside p w (w.changeLive n fun s' => { s' with rendered := (change s.rendered).1 })
  | observed (n body w) (h : ∀ t, (body t).Throughout p) :
      Aside p w (w.changeLive n fun s => { s with observers := s.observers ++ [body] })
  | connected (n handler w) (h : handler.Throughout p) :
      Aside p w (w.changeSlot n fun slot => { slot with hook := some handler })
  | disconnected (n w) : Aside p w (w.changeSlot n fun slot => { slot with hook := none })
  /-- The number of handles to a surface is not what it was. -/
  | handled (n) (f : Nat → Nat) (w) :
      Aside p w (w.changeSlot n fun slot => { slot with handles := f slot.handles })
  | entered (n w) : Aside p w (w.enter n)
  /-- Callbacks own something else, or changes of the theme go on with others. -/
  | kept (belongings rounds w)
      (h : ∀ b ∈ belongings, b ∈ w.belongings ∨ p (.entrust b.1 b.2)) :
      Aside p w { w with belongings, rounds }
  | abandoned (w) : Aside p w { w with notifier := { w.notifier with held := false } }

/-- A step of a world in which nobody changes the theme, in a run whose operations satisfy
`p`. -/
inductive Turn [EditableLayer E] [RenderLayer R] (p : Operation E R → Prop) :
    World E R → World E R → Prop where
  | aside {w w'} (h : Aside p w w') : Turn p w w'
  /-- A state is changed, but for its theme and its layout, and shown. -/
  | shown (n f w) (hf : ∀ s, (f s).theme = s.theme) (hlayout : ∀ s, (f s).layout = s.layout) :
      Turn p w (World.changeAndShow n f w).2
  /-- A surface takes the theme of the notifier, and is shown. -/
  | followed (n w) (h : p (.on n .followTheme)) : Turn p w (World.followTheme n w).2
  /-- The layout of a state is changed, given to both layers, and shown. -/
  | laidOut (n change w) (h : p (.on n (.changeLayout change))) :
      Turn p w (World.applyLayout n (w.changeState n fun s =>
        { s with layout := change.apply s.layout })).2
  | created (editable rendered w) : Turn p w (World.create editable rendered w).2
  | left (n w) : Turn p w (w.leave n)
  | released (n w) : Turn p w (w.unsubscribeSurface n)
  | subscribed (body w) (h : ∀ theme, (body theme).Throughout p) : Turn p w (w.subscribe body)
  | unsubscribed (i id w) (h : w.subscriptions[i]? = some (some id)) :
      Turn p w (w.unsubscribe i id)
  /-- A subscription goes, and its observer stays. -/
  | stranded (i id w) (h : w.subscriptions[i]? = some (some id)) (howned : MayOwn p) :
      Turn p w (w.strand i id)
  /-- A surface goes that nobody holds, and its observer stays. -/
  | strandedSurface (n w) (h : w.isHeld n = false) (howned : MayOwn p) :
      Turn p w (w.strandSurface n)

namespace World

/-- The two worlds show the same, in the same themes, and have the same subscriptions. -/
structure Still (w w' : World E R) : Prop where
  live : ∀ n s', w'.live? n = some s' → ∃ s, w.live? n = some s ∧ s'.state = s.state ∧
    s'.runs = s.runs ∧ s'.subscription = s.subscription
  theme : w'.notifier.theme = w.notifier.theme
  observers : w'.notifier.observers = w.notifier.observers
  nextId : w'.notifier.nextId = w.notifier.nextId
  subscriptions : w'.subscriptions = w.subscriptions
  stranded : w'.stranded = w.stranded

/-- The world with another theme, of which nobody has been told. -/
def withTheme (theme : Theme) (w : World E R) : World E R :=
  { w with notifier := { w.notifier with theme } }

variable {w : World E R}

theorem Stores.withTheme {p : Operation E R → Prop} (h : w.Stores p) (theme : Theme) :
    (w.withTheme theme).Stores p := ⟨h.observers, h.hooks, h.watchers⟩

theorem Stores.record {p : Operation E R → Prop} (h : w.Stores p) (e : Event) :
    (w.record e).Stores p := ⟨h.observers, h.hooks, h.watchers⟩

theorem Still.refl (w : World E R) : Still w w :=
  ⟨fun _ s' hs' => ⟨s', hs', rfl, rfl, rfl⟩, rfl, rfl, rfl, rfl, rfl⟩

theorem still_record (e : Event) : Still w (w.record e) := { Still.refl w with }

theorem still_keep (belongings : List (Nat × Belonging))
    (rounds : List (List (Nat × Watcher E R))) : Still w { w with belongings, rounds } :=
  { Still.refl w with }

theorem still_changeLive (n : Nat) {f : Live E R → Live E R} (h : ∀ s, (f s).state = s.state ∧
    (f s).runs = s.runs ∧ (f s).subscription = s.subscription) : Still w (w.changeLive n f) := by
  refine ⟨fun m s' hs' => ?_, rfl, rfl, rfl, rfl, rfl⟩
  rw [live?_changeLive] at hs'
  split at hs'
  · obtain ⟨s, hs, rfl⟩ := Option.map_eq_some_iff.mp hs'
    exact ⟨s, hs, h s⟩
  · exact ⟨s', hs', rfl, rfl, rfl⟩

theorem still_changeSlot (n : Nat) {f : Slot E R → Slot E R}
    (h : ∀ slot, (f slot).live = slot.live) : Still w (w.changeSlot n f) := by
  refine ⟨fun m s' hs' => ?_, rfl, rfl, rfl, rfl, rfl⟩
  rw [live?_changeSlot_of_live h] at hs'
  exact ⟨s', hs', rfl, rfl, rfl⟩

end World

theorem Aside.still [EditableLayer E] {p : Operation E R → Prop} {w w' : World E R}
    (h : Aside p w w') :
    World.Still w w' := by
  cases h with
  | noted | told => exact World.still_record _
  | written | drawn | observed => exact World.still_changeLive _ fun _ => ⟨rfl, rfl, rfl⟩
  | connected | disconnected | handled | entered => exact World.still_changeSlot _ fun _ => rfl
  | abandoned w => exact { World.Still.refl w with }
  | kept => exact World.still_keep _ _

/-- A surface that is asked for it writes its editable layer itself. -/
def Request.Writes : Request E R → Prop
  | .setText _ | .typeText _ => True
  | _ => False

/-! ## What operations are made of

Two meanings that match on the operations that may occur make everything match that is
defined from them. -/

open Surface.Action

/-- Properties that every turn keeps. -/
structure Carried [EditableLayer E] [RenderLayer R] {ι : Type} (p : Operation E R → Prop)
    (P : ι → World E R → Prop) : Prop where
  stores : ∀ i w, P i w → w.Stores p
  /-- What callbacks own was handed over to them. -/
  owned : ∀ i w, P i w → w.belongings ≠ [] → MayOwn p := by
    exact fun _ _ _ _ => ⟨0, .handle 0, trivial⟩
  turn : ∀ i w w', P i w → Turn p w w' → P i w'

/-- Whichever surface is on the list may be told of a theme, which makes it follow the theme, or
it is gone for good, as one of the properties says. -/
def Tells {ι : Type} (p : Operation E R → Prop) (P : ι → World E R → Prop) : Prop :=
  ∀ i w, P i w → ∃ j, P j w ∧ (∀ w', P j w' → P i w') ∧
    ∀ id n, (id, .surface n) ∈ w.notifier.observers →
      p (.on n .followTheme) ∨ ∀ w', P j w' → w'.live? n = none

theorem tells_of_follows {ι : Type} {p : Operation E R → Prop} {P : ι → World E R → Prop}
    (h : ∀ n, p (.on n .followTheme)) : Tells p P :=
  fun i _ hw => ⟨i, hw, fun _ hw' => hw', fun _ n _ => .inl (h n)⟩

/-- Properties that survive a change of the theme: nobody has been told of it at first, and
then the observers are called. -/
structure Themed {ι : Type} (P : ι → World E R → Prop) (theme : Theme) : Prop where
  withTheme : ∀ i w, P i w → P i (w.withTheme theme)
  called : ∀ k i w, P i w → P i (w.record (.themed k theme))

/-- Properties that what happens in a run keeps, but for changes of the theme. -/
structure Walked [EditableLayer E] [RenderLayer R] {ι : Type} (lenient : Prop)
    (p : Operation E R → Prop) (P : ι → World E R → Prop) : Prop extends Carried p P where
  tells : Tells p P := by exact tells_of_follows fun _ => trivial
  write : ∀ {α : Type} (n : Nat) {a b : Action E R α}, Matches lenient P a b →
    Matches lenient P (suppressing n a) (suppressing n b)

/-- What turns keep is walked if it is not about echo flags, and then no condition on
operations is needed. -/
theorem walked_of_still [EditableLayer E] [RenderLayer R] {ι : Type} {lenient : Prop}
    {P : ι → World E R → Prop}
    (hturn : ∀ i w w', P i w → Turn (fun _ => True) w w' → P i w')
    (hstill : ∀ i w w', P i w → World.Still w w' → P i w') :
    Walked lenient (fun _ => True) P where
  stores := fun _ w _ => w.stores_true
  turn := hturn
  write := fun {_} n {_ _} h => matches_suppressing h fun i w _ hw =>
    hstill i w _ hw (World.still_changeLive n fun _ => ⟨rfl, rfl, rfl⟩)

namespace World

variable [EditableLayer E] [RenderLayer R] {lenient : Prop} {p : Operation E R → Prop} {ι : Type}
  {P : ι → World E R → Prop} {m m' : Meaning E R}

section
variable (hP : Carried p P)
include hP

theorem matches_turn {f : World E R → World E R} (h : ∀ w, Turn p w (f w)) :
    Matches lenient P (modify f : Action E R PUnit) (modify f) :=
  matches_modify fun i w hw => hP.turn i w _ hw (h w)

theorem matches_aside {f : World E R → World E R} (h : ∀ w, Aside p w (f w)) :
    Matches lenient P (modify f : Action E R PUnit) (modify f) :=
  matches_turn hP fun w => .aside (h w)

theorem matches_holding_of_carried {α : Type} {n : Nat} {a b : Action E R α}
    (h : Matches lenient P a b) : Matches lenient P (holding n a) (holding n b) :=
  matches_holding h (fun i w hw => hP.turn i w _ hw (.aside (.entered n w)))
    fun i w hw => hP.turn i w _ hw (.left n w)

theorem matches_changeAndShow (n : Nat) {f : State → State} (hf : ∀ s, (f s).theme = s.theme)
    (hlayout : ∀ s, (f s).layout = s.layout) :
    Matches lenient P (changeAndShow n f : Action E R _) (changeAndShow n f) :=
  matches_self fun i w hw => hP.turn i w _ hw (.shown n f w hf hlayout)

theorem matches_followTheme {n : Nat} (h : p (.on n .followTheme)) :
    Matches lenient P (followTheme n : Action E R _) (followTheme n) :=
  matches_self fun i w hw => hP.turn i w _ hw (.followed n w h)

/-! ### What callbacks own

None of this calls anybody, so it keeps properties whatever operations mean. -/

theorem matches_rounds (f : World E R → List (List (Nat × Watcher E R))) :
    Matches lenient P (modify fun w => { w with rounds := f w } : Action E R PUnit)
      (modify fun w => { w with rounds := f w }) :=
  matches_aside hP fun w => .kept w.belongings _ w fun _ hb => .inl hb

theorem matches_dropBorrowed (howned : MayOwn p) (b : Belonging) :
    Matches lenient P (dropBorrowed b : Action E R Unit) (dropBorrowed b) := by
  cases b with
  | subscription i =>
    refine matches_get_bind fun w => ?_
    split
    · exact matches_pure _ w
    · next id hid =>
      intro k hw _
      exact ⟨rfl, hP.turn k w _ hw (.stranded i id w (subscriptions_of_held? hid) howned)⟩
  | handle n =>
    refine matches_get_bind fun w => matches_ite (matches_pure _) ?_ w
    refine matches_bind (matches_aside hP fun w => .handled n (· - 1) w) fun _ => ?_
    refine matches_get_bind fun w => ?_
    split
    · exact matches_pure _ w
    · next hheld =>
      refine matchesAt_modify_bind (fun k hw => hP.turn k w _ hw ?_) ?_
      · exact .strandedSurface n w (Bool.not_eq_true _ ▸ hheld) howned
      · exact matches_ite (matches_throw _) (matches_pure _) _

/-- A callback that owns nothing drops nothing, so there is somebody who may own something if
it does. -/
theorem matches_retire {drop : Belonging → Action E R Unit}
    (hdrop : MayOwn p → ∀ b, Matches lenient P (drop b) (drop b)) (i : Nat) :
    Matches lenient P (retire drop i) (retire drop i) := by
  refine matches_get_bind fun w k hw => matches_ite (matches_pure _) ?_ w k hw
  refine matches_bind (matches_aside hP fun w => .kept _ w.rounds w fun b hb => ?_) fun _ => ?_
  · exact .inl (List.mem_filter.mp hb).1
  · by_cases hnone : w.belongings = []
    · rw [belongingsOf, hnone]
      exact matches_pure _
    · exact matches_dropEach (hdrop (hP.owned k w hw hnone))

/-- The number is that of a subscription in this world, and need not be in another. -/
theorem matchesAt_giveBack {i id : Nat} {w : World E R}
    (h : w.subscriptions[i]? = some (some id)) :
    MatchesAt lenient P (giveBack i id) (giveBack i id) w := by
  refine matchesAt_modify_bind (fun k hw => hP.turn k w _ hw (.unsubscribed i id w h)) ?_
  refine matches_get_bind (fun w' => matches_ite ?_ (matches_pure _) w') _
  exact matches_retire hP (matches_dropBorrowed hP) i

theorem matches_dropOwned (b : Belonging) :
    Matches lenient P (dropOwned b : Action E R Unit) (dropOwned b) := by
  cases b with
  | subscription i =>
    refine matches_get_bind fun w => ?_
    split
    · exact matches_pure _ w
    · next id hid => exact matchesAt_giveBack hP (subscriptions_of_held? hid)
  | handle n =>
    refine matches_get_bind fun w => matches_ite (matches_pure _) ?_ w
    exact matches_holding_of_carried hP (matches_aside hP fun w => .handled n (· - 1) w)

theorem matches_letGo (x : Nat × Watcher E R) :
    Matches lenient P (letGo x) (letGo x) := by
  refine matches_bind (matches_rounds hP _) fun _ => ?_
  obtain ⟨-, n | ⟨i, body⟩⟩ := x
  · exact matches_pure _
  · exact matches_retire hP (fun _ => matches_dropOwned hP) i

/-- Whatever calling a watcher keeps is kept by calling one after the other. -/
theorem matches_callInTurn {call call' : Nat × Watcher E R → Action E R Unit}
    {watchers : List (Nat × Watcher E R)}
    (h : ∀ x ∈ watchers, Matches lenient P (call x) (call' x)) :
    Matches lenient P (callInTurn call watchers) (callInTurn call' watchers) :=
  matches_forM fun x hx => matches_bind (h x hx) fun _ => matches_letGo hP x

theorem matches_round {call call' : Nat × Watcher E R → Action E R Unit}
    {watchers : List (Nat × Watcher E R)}
    (h : ∀ x ∈ watchers, Matches lenient P (call x) (call' x)) :
    Matches lenient P (round call watchers) (round call' watchers) := by
  refine matches_bind (matches_rounds hP _) fun _ => ?_
  refine matches_andFinally (matches_unwinding ?_ ?_) fun i w hw =>
    hP.turn i w _ hw (.aside (.kept w.belongings _ w fun _ hb => .inl hb))
  · exact matches_callInTurn hP h
  · exact matches_get_bind fun w => matches_dropEach (fun x => matches_letGo hP x) w

variable (hm : ∀ op, op.Throughout p → Matches lenient P (m op) (m' op))
include hm

/-- The recursion is on the body of the callback, since a callback may go on in any way
after what it sees and is answered. -/
theorem matches_script_of_carried :
    ∀ s : Script E R, s.Throughout p → Matches lenient P (s.run m) (s.run m')
  | .done, _ => matches_pure _
  | .panic _, _ => matches_throw _
  | .note words next, h => by
    have hnext : next.Throughout p := by simpa only [Script.Throughout] using h
    exact matches_bind (matches_aside hP fun w => .noted words w) fun _ =>
      matches_script_of_carried next hnext
  | .look next, h => by
    simp only [Script.Throughout] at h
    exact matches_get_bind fun w => matches_script_of_carried (next w.snapshot) (h _) w
  | .perform op next, h => by
    simp only [Script.Throughout] at h
    exact matches_bind (hm op h.1) fun reply => matches_script_of_carried (next reply) (h.2 reply)
  | .attempt op next, h => by
    simp only [Script.Throughout] at h
    exact matches_bind (matches_catching (hm op h.1)) fun outcome =>
      matches_script_of_carried (next outcome) (h.2 outcome)

theorem matches_notifyObservers (n : Nat) (t : Text) :
    Matches lenient P (notifyObservers m n t) (notifyObservers m' n t) := by
  refine matches_get_bind fun w i hw => matches_forM (fun x hx => ?_) w i hw
  refine matches_bind (matches_aside hP fun w => .told n x.2 t w) fun _ =>
    matches_script_of_carried hP hm _ ?_
  have hbody : x.1 ∈ ((w.live? n).map Live.observers).getD [] := by
    obtain ⟨-, hi⟩ := List.mem_zipIdx' hx
    exact hi ▸ List.getElem_mem _
  cases hs : w.live? n with
  | none => simp [hs] at hbody
  | some s =>
    rw [hs] at hbody
    exact (hP.stores i w hw).observers n s hs _ hbody t

theorem matches_takeEdit (n : Nat) (t : Text) :
    Matches lenient P (takeEdit m n t) (takeEdit m' n t) := by
  refine matches_get_bind fun w => matches_ite (matches_pure _) ?_ w
  refine matches_bind (matches_changeAndShow hP n (fun _ => rfl) fun _ => rfl) fun shown => ?_
  exact matches_bind (matches_notifyObservers hP hm n t) fun _ => matches_pure _

theorem matches_report (n : Nat) (t : Text) :
    Matches lenient P (report m n t) (report m' n t) := by
  refine matches_get_bind fun w => ?_
  split
  · exact matches_pure _ w
  · next body hbody =>
    intro i hw
    have h := (hP.stores i w hw).hooks n _ hbody
    simp only [Handler.Throughout] at h
    exact matches_script_of_carried hP hm (body t) (h t) w i hw
  · next k _ =>
    refine matches_get_bind (fun w' => matches_ite ?_ (matches_pure _) w') w
    refine matches_holding_of_carried hP ?_
    exact matches_bind (matches_takeEdit hP hm k t) fun _ => matches_pure _

theorem matches_editLayer {n : Nat} {change : E → E × List Text} (h : Alters p n change) :
    Matches lenient P (editLayer m n change) (editLayer m' n change) := by
  refine matches_get_bind fun w => ?_
  split
  · exact matches_pure _ w
  · next s hs =>
    -- The surface is this one in this world, and need not be in another.
    intro i hw hends
    simp only [bind_apply, modify_apply] at hends ⊢
    exact matches_forM (fun t _ => matches_report hP hm n t) _ i
      (hP.turn i w _ hw (.aside (.written n change w s h hs))) hends

/-- What is asked of a surface other than to write its editable layer. -/
theorem matches_answer_of_not_writes {n : Nat} {request : Request E R} (hwrites : ¬ request.Writes)
    (h : (Operation.on n request).Throughout p) :
    Matches lenient P (answer m n request) (answer m' n request) := by
  simp only [Operation.Throughout] at h
  cases request with
  | setText t => exact absurd trivial hwrites
  | typeText t => exact absurd trivial hwrites
  | edited t => exact matches_bind (matches_takeEdit hP hm n t) fun _ => matches_pure _
  | setLanguage language =>
    exact matches_bind (matches_changeAndShow hP n (fun _ => rfl) fun _ => rfl) fun _ =>
      matches_pure _
  | setPlainTextColor color =>
    exact matches_bind (matches_changeAndShow hP n (fun _ => rfl) fun _ => rfl) fun _ =>
      matches_pure _
  | followTheme => exact matches_bind (matches_followTheme hP h.1) fun _ => matches_pure _
  | changeLayout change =>
    -- The state has its new layout before the layers have it, so this is one turn.
    refine matches_self fun i w hw => ?_
    have hturn := hP.turn i w _ hw (.laidOut n change w h.1)
    simp only [answer, bind_apply, modify_apply]
    rcases happly : applyLayout n (w.changeState n fun s =>
      { s with layout := change.apply s.layout }) with ⟨_ | _, w'⟩
    all_goals
      rw [happly] at hturn
      exact hturn
  | observe body =>
    have hbody : ∀ t, (body t).Throughout p := by simpa only [Request.Throughout] using h.2
    exact matches_bind (matches_aside hP fun w => .observed n body w hbody) fun _ =>
      matches_pure _
  | editLayer change =>
    exact matches_bind (matches_editLayer hP hm (.inr h.1)) fun _ => matches_pure _
  | renderLayer change =>
    refine matches_get_bind fun w i hw _ => ?_
    cases hs : w.live? n with
    | none => exact ⟨rfl, hw⟩
    | some s => exact ⟨rfl, hP.turn i w _ hw (.aside (.drawn n change w s h.1 hs))⟩
  | connect handler =>
    have hhandler : handler.Throughout p := by simpa only [Request.Throughout] using h.2
    exact matches_bind (matches_aside hP fun w => .connected n handler w hhandler) fun _ =>
      matches_pure _
  | dispose => exact matches_bind (matches_turn hP fun w => .released n w) fun _ => matches_pure _
  | clone =>
    exact matches_bind (matches_aside hP fun w => .handled n (· + 1) w) fun _ => matches_pure _
  | drop =>
    exact matches_bind (matches_aside hP fun w => .handled n (· - 1) w) fun _ => matches_pure _

theorem matches_tell {theme : Theme} {watcher : Watcher E R}
    (hcalled : ∀ k i w, P i w → P i (w.record (.themed k theme)))
    (h : ∀ i body, watcher = .observer i body → (body theme).Throughout p)
    (hfollow : ∀ n, watcher = .surface n →
      p (.on n .followTheme) ∨ ∀ i w, P i w → w.live? n = none) :
    Matches lenient P (tell m theme watcher) (tell m' theme watcher) := by
  cases watcher with
  | surface n =>
    rcases hfollow n rfl with hfollow | hgone
    · refine matches_get_bind fun w => matches_ite ?_ (matches_pure _) w
      refine matches_holding_of_carried hP ?_
      exact matches_bind (matches_followTheme hP hfollow) fun _ => matches_pure _
    · intro w i hw _
      have hnothing : (tell m' theme (.surface n) : Action E R Unit) w = (.ok ⟨⟩, w) := by
        rw [tell, get_bind_apply, hgone i w hw]
        rfl
      rw [hnothing]
      exact ⟨hnothing, hw⟩
  | observer i body =>
    exact matches_bind (matches_modify (hcalled i)) fun _ =>
      matches_script_of_carried hP hm _ (h i body rfl)

end

section
variable (hP : Walked lenient p P) (hm : ∀ op, op.Throughout p → Matches lenient P (m op) (m' op))
include hP hm

theorem matches_script (script : Script E R) (h : script.Throughout p) :
    Matches lenient P (script.run m) (script.run m') :=
  matches_script_of_carried hP.toCarried hm script h

theorem matches_setText (n : Nat) (t : Text) :
    Matches lenient P (setText m n t) (setText m' n t) := by
  refine matches_bind ?_ fun _ =>
    matches_changeAndShow hP.toCarried n (fun _ => rfl) fun _ => rfl
  exact hP.write n (matches_editLayer hP.toCarried hm (.inl ⟨t, rfl⟩))

theorem matches_typeText (n : Nat) (t : Text) :
    Matches lenient P (typeText m n t) (typeText m' n t) := by
  refine matches_get_bind fun w => matches_ite (matches_pure _) ?_ w
  refine matches_bind (hP.write n ?_) fun typed => ?_
  · exact matches_bind (matches_editLayer hP.toCarried hm (.inl ⟨t, rfl⟩)) fun _ =>
      matches_get_bind fun w => matches_pure _ w
  · cases typed with
    | none => exact matches_pure _
    | some typed => exact matches_takeEdit hP.toCarried hm n typed

theorem matches_answer {n : Nat} {request : Request E R}
    (h : (Operation.on n request).Throughout p) :
    Matches lenient P (answer m n request) (answer m' n request) := by
  cases request with
  | setText t => exact matches_bind (matches_setText hP hm n t) fun _ => matches_pure _
  | typeText t => exact matches_bind (matches_typeText hP hm n t) fun _ => matches_pure _
  | _ => exact matches_answer_of_not_writes hP.toCarried hm (fun hwrites => hwrites) h

end
end World

namespace Operation

open World

variable [EditableLayer E] [RenderLayer R] {lenient : Prop} {p : Operation E R → Prop} {ι : Type}
  {P : ι → World E R → Prop} {m m' : Meaning E R}

/-- Operations that are not about one surface. -/
theorem matches_step_of_not_on (hP : Carried p P)
    (hm : ∀ op, op.Throughout p → Matches lenient P (m op) (m' op)) {op : Operation E R}
    (hon : ∀ n request, op ≠ .on n request) (hop : ∀ theme, op ≠ .setTheme theme)
    (h : op.Throughout p) : Matches lenient P (step m op) (step m' op) := by
  cases op with
  | create editable rendered =>
    refine matches_get_bind fun w => matches_ite ?_ (matches_pure _) w
    exact matches_self fun i w hw => hP.turn i w _ hw (.created editable rendered w)
  | on n request => exact absurd rfl (hon n request)
  | report n t => exact matches_bind (matches_report hP hm n t) fun _ => matches_pure _
  | disconnect n =>
    exact matches_bind (matches_aside hP fun w => .disconnected n w) fun _ => matches_pure _
  | subscribe body =>
    have hbody : ∀ theme, (body theme).Throughout p := by
      simp only [Operation.Throughout] at h
      exact h.2
    refine matches_get_bind fun w => matches_ite ?_ (matches_pure _) w
    exact matches_bind (matches_turn hP fun w => .subscribed body w hbody) fun _ =>
      matches_pure _
  | unsubscribe i =>
    refine matches_get_bind fun w => ?_
    split
    · next id hid =>
      intro k hw hends
      have hgiven : lenient → (giveBack i id w).1 ≠ .error .tooDeep :=
        fun hlenient => ne_tooDeep_of_bind (hends hlenient)
      obtain ⟨-, hkept⟩ := matchesAt_giveBack hP (subscriptions_of_held? hid) k hw hgiven
      rw [return_apply]
      exact ⟨rfl, hkept⟩
    · exact matches_pure _ w
  | entrust i belonging =>
    refine matches_get_bind fun w => matches_ite ?_ (matches_pure _) w
    refine matches_bind (matches_aside hP fun w => .kept _ w.rounds w fun b hb => ?_) fun _ =>
      matches_pure _
    simp only [Operation.Throughout] at h
    rcases mem_entrust hb with hold | rfl
    · exact .inl hold
    · exact .inr h
  | setTheme theme => exact absurd rfl (hop theme)
  | releaseNotifier =>
    exact matches_bind (matches_aside hP fun w => .abandoned w) fun _ => matches_pure _

/-- Operations match if the operations nested in them do, but for those that set the
theme. -/
theorem matches_step (hP : Walked lenient p P)
    (hm : ∀ op, op.Throughout p → Matches lenient P (m op) (m' op)) {op : Operation E R}
    (hop : ∀ theme, op ≠ .setTheme theme) (h : op.Throughout p) :
    Matches lenient P (step m op) (step m' op) := by
  by_cases hon : ∃ n request, op = .on n request
  · obtain ⟨n, request, rfl⟩ := hon
    refine matches_get_bind fun w => matches_ite (matches_pure _) ?_ w
    exact matches_holding_of_carried hP.toCarried (matches_answer hP hm h)
  · simp only [not_exists] at hon
    exact matches_step_of_not_on hP.toCarried hm hon hop h

/-- A change of the theme keeps what survives it.  The observers that are told are those of the
world in which the theme was set, so it is that world in which their callbacks are in check, and
a property of that world which says what surfaces are gone. -/
theorem matches_setTheme (hP : Carried p P) (htells : Tells p P)
    (hm : ∀ op, op.Throughout p → Matches lenient P (m op) (m' op)) {theme : Theme}
    (hthemed : Themed P theme) :
    Matches lenient P (step m (.setTheme theme)) (step m' (.setTheme theme)) := by
  refine matches_get_bind fun w => matches_ite ?_ (matches_pure _) w
  refine matches_bind ?_ fun _ => matches_pure _
  refine matches_get_bind fun w i hw hends => ?_
  obtain ⟨j, hj, hji, hlist⟩ := htells i w hw
  let Q : Unit → World E R → Prop := fun _ => P j
  have hQ : Carried p Q := ⟨fun _ => hP.stores j, fun _ => hP.owned j, fun _ => hP.turn j⟩
  have hround : Matches lenient Q (round (fun x => tell m theme x.2) w.notifier.observers)
      (round (fun x => tell m' theme x.2) w.notifier.observers) := by
    refine matches_round hQ fun x hx => ?_
    obtain ⟨id, watcher⟩ := x
    refine matches_tell hQ (fun op hop => matches_reindex (fun _ => j) (hm op hop))
      (fun k _ => hthemed.called k j) (fun k body hbody => ?_) fun n hn => ?_
    · subst hbody
      exact (hP.stores i w hw).watchers id k body hx theme
    · subst hn
      exact (hlist id n hx).imp_right fun hgone _ => hgone
  have hset : Matches lenient Q (do
      modify (World.withTheme theme)
      round (fun x => tell m theme x.2) w.notifier.observers) (do
      modify (World.withTheme theme)
      round (fun x => tell m' theme x.2) w.notifier.observers) :=
    matches_bind (matches_modify fun _ => hthemed.withTheme j) fun _ => hround
  obtain ⟨hsame, hkept⟩ := matches_ite (matches_pure _) hset w () hj hends
  exact ⟨hsame, hji _ hkept⟩

/-- What survives every change of the theme is kept by all operations. -/
theorem matches_step_of_themed (hP : Walked lenient p P) (hthemed : ∀ theme, Themed P theme)
    (hm : ∀ op, op.Throughout p → Matches lenient P (m op) (m' op)) {op : Operation E R}
    (h : op.Throughout p) : Matches lenient P (step m op) (step m' op) := by
  by_cases hop : ∃ theme, op = .setTheme theme
  · obtain ⟨theme, rfl⟩ := hop
    exact matches_setTheme hP.toCarried hP.tells hm (hthemed theme)
  · rw [not_exists] at hop
    exact matches_step hP hm hop h

theorem matches_run (hP : Walked lenient p P) (hthemed : ∀ theme, Themed P theme)
    (depth : Nat) (op : Operation E R) (h : op.Throughout p) :
    Matches lenient P (run depth op) (run depth op) := by
  induction depth generalizing op with
  | zero => exact matches_throw _
  | succ depth ih => exact matches_step_of_themed hP hthemed ih h

/-- Whatever an embedder or a callback does keeps what turns, writes and changes of the theme
keep. -/
theorem kept_by_script {i : ι} {w : World E R} (hP : Walked False p P)
    (hthemed : ∀ theme, Themed P theme) (hw : P i w) (depth : Nat)
    (script : Script E R) (h : script.Throughout p) : P i (script.run (run depth) w).2 :=
  (matches_script hP (matches_run hP hthemed depth) script h w i hw False.elim).2

/-! ## A change of the theme as a parameter -/

/-- The meaning of operations that nest at most `depth` deep, given what a change of the
theme is to be.  It is given the depth and the meaning of the operations nested in it. -/
def runWith (change : Nat → Meaning E R → Theme → Action E R Reply) : Nat → Meaning E R
  | 0 => fun _ => throw .tooDeep
  | depth + 1 => fun op =>
    match op with
    | .setTheme theme => change depth (runWith change depth) theme
    | op => step (runWith change depth) op

theorem runWith_of_ne {change : Nat → Meaning E R → Theme → Action E R Reply} {depth : Nat}
    {op : Operation E R} (hop : ∀ theme, op ≠ .setTheme theme) :
    runWith change (depth + 1) op = step (runWith change depth) op := by
  cases op with
  | setTheme theme => exact absurd rfl (hop theme)
  | _ => rfl

theorem run_eq_runWith (depth : Nat) : (run depth : Meaning E R) =
    runWith (fun _ meaning theme => step meaning (.setTheme theme)) depth := by
  induction depth with
  | zero => rfl
  | succ depth ih =>
    funext op
    rw [run, ih]
    cases op <;> rfl

/-- If two ways to change the theme match, so do the operations in which they are used. -/
theorem matches_runWith (hP : Walked lenient p P)
    {change change' : Nat → Meaning E R → Theme → Action E R Reply}
    (hchange : ∀ depth, (∀ op, op.Throughout p →
        Matches lenient P (runWith change depth op) (runWith change' depth op)) →
      ∀ theme, Matches lenient P (change depth (runWith change depth) theme)
        (change' depth (runWith change' depth) theme))
    (depth : Nat) (op : Operation E R) (h : op.Throughout p) :
    Matches lenient P (runWith change depth op) (runWith change' depth op) := by
  induction depth generalizing op with
  | zero => exact matches_throw _
  | succ depth ih =>
    by_cases hop : ∃ theme, op = .setTheme theme
    · obtain ⟨theme, rfl⟩ := hop
      exact hchange depth ih theme
    · rw [not_exists] at hop
      rw [runWith_of_ne hop, runWith_of_ne hop]
      exact matches_step hP ih hop h

end Operation
end Surface
end QueryView
