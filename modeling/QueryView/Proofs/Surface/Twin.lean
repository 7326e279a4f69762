/-
Worlds that differ in their render layers.

Two executions over two kinds of render layers are compared by a relation `like`, which says
which layer of the one kind stands for which layer of the other.  What an embedder and its
callbacks do in the two executions is twin if it is the same as far as they can tell: they may
see render layers, but only up to `like`, and they may get answers, but do not act on whether
the answer is a failure to render.  Two worlds are twin if they differ in nothing but render
layers that are alike, in the callbacks they keep, which are twin, and in the outcomes of
rendering that their traces record.
-/
import Mathlib.Data.List.Forall2
import QueryView.Surface.Run

namespace QueryView
namespace Surface

/-! ## What failures to render change -/

/-- The rendering but for whether it failed. -/
def Rendering.regardless : Rendering → Rendering
  | .failed _ => .shown
  | rendering => rendering

def Reply.regardless : Reply → Reply
  | .failed _ => .done
  | reply => reply

def Event.regardless : Event → Event
  | .rendered n runs outcome => .rendered n runs outcome.regardless
  | event => event

variable {E R₁ R₂ : Type}

/-- Two kinds of render layers of which those that are alike differ in their failures only. -/
structure Interchangeable [RenderLayer R₁] [RenderLayer R₂] (like : R₁ → R₂ → Prop) : Prop where
  render : ∀ r₁ r₂ runs, like r₁ r₂ →
    like (RenderLayer.render r₁ runs).1 (RenderLayer.render r₂ runs).1
  outcome : ∀ r₁ r₂ runs, like r₁ r₂ → (RenderLayer.render r₁ runs).2.regardless =
    (RenderLayer.render r₂ runs).2.regardless
  applyLayout : ∀ r₁ r₂ layout, like r₁ r₂ →
    like (RenderLayer.applyLayout r₁ layout) (RenderLayer.applyLayout r₂ layout)

/-! ## Twin callbacks -/

structure View.Twin (like : R₁ → R₂ → Prop) (v₁ : View E R₁) (v₂ : View E R₂) : Prop where
  state : v₁.state = v₂.state
  runs : v₁.runs = v₂.runs
  editable : v₁.editable = v₂.editable
  rendered : like v₁.rendered v₂.rendered
  suppressing : v₁.suppressing = v₂.suppressing
  subscribed : v₁.subscribed = v₂.subscribed

structure Snapshot.Twin (like : R₁ → R₂ → Prop) (seen₁ : Snapshot E R₁) (seen₂ : Snapshot E R₂) :
    Prop where
  theme : seen₁.theme = seen₂.theme
  surfaces : List.Forall₂ (Option.Rel (View.Twin like)) seen₁.surfaces seen₂.surfaces

/-- What becomes of showing a new surface over a render layer. -/
def firstOutcome {R : Type} [RenderLayer R] (rendered : R) (theme : Theme) : Rendering :=
  (RenderLayer.render (RenderLayer.applyLayout rendered Layout.standard)
    (State.initial theme).runs).2

section
variable [RenderLayer R₁] [RenderLayer R₂] (like : R₁ → R₂ → Prop)

mutual

/-- The two callbacks do the same, whatever fails to render. -/
inductive Script.Twin : Script E R₁ → Script E R₂ → Prop
  | done : Script.Twin .done .done
  | panic (reason) : Script.Twin (.panic reason) (.panic reason)
  | note (words) {next₁ next₂} (h : Script.Twin next₁ next₂) :
      Script.Twin (.note words next₁) (.note words next₂)
  | look {next₁ next₂}
      (h : ∀ seen₁ seen₂, Snapshot.Twin like seen₁ seen₂ →
        Script.Twin (next₁ seen₁) (next₂ seen₂)) : Script.Twin (.look next₁) (.look next₂)
  | perform {op₁ op₂ next₁ next₂} (hop : Operation.Twin op₁ op₂)
      (h : ∀ reply₁ reply₂, reply₁.regardless = reply₂.regardless →
        Script.Twin (next₁ reply₁) (next₂ reply₂)) :
      Script.Twin (.perform op₁ next₁) (.perform op₂ next₂)
  | attempt {op₁ op₂ next₁ next₂} (hop : Operation.Twin op₁ op₂)
      (h : ∀ outcome₁ outcome₂, outcome₁.map Reply.regardless = outcome₂.map Reply.regardless →
        Script.Twin (next₁ outcome₁) (next₂ outcome₂)) :
      Script.Twin (.attempt op₁ next₁) (.attempt op₂ next₂)

inductive Handler.Twin : Handler E R₁ → Handler E R₂ → Prop
  | edits (n) : Handler.Twin (.edits n) (.edits n)
  | script {body₁ body₂} (h : ∀ t, Script.Twin (body₁ t) (body₂ t)) :
      Handler.Twin (.script body₁) (.script body₂)

inductive Request.Twin : Request E R₁ → Request E R₂ → Prop
  | setText (t) : Request.Twin (.setText t) (.setText t)
  | typeText (t) : Request.Twin (.typeText t) (.typeText t)
  | edited (t) : Request.Twin (.edited t) (.edited t)
  | setLanguage (l) : Request.Twin (.setLanguage l) (.setLanguage l)
  | setPlainTextColor (c) : Request.Twin (.setPlainTextColor c) (.setPlainTextColor c)
  | followTheme : Request.Twin .followTheme .followTheme
  | changeLayout (change) : Request.Twin (.changeLayout change) (.changeLayout change)
  | observe {body₁ body₂} (h : ∀ t, Script.Twin (body₁ t) (body₂ t)) :
      Request.Twin (.observe body₁) (.observe body₂)
  | editLayer (change) : Request.Twin (.editLayer change) (.editLayer change)
  | renderLayer {change₁ change₂}
      (h : ∀ r₁ r₂, like r₁ r₂ → like (change₁ r₁).1 (change₂ r₂).1) :
      Request.Twin (.renderLayer change₁) (.renderLayer change₂)
  | connect {handler₁ handler₂} (h : Handler.Twin handler₁ handler₂) :
      Request.Twin (.connect handler₁) (.connect handler₂)
  | dispose : Request.Twin .dispose .dispose
  | clone : Request.Twin .clone .clone
  | drop : Request.Twin .drop .drop

/-- The two operations do the same, whatever fails to render.  A surface is created by both or
by none. -/
inductive Operation.Twin : Operation E R₁ → Operation E R₂ → Prop
  | create (editable) {rendered₁ rendered₂} (h : like rendered₁ rendered₂)
      (hfirst : ∀ theme, firstOutcome rendered₁ theme = .shown ↔
        firstOutcome rendered₂ theme = .shown) :
      Operation.Twin (.create editable rendered₁) (.create editable rendered₂)
  | on (n) {request₁ request₂} (h : Request.Twin request₁ request₂) :
      Operation.Twin (.on n request₁) (.on n request₂)
  | report (n t) : Operation.Twin (.report n t) (.report n t)
  | disconnect (n) : Operation.Twin (.disconnect n) (.disconnect n)
  | subscribe {body₁ body₂} (h : ∀ theme, Script.Twin (body₁ theme) (body₂ theme)) :
      Operation.Twin (.subscribe body₁) (.subscribe body₂)
  | unsubscribe (i) : Operation.Twin (.unsubscribe i) (.unsubscribe i)
  | entrust (i belonging) : Operation.Twin (.entrust i belonging) (.entrust i belonging)
  | setTheme (t) : Operation.Twin (.setTheme t) (.setTheme t)
  | releaseNotifier : Operation.Twin .releaseNotifier .releaseNotifier

end

/-! ## Twin worlds -/

structure Live.Twin (s₁ : Live E R₁) (s₂ : Live E R₂) : Prop where
  state : s₁.state = s₂.state
  runs : s₁.runs = s₂.runs
  editable : s₁.editable = s₂.editable
  rendered : like s₁.rendered s₂.rendered
  suppressing : s₁.suppressing = s₂.suppressing
  observers : List.Forall₂ (fun body₁ body₂ => ∀ t, Script.Twin like (body₁ t) (body₂ t))
    s₁.observers s₂.observers
  subscription : s₁.subscription = s₂.subscription

structure Slot.Twin (slot₁ : Slot E R₁) (slot₂ : Slot E R₂) : Prop where
  live : Option.Rel (Live.Twin like) slot₁.live slot₂.live
  handles : slot₁.handles = slot₂.handles
  guests : slot₁.guests = slot₂.guests
  hook : Option.Rel (Handler.Twin like) slot₁.hook slot₂.hook

inductive Watcher.Twin : Watcher E R₁ → Watcher E R₂ → Prop
  | surface (n) : Watcher.Twin (.surface n) (.surface n)
  | observer (i) {body₁ body₂} (h : ∀ theme, Script.Twin like (body₁ theme) (body₂ theme)) :
      Watcher.Twin (.observer i body₁) (.observer i body₂)

/-- The two know the same watchers by the same numbers, and call them in the same order. -/
abbrev WatchersTwin (xs₁ : List (Nat × Watcher E R₁)) (xs₂ : List (Nat × Watcher E R₂)) : Prop :=
  List.Forall₂ (fun x₁ x₂ => x₁.1 = x₂.1 ∧ Watcher.Twin like x₁.2 x₂.2) xs₁ xs₂

structure Notifier.Twin (o₁ : Notifier E R₁) (o₂ : Notifier E R₂) : Prop where
  theme : o₁.theme = o₂.theme
  observers : WatchersTwin like o₁.observers o₂.observers
  nextId : o₁.nextId = o₂.nextId
  held : o₁.held = o₂.held

structure World.Twin (w₁ : World E R₁) (w₂ : World E R₂) : Prop where
  slots : List.Forall₂ (Slot.Twin like) w₁.slots w₂.slots
  notifier : Notifier.Twin like w₁.notifier w₂.notifier
  subscriptions : w₁.subscriptions = w₂.subscriptions
  belongings : w₁.belongings = w₂.belongings
  rounds : List.Forall₂ (WatchersTwin like) w₁.rounds w₂.rounds
  stranded : w₁.stranded = w₂.stranded
  trace : w₁.trace.map Event.regardless = w₂.trace.map Event.regardless

end

/-! ## Looking at twin worlds -/

theorem rel_cases {α β : Type} {r : α → β → Prop} {o₁ : Option α} {o₂ : Option β}
    (h : Option.Rel r o₁ o₂) :
    (o₁ = none ∧ o₂ = none) ∨ ∃ x y, o₁ = some x ∧ o₂ = some y ∧ r x y := by
  cases h with
  | none => exact .inl ⟨rfl, rfl⟩
  | some hxy => exact .inr ⟨_, _, rfl, rfl, hxy⟩

theorem rel_imp {α β : Type} {r q : α → β → Prop} {o₁ : Option α} {o₂ : Option β}
    (h : Option.Rel r o₁ o₂) (himp : ∀ x y, r x y → q x y) : Option.Rel q o₁ o₂ := by
  cases h with
  | none => exact .none
  | some hxy => exact .some (himp _ _ hxy)

theorem rel_map {α β γ δ : Type} {r : α → β → Prop} {q : γ → δ → Prop} {o₁ : Option α}
    {o₂ : Option β} {f : α → γ} {g : β → δ} (h : Option.Rel r o₁ o₂)
    (hf : ∀ x y, r x y → q (f x) (g y)) : Option.Rel q (o₁.map f) (o₂.map g) := by
  cases h with
  | none => exact .none
  | some hxy => exact .some (hf _ _ hxy)

theorem rel_bind {α β γ δ : Type} {r : α → β → Prop} {q : γ → δ → Prop} {o₁ : Option α}
    {o₂ : Option β} {f : α → Option γ} {g : β → Option δ} (h : Option.Rel r o₁ o₂)
    (hf : ∀ x y, r x y → Option.Rel q (f x) (g y)) : Option.Rel q (o₁.bind f) (o₂.bind g) := by
  cases h with
  | none => exact .none
  | some hxy => exact hf _ _ hxy

/-- What is the same of all that are related is the same of two options. -/
theorem map_eq_of_rel {α β γ : Type} {r : α → β → Prop} {o₁ : Option α} {o₂ : Option β}
    {f : α → γ} {g : β → γ} (h : Option.Rel r o₁ o₂) (hf : ∀ x y, r x y → f x = g y) :
    o₁.map f = o₂.map g := by
  cases h with
  | none => rfl
  | some hxy => exact congrArg some (hf _ _ hxy)

theorem forall₂_getElem? {α β : Type} {r : α → β → Prop} {xs : List α} {ys : List β}
    (h : List.Forall₂ r xs ys) (n : Nat) : Option.Rel r xs[n]? ys[n]? := by
  induction h generalizing n with
  | nil => exact .none
  | cons hxy _ ih =>
    cases n with
    | zero => exact .some hxy
    | succ n => exact ih n

theorem forall₂_tail {α β : Type} {r : α → β → Prop} {xs : List α} {ys : List β}
    (h : List.Forall₂ r xs ys) : List.Forall₂ r xs.tail ys.tail := by
  cases h with
  | nil => exact .nil
  | cons _ hrest => exact hrest

theorem forall₂_headD {α β : Type} {r : α → β → Prop} {xs : List (List α)} {ys : List (List β)}
    (h : List.Forall₂ (List.Forall₂ r) xs ys) : List.Forall₂ r (xs.headD []) (ys.headD []) := by
  cases h with
  | nil => exact .nil
  | cons hxy _ => exact hxy

theorem forall₂_modifyHead {α β : Type} {r : α → β → Prop} {xs : List α} {ys : List β} {f : α → α}
    {g : β → β} (h : List.Forall₂ r xs ys) (hf : ∀ x y, r x y → r (f x) (g y)) :
    List.Forall₂ r (xs.modifyHead f) (ys.modifyHead g) := by
  cases h with
  | nil => exact .nil
  | cons hxy hrest => exact .cons (hf _ _ hxy) hrest

theorem isEmpty_eq_of_forall₂ {α β : Type} {r : α → β → Prop} {xs : List α} {ys : List β}
    (h : List.Forall₂ r xs ys) : xs.isEmpty = ys.isEmpty := by
  cases h <;> rfl

theorem any_eq_of_forall₂ {α β : Type} {r : α → β → Prop} {xs : List α} {ys : List β}
    {p : α → Bool} {q : β → Bool} (h : List.Forall₂ r xs ys) (hpq : ∀ x y, r x y → p x = q y) :
    xs.any p = ys.any q := by
  induction h with
  | nil => rfl
  | cons hxy _ ih => rw [List.any_cons, List.any_cons, hpq _ _ hxy, ih]

theorem forall₂_modify {α β : Type} {r : α → β → Prop} {xs : List α} {ys : List β} {f : α → α}
    {g : β → β} (h : List.Forall₂ r xs ys) (hf : ∀ x y, r x y → r (f x) (g y)) (n : Nat) :
    List.Forall₂ r (xs.modify n f) (ys.modify n g) := by
  induction h generalizing n with
  | nil =>
    rw [List.modify_nil, List.modify_nil]
    exact .nil
  | cons hxy hrest ih =>
    cases n with
    | zero => exact .cons (hf _ _ hxy) hrest
    | succ n => exact .cons hxy (ih n)

theorem forall₂_zipIdx {α β : Type} {r : α → β → Prop} {xs : List α} {ys : List β}
    (h : List.Forall₂ r xs ys) (n : Nat) :
    List.Forall₂ (fun x y => r x.1 y.1 ∧ x.2 = y.2) (xs.zipIdx n) (ys.zipIdx n) := by
  induction h generalizing n with
  | nil => exact .nil
  | cons hxy _ ih => exact .cons ⟨hxy, rfl⟩ (ih (n + 1))

namespace World.Twin

variable [RenderLayer R₁] [RenderLayer R₂] {like : R₁ → R₂ → Prop} {w₁ : World E R₁}
  {w₂ : World E R₂} {n : Nat}

theorem initial (theme : Theme) :
    World.Twin like (World.initial theme : World E R₁) (World.initial theme : World E R₂) :=
  ⟨.nil, ⟨rfl, .nil, rfl, rfl⟩, rfl, rfl, .nil, rfl, rfl⟩

theorem live? (h : World.Twin like w₁ w₂) (n : Nat) :
    Option.Rel (Live.Twin like) (w₁.live? n) (w₂.live? n) :=
  rel_bind (forall₂_getElem? h.slots n) fun _ _ hslot => hslot.live

theorem hook? (h : World.Twin like w₁ w₂) (n : Nat) :
    Option.Rel (Handler.Twin like) (w₁.hook? n) (w₂.hook? n) :=
  rel_bind (forall₂_getElem? h.slots n) fun _ _ hslot => hslot.hook

theorem handles (h : World.Twin like w₁ w₂) (n : Nat) : w₁.handles n = w₂.handles n :=
  congrArg (·.getD 0) (map_eq_of_rel (forall₂_getElem? h.slots n) fun _ _ hslot => hslot.handles)

theorem isSome_live? (h : World.Twin like w₁ w₂) (n : Nat) :
    (w₁.live? n).isSome = (w₂.live? n).isSome := by
  rcases rel_cases (h.live? n) with ⟨hnone₁, hnone₂⟩ | ⟨s₁, s₂, hs₁, hs₂, -⟩
  · rw [hnone₁, hnone₂]
    rfl
  · rw [hs₁, hs₂]
    rfl

theorem any_live? (h : World.Twin like w₁ w₂) (n : Nat) {p₁ : Live E R₁ → Bool}
    {p₂ : Live E R₂ → Bool} (hp : ∀ s₁ s₂, Live.Twin like s₁ s₂ → p₁ s₁ = p₂ s₂) :
    (w₁.live? n).any p₁ = (w₂.live? n).any p₂ := by
  rcases rel_cases (h.live? n) with ⟨hnone₁, hnone₂⟩ | ⟨s₁, s₂, hs₁, hs₂, hs⟩
  · rw [hnone₁, hnone₂]
    rfl
  · rw [hs₁, hs₂]
    exact hp s₁ s₂ hs

theorem subscription (h : World.Twin like w₁ w₂) (n : Nat) :
    (w₁.live? n).bind Live.subscription = (w₂.live? n).bind Live.subscription := by
  rcases rel_cases (h.live? n) with ⟨hnone₁, hnone₂⟩ | ⟨s₁, s₂, hs₁, hs₂, hs⟩
  · rw [hnone₁, hnone₂]
    rfl
  · rw [hs₁, hs₂]
    exact hs.subscription

theorem snapshot (h : World.Twin like w₁ w₂) :
    Snapshot.Twin like w₁.snapshot w₂.snapshot := by
  refine ⟨h.notifier.theme, List.rel_map (fun slot₁ slot₂ hslot => ?_) h.slots⟩
  refine rel_map hslot.live fun s₁ s₂ hs => ?_
  exact ⟨hs.state, hs.runs, hs.editable, hs.rendered, hs.suppressing,
    congrArg Option.isSome hs.subscription⟩

/-! ## Changing twin worlds alike -/

theorem record (h : World.Twin like w₁ w₂) {e₁ e₂ : Event} (he : e₁.regardless = e₂.regardless) :
    World.Twin like (w₁.record e₁) (w₂.record e₂) := by
  refine { h with trace := ?_ }
  show (w₁.trace ++ [e₁]).map _ = (w₂.trace ++ [e₂]).map _
  rw [List.map_append, List.map_append, h.trace, List.map_singleton, List.map_singleton, he]

theorem changeSlot (h : World.Twin like w₁ w₂) {f₁ : Slot E R₁ → Slot E R₁}
    {f₂ : Slot E R₂ → Slot E R₂}
    (hf : ∀ slot₁ slot₂, Slot.Twin like slot₁ slot₂ → Slot.Twin like (f₁ slot₁) (f₂ slot₂)) :
    World.Twin like (w₁.changeSlot n f₁) (w₂.changeSlot n f₂) :=
  { h with slots := forall₂_modify h.slots hf n }

theorem changeLive (h : World.Twin like w₁ w₂) {f₁ : Live E R₁ → Live E R₁}
    {f₂ : Live E R₂ → Live E R₂}
    (hf : ∀ s₁ s₂, Live.Twin like s₁ s₂ → Live.Twin like (f₁ s₁) (f₂ s₂)) :
    World.Twin like (w₁.changeLive n f₁) (w₂.changeLive n f₂) := by
  refine h.changeSlot fun slot₁ slot₂ hslot => ?_
  exact { hslot with live := rel_map hslot.live hf }

theorem changeState (h : World.Twin like w₁ w₂) (f : State → State) :
    World.Twin like (w₁.changeState n f) (w₂.changeState n f) :=
  h.changeLive fun _ _ hs => { hs with state := congrArg f hs.state }

theorem setSuppressing (h : World.Twin like w₁ w₂) (on : Bool) :
    World.Twin like (w₁.setSuppressing n on) (w₂.setSuppressing n on) :=
  h.changeLive fun _ _ hs => { hs with suppressing := rfl }

theorem withTheme (h : World.Twin like w₁ w₂) (theme : Theme) :
    World.Twin like { w₁ with notifier := { w₁.notifier with theme } }
      { w₂ with notifier := { w₂.notifier with theme } } :=
  { h with notifier := { h.notifier with theme := rfl } }

theorem release (h : World.Twin like w₁ w₂) :
    World.Twin like { w₁ with notifier := { w₁.notifier with held := false } }
      { w₂ with notifier := { w₂.notifier with held := false } } :=
  { h with notifier := { h.notifier with held := rfl } }

theorem forget (h : World.Twin like w₁ w₂) (id : Nat) :
    World.Twin like (w₁.forget id) (w₂.forget id) := by
  refine { h with notifier := { h.notifier with observers := ?_ } }
  refine List.rel_filter (fun x₁ x₂ hx => ?_) h.notifier.observers
  show (x₁.1 != id) = true ↔ (x₂.1 != id) = true
  rw [hx.1]

theorem unsubscribeSurface (h : World.Twin like w₁ w₂) (n : Nat) :
    World.Twin like (w₁.unsubscribeSurface n) (w₂.unsubscribeSurface n) := by
  have hforget : World.Twin like (w₁.forget? ((w₁.live? n).bind Live.subscription))
      (w₂.forget? ((w₂.live? n).bind Live.subscription)) := by
    rw [h.subscription n]
    cases (w₂.live? n).bind Live.subscription with
    | none => exact h
    | some id => exact h.forget id
  exact hforget.changeLive fun _ _ hs => { hs with subscription := rfl }

theorem collect (h : World.Twin like w₁ w₂) (n : Nat) :
    World.Twin like (w₁.collect n) (w₂.collect n) := by
  unfold World.collect
  rcases rel_cases (forall₂_getElem? h.slots n) with
    ⟨hnone₁, hnone₂⟩ | ⟨slot₁, slot₂, hslot₁, hslot₂, hslot⟩
  · rw [hnone₁, hnone₂]
    exact h
  · rw [hslot₁, hslot₂]
    simp only [hslot.handles, hslot.guests]
    split
    · exact (h.unsubscribeSurface n).changeSlot fun _ _ hslot => { hslot with live := .none }
    · exact h

theorem enter (h : World.Twin like w₁ w₂) (n : Nat) :
    World.Twin like (w₁.enter n) (w₂.enter n) :=
  h.changeSlot fun _ _ hslot => { hslot with guests := congrArg (· + 1) hslot.guests }

theorem leave (h : World.Twin like w₁ w₂) (n : Nat) :
    World.Twin like (w₁.leave n) (w₂.leave n) := by
  refine collect ?_ n
  exact h.changeSlot fun _ _ hslot => { hslot with guests := congrArg (· - 1) hslot.guests }

theorem subscribe (h : World.Twin like w₁ w₂) {body₁ : Theme → Script E R₁}
    {body₂ : Theme → Script E R₂} (hbody : ∀ theme, Script.Twin like (body₁ theme) (body₂ theme)) :
    World.Twin like (w₁.subscribe body₁) (w₂.subscribe body₂) := by
  have hid := h.notifier.nextId
  have hwatcher : Watcher.Twin like (.observer w₁.subscriptions.length body₁)
      (.observer w₂.subscriptions.length body₂) := h.subscriptions ▸ .observer _ hbody
  have hnotifier : Notifier.Twin like (w₁.subscribe body₁).notifier
      (w₂.subscribe body₂).notifier :=
    { h.notifier with
      observers := List.rel_append h.notifier.observers (.cons ⟨hid, hwatcher⟩ .nil)
      nextId := congrArg (· + 1) hid }
  refine { h with notifier := hnotifier, subscriptions := ?_ }
  show w₁.subscriptions ++ [some w₁.notifier.nextId] =
    w₂.subscriptions ++ [some w₂.notifier.nextId]
  rw [h.subscriptions, hid]

theorem unsubscribe (h : World.Twin like w₁ w₂) (i id : Nat) :
    World.Twin like (w₁.unsubscribe i id) (w₂.unsubscribe i id) :=
  { h with
    notifier := (h.forget id).notifier
    subscriptions := congrArg (·.set i none) h.subscriptions }

/-! ## Owning alike -/

theorem isObserver {watcher₁ : Watcher E R₁} {watcher₂ : Watcher E R₂}
    (h : Watcher.Twin like watcher₁ watcher₂) (i : Nat) :
    watcher₁.isObserver i = watcher₂.isObserver i := by
  cases h <;> rfl

theorem any_isObserver {xs₁ : List (Nat × Watcher E R₁)} {xs₂ : List (Nat × Watcher E R₂)}
    (h : WatchersTwin like xs₁ xs₂) (i : Nat) :
    xs₁.any (fun o => o.2.isObserver i) = xs₂.any fun o => o.2.isObserver i :=
  any_eq_of_forall₂ h fun _ _ hx => isObserver hx.2 i

theorem notifierAlive (h : World.Twin like w₁ w₂) : w₁.notifierAlive = w₂.notifierAlive := by
  have hslots : (w₁.slots.any fun slot => slot.live.isSome) =
      w₂.slots.any fun slot => slot.live.isSome :=
    any_eq_of_forall₂ h.slots fun _ _ hslot => by
      rcases rel_cases hslot.live with ⟨hnone₁, hnone₂⟩ | ⟨s₁, s₂, hs₁, hs₂, -⟩
      · rw [hnone₁, hnone₂]
        rfl
      · rw [hs₁, hs₂]
        rfl
  have hrounds : w₁.rounds.isEmpty = w₂.rounds.isEmpty := isEmpty_eq_of_forall₂ h.rounds
  rw [World.notifierAlive, World.notifierAlive, h.notifier.held, hslots, hrounds]

theorem held? (h : World.Twin like w₁ w₂) (i : Nat) : w₁.held? i = w₂.held? i := by
  rw [World.held?, World.held?, h.notifierAlive, h.belongings, h.subscriptions]

theorem keeps (h : World.Twin like w₁ w₂) (i : Nat) : w₁.keeps i = w₂.keeps i := by
  rw [World.keeps, World.keeps, h.notifierAlive, any_isObserver h.notifier.observers,
    any_eq_of_forall₂ h.rounds fun _ _ hround => any_isObserver hround i]

theorem offers (h : World.Twin like w₁ w₂) (belonging : Belonging) :
    w₁.offers belonging = w₂.offers belonging := by
  cases belonging with
  | subscription i => rw [World.offers, World.offers, h.held? i]
  | handle n => rw [World.offers, World.offers, h.belongings, h.handles n]

theorem belongingsOf (h : World.Twin like w₁ w₂) (i : Nat) :
    w₁.belongingsOf i = w₂.belongingsOf i := by
  rw [World.belongingsOf, World.belongingsOf, h.belongings]

theorem isHeld (h : World.Twin like w₁ w₂) (n : Nat) : w₁.isHeld n = w₂.isHeld n := by
  unfold World.isHeld
  rcases rel_cases (forall₂_getElem? h.slots n) with
    ⟨hnone₁, hnone₂⟩ | ⟨slot₁, slot₂, hslot₁, hslot₂, hslot⟩
  · rw [hnone₁, hnone₂]
    rfl
  · rw [hslot₁, hslot₂]
    simp only [Option.any_some, hslot.handles, hslot.guests]

theorem strand (h : World.Twin like w₁ w₂) (i id : Nat) :
    World.Twin like (w₁.strand i id) (w₂.strand i id) :=
  { h with
    subscriptions := congrArg (·.set i none) h.subscriptions
    stranded := congrArg (· ++ [id]) h.stranded }

theorem strandSurface (h : World.Twin like w₁ w₂) (n : Nat) :
    World.Twin like (w₁.strandSurface n) (w₂.strandSurface n) := by
  have hstranded : w₁.stranded ++ ((w₁.live? n).bind Live.subscription).toList =
      w₂.stranded ++ ((w₂.live? n).bind Live.subscription).toList := by
    rw [h.stranded, h.subscription n]
  have hmarked : World.Twin like
      { w₁ with stranded := w₁.stranded ++ ((w₁.live? n).bind Live.subscription).toList }
      { w₂ with stranded := w₂.stranded ++ ((w₂.live? n).bind Live.subscription).toList } :=
    { h with stranded := hstranded }
  exact hmarked.changeSlot fun _ _ hslot => { hslot with live := .none }

theorem dropHandle (h : World.Twin like w₁ w₂) (n : Nat) :
    World.Twin like (w₁.dropHandle n) (w₂.dropHandle n) :=
  h.changeSlot fun _ _ hslot => { hslot with handles := congrArg (· - 1) hslot.handles }

theorem entrust (h : World.Twin like w₁ w₂) (i : Nat) (belonging : Belonging) :
    World.Twin like (w₁.entrust i belonging) (w₂.entrust i belonging) := by
  refine { h with belongings := ?_ }
  cases belonging <;> simp only [World.entrust, h.belongings]

theorem strip (h : World.Twin like w₁ w₂) (i : Nat) :
    World.Twin like (w₁.strip i) (w₂.strip i) := by
  refine { h with belongings := ?_ }
  rw [World.strip, World.strip, h.belongings]

theorem beginRound (h : World.Twin like w₁ w₂) {xs₁ : List (Nat × Watcher E R₁)}
    {xs₂ : List (Nat × Watcher E R₂)} (hxs : WatchersTwin like xs₁ xs₂) :
    World.Twin like (w₁.beginRound xs₁) (w₂.beginRound xs₂) :=
  { h with rounds := .cons hxs h.rounds }

theorem finishFirst (h : World.Twin like w₁ w₂) :
    World.Twin like w₁.finishFirst w₂.finishFirst := by
  refine { h with rounds := ?_ }
  show List.Forall₂ _ (w₁.rounds.modifyHead List.tail) (w₂.rounds.modifyHead List.tail)
  exact forall₂_modifyHead h.rounds fun _ _ hround => forall₂_tail hround

theorem endRound (h : World.Twin like w₁ w₂) : World.Twin like w₁.endRound w₂.endRound :=
  { h with rounds := forall₂_tail h.rounds }

end World.Twin
end Surface
end QueryView
