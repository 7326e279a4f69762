/-
Whom the notifier has on its list.

The notifier lists observers by the numbers of their subscriptions, and takes them off the list
when the subscriptions end.  A subscription may also end without that.  If it ends while the list
is borrowed, its observer stays on the list for good: it is stranded.  Apart from these the
notifier has nobody on its list but those who hold a subscription (`Turn.listed`).  This is the
other direction of what `Registered` says, and it needs no more than that each of them is known
by the number that is held.

Nobody is stranded in a run in which nothing is handed over to callbacks
(`Operation.stranded_of_program`).
-/
import QueryView.Proofs.Surface.Behind
import QueryView.Proofs.Surface.Quiet
import QueryView.Proofs.Surface.Writing

namespace QueryView
namespace Surface

variable {E R : Type}

/-! ## What is looked up in the list

The list is compared with the subscriptions of the embedder, with those of the surfaces, and with
who is stranded. -/

namespace World

/-- The subscriptions of the embedder, the numbers of the observers that are stranded, and what
callbacks own. -/
def ledger (w : World E R) : List (Option Nat) × List Nat × List (Nat × Belonging) :=
  (w.subscriptions, w.stranded, w.belongings)

/-- The number under which the notifier knows a surface that is alive. -/
def subscription? (w : World E R) (n : Nat) : Option Nat := (w.live? n).bind Live.subscription

variable {w w' : World E R} {n : Nat}

theorem ledger_unsubscribeSurface : (w.unsubscribeSurface n).ledger = w.ledger := by
  unfold unsubscribeSurface
  cases (w.live? n).bind Live.subscription <;> rfl

theorem ledger_leave : (w.leave n).ledger = w.ledger := by
  unfold leave collect
  split
  · split
    · exact ledger_unsubscribeSurface
    · rfl
  · rfl

section
variable [RenderLayer R]

theorem ledger_refresh : (refresh n w).2.ledger = w.ledger := by
  cases hs : w.live? n with
  | none => rw [refresh_of_none hs]
  | some s => rw [refresh_world hs]; rfl

theorem ledger_changeAndShow (f : State → State) :
    (changeAndShow n f w).2.ledger = w.ledger := by
  rw [changeAndShow_apply, ledger_refresh]
  rfl

variable [EditableLayer E]

theorem ledger_applyLayout : (applyLayout n w).2.ledger = w.ledger := by
  cases hs : w.live? n with
  | none => rw [applyLayout_of_none hs]
  | some s => rw [applyLayout_of_some hs, ledger_refresh]; rfl

theorem ledger_create (editable : E) (rendered : R) :
    (create editable rendered w).2.ledger = w.ledger := by
  obtain ⟨f, hcreate⟩ := create_world editable rendered w
  rw [hcreate, ledger_leave]
  exact ledger_applyLayout (w := (w.withFresh editable rendered).enter w.slots.length)

end
end World

section
variable [EditableLayer E] [RenderLayer R] {p : Operation E R → Prop} {w w' : World E R}

/-- What a turn does to the ledger.  No subscription is taken up or ends, and whatever callbacks
own besides is handed over by the turn; or there is one subscription more, or one ends; or an
observer is stranded, and then the turn is no more than that. -/
inductive LedgerStep (p : Operation E R → Prop) (w w' : World E R) : Prop where
  | kept (hsubscriptions : w'.subscriptions = w.subscriptions)
      (hstranded : w'.stranded = w.stranded)
      (hbelongings : ∀ b ∈ w'.belongings, b ∈ w.belongings ∨ p (.entrust b.1 b.2))
  | taken (id) (h : w'.ledger = (w.subscriptions ++ [some id], w.stranded, w.belongings))
  | back (i) (h : w'.ledger = (w.subscriptions.set i none, w.stranded, w.belongings))
  | stranded (i id) (hid : w.subscriptions[i]? = some (some id)) (howned : MayOwn p)
      (h : w' = w.strand i id)
  | strandedSurface (n) (howned : MayOwn p) (h : w' = w.strandSurface n)

omit [EditableLayer E] [RenderLayer R] in
theorem ledgerStep_of_eq (h : w'.ledger = w.ledger) : LedgerStep p w w' := by
  obtain ⟨hsubscriptions, hrest⟩ := Prod.mk.inj h
  obtain ⟨hstranded, hbelongings⟩ := Prod.mk.inj hrest
  exact .kept hsubscriptions hstranded fun b hb => .inl (hbelongings ▸ hb)

theorem Turn.ledger (h : Turn p w w') : LedgerStep p w w' := by
  cases h with
  | aside h =>
    cases h with
    | kept belongings rounds w h => exact .kept rfl rfl h
    | _ => exact ledgerStep_of_eq rfl
  | shown n f w _ => exact ledgerStep_of_eq (World.ledger_changeAndShow f)
  | followed n w _ =>
    rw [World.followTheme_apply]
    exact ledgerStep_of_eq (World.ledger_changeAndShow _)
  | laidOut n change w _ => exact ledgerStep_of_eq World.ledger_applyLayout
  | created editable rendered w => exact ledgerStep_of_eq (World.ledger_create editable rendered)
  | left n w => exact ledgerStep_of_eq World.ledger_leave
  | released n w => exact ledgerStep_of_eq World.ledger_unsubscribeSurface
  | subscribed body w _ => exact .taken w.notifier.nextId rfl
  | unsubscribed i id w _ => exact .back i rfl
  | stranded i id w hid howned => exact .stranded i id hid howned rfl
  | strandedSurface n w _ howned => exact .strandedSurface n howned rfl

/-- A turn leaves a subscription of the embedder as it is, or it ends. -/
theorem Turn.kept_or_given_back (h : Turn p w w') {i : Nat} (hi : i < w.subscriptions.length) :
    w'.subscriptions[i]? = w.subscriptions[i]? ∨ w'.subscriptions[i]? = some none := by
  have hset (j : Nat) (hj : w'.subscriptions = w.subscriptions.set j none) :
      w'.subscriptions[i]? = w.subscriptions[i]? ∨ w'.subscriptions[i]? = some none := by
    rw [hj]
    by_cases hij : j = i
    · exact .inr (hij ▸ List.getElem?_set_self (hij ▸ hi))
    · exact .inl (List.getElem?_set_ne hij)
  rcases h.ledger with ⟨heq, -, -⟩ | ⟨id, heq⟩ | ⟨j, heq⟩ | ⟨j, id, -, -, rfl⟩ | ⟨n, -, rfl⟩
  · exact .inl (congrArg (·[i]?) heq)
  · exact .inl ((congrArg (·[i]?) (congrArg Prod.fst heq)).trans (List.getElem?_append_left hi))
  · exact hset j (congrArg Prod.fst heq)
  · exact hset j rfl
  · exact .inl rfl

theorem Turn.length_subscriptions_le (h : Turn p w w') :
    w.subscriptions.length ≤ w'.subscriptions.length := by
  refine Nat.le_of_not_lt fun hlt => ?_
  have hnone : w'.subscriptions[w'.subscriptions.length]? = none :=
    List.getElem?_eq_none (Nat.le_refl _)
  rcases h.kept_or_given_back hlt with hkept | hback
  · rw [hnone] at hkept
    exact absurd (List.getElem?_eq_none_iff.mp hkept.symm) (Nat.not_le_of_lt hlt)
  · rw [hnone] at hback
    cases hback

/-- A turn does not take a subscription of the embedder up again. -/
theorem Turn.stays_none (h : Turn p w w') {i : Nat} (hi : w.subscriptions[i]? = some none) :
    w'.subscriptions[i]? = some none := by
  rcases h.kept_or_given_back (List.getElem?_eq_some_iff.mp hi).1 with hkept | hback
  · exact hkept.trans hi
  · exact hback

/-- Whoever is stranded stays so. -/
theorem Turn.stranded_subset (h : Turn p w w') : w.stranded ⊆ w'.stranded := by
  rcases h.ledger with ⟨-, heq, -⟩ | ⟨id, heq⟩ | ⟨j, heq⟩ | ⟨j, id, -, -, rfl⟩ | ⟨n, -, rfl⟩
  · exact heq ▸ List.Subset.refl _
  · exact (congrArg (·.2.1) heq : w'.stranded = w.stranded) ▸ List.Subset.refl _
  · exact (congrArg (·.2.1) heq : w'.stranded = w.stranded) ▸ List.Subset.refl _
  · exact List.subset_append_left _ _
  · exact List.subset_append_left _ _

/-- A surface that is not new after a turn has the subscription that it had, or none any more,
and it is in the theme that it was in, unless it may follow the theme. -/
theorem Turn.aged (h : Turn p w w') {n : Nat} (hn : n < w.slots.length) {s' : Live E R}
    (hs' : w'.live? n = some s') : ∃ s, w.live? n = some s ∧
      (s'.subscription = s.subscription ∨ s'.subscription = none) ∧
      (s'.state.theme = s.state.theme ∨ p (.on n .followTheme)) := by
  have hsame (hs : w.live? n = some s') : ∃ s, w.live? n = some s ∧
      (s'.subscription = s.subscription ∨ s'.subscription = none) ∧
      (s'.state.theme = s.state.theme ∨ p (.on n .followTheme)) := ⟨s', hs, .inl rfl, .inl rfl⟩
  cases h with
  | aside h =>
    obtain ⟨s, hs, hstate, -, hsub⟩ := h.still.live n s' hs'
    exact ⟨s, hs, .inl hsub, .inl (congrArg State.theme hstate)⟩
  | shown m f w hf =>
    rw [World.live?_changeAndShow] at hs'
    split at hs'
    · obtain ⟨s, hs, rfl⟩ := Option.map_eq_some_iff.mp hs'
      exact ⟨s, hs, .inl rfl, .inl (hf s.state)⟩
    · exact hsame hs'
  | followed m w hfollow =>
    rw [World.followTheme_apply, World.live?_changeAndShow] at hs'
    split at hs'
    · next hnm =>
      obtain ⟨s, hs, rfl⟩ := Option.map_eq_some_iff.mp hs'
      exact ⟨s, hs, .inl rfl, .inr (hnm ▸ hfollow)⟩
    · exact hsame hs'
  | laidOut m change w _ =>
    rw [World.live?_applyLayout, World.changeState, World.live?_changeLive] at hs'
    split at hs'
    · obtain ⟨_, hchanged, rfl⟩ := Option.map_eq_some_iff.mp hs'
      obtain ⟨s, hs, rfl⟩ := Option.map_eq_some_iff.mp hchanged
      exact ⟨s, hs, .inl rfl, .inl rfl⟩
    · exact hsame hs'
  | created editable rendered w =>
    rcases World.live?_create hs' with hs | ⟨hnew, -⟩
    · exact hsame hs
    · exact absurd hnew (Nat.ne_of_lt hn)
  | left m w =>
    rcases World.live?_leave (w := w) (n := m) (m := n) with hleave | hleave
    · exact hsame (hleave ▸ hs')
    · rw [hleave] at hs'
      cases hs'
  | released m w =>
    rw [World.live?_unsubscribeSurface] at hs'
    split at hs'
    · obtain ⟨s, hs, rfl⟩ := Option.map_eq_some_iff.mp hs'
      exact ⟨s, hs, .inr rfl, .inl rfl⟩
    · exact hsame hs'
  | subscribed | unsubscribed | stranded => exact hsame hs'
  | strandedSurface m w _ _ =>
    rcases World.live?_strandSurface_or (w := w) (n := m) (m := n) with hstays | hgone
    · exact hsame (hstays ▸ hs')
    · rw [hgone] at hs'
      cases hs'

/-- A surface that is destroyed does not come back. -/
theorem Turn.live?_none (h : Turn p w w') {n : Nat} (hn : n < w.slots.length)
    (hnone : w.live? n = none) : w'.live? n = none := by
  cases hs' : w'.live? n with
  | none => rfl
  | some s' =>
    obtain ⟨s, hs, -⟩ := h.aged hn hs'
    rw [hnone] at hs
    cases hs

end

/-! ## Who is on the list -/

namespace World

/-- The watcher holds a subscription by this number. -/
def Holds (w : World E R) (id : Nat) : Watcher E R → Prop
  | .surface n => w.subscription? n = some id
  | .observer i _ => w.subscriptions[i]? = some (some id)

/-- The surface was destroyed, or the subscription ended. -/
def Gone (w : World E R) : Watcher E R → Prop
  | .surface n => n < w.slots.length ∧ w.live? n = none
  | .observer i _ => w.subscriptions[i]? = some none

/-- The watcher is gone, and stays on the list under this number. -/
def Stranded (w : World E R) (id : Nat) (watcher : Watcher E R) : Prop :=
  id ∈ w.stranded ∧ w.Gone watcher

/-- The notifier knows nobody but those who hold a subscription and those who are stranded. -/
def Listed (w : World E R) : Prop :=
  ∀ id watcher, (id, watcher) ∈ w.notifier.observers →
    w.Holds id watcher ∨ w.Stranded id watcher

variable {w w' w'' : World E R} {n : Nat}

theorem listed_initial (theme : Theme) : (World.initial theme : World E R).Listed :=
  fun _ _ h => absurd h List.not_mem_nil

theorem Gone.not_holds {watcher : Watcher E R} (h : w.Gone watcher) (id : Nat) :
    ¬ w.Holds id watcher := by
  intro hholds
  cases watcher with
  | surface n =>
    obtain ⟨s, hs, -⟩ := Option.bind_eq_some_iff.mp hholds
    rw [h.2] at hs
    cases hs
  | observer i body =>
    have hnone : w.subscriptions[i]? = some none := h
    rw [Holds, hnone] at hholds
    cases hholds

/-- Whoever is on the list afterwards was on it before and holds what it held, or has come to hold
its number. -/
def Tracks (w w' : World E R) : Prop :=
  ∀ id watcher, (id, watcher) ∈ w'.notifier.observers →
    (id, watcher) ∈ w.notifier.observers ∧ (w.Holds id watcher → w'.Holds id watcher) ∨
      w'.Holds id watcher

theorem Tracks.trans (h : Tracks w w') (h' : Tracks w' w'') : Tracks w w'' := by
  intro id watcher hmem
  rcases h' id watcher hmem with ⟨hold, hstill⟩ | hholds
  · rcases h id watcher hold with ⟨holder, hfirst⟩ | hholds
    · exact .inl ⟨holder, fun hholds => hstill (hfirst hholds)⟩
    · exact .inr (hstill hholds)
  · exact .inr hholds

/-- Changes after which nobody is on the list who was not, and those who are on it hold what they
held. -/
theorem tracks_of_subset (hobservers : ∀ x ∈ w'.notifier.observers, x ∈ w.notifier.observers)
    (hsubscription : ∀ id m, (id, .surface m) ∈ w'.notifier.observers →
      w.subscription? m = some id → w'.subscription? m = some id)
    (hsubscriptions : ∀ id i body, (id, .observer i body) ∈ w'.notifier.observers →
      w.subscriptions[i]? = some (some id) → w'.subscriptions[i]? = some (some id)) :
    Tracks w w' := by
  intro id watcher hmem
  refine .inl ⟨hobservers _ hmem, fun hold => ?_⟩
  cases watcher with
  | surface m => exact hsubscription id m hmem hold
  | observer i body => exact hsubscriptions id i body hmem hold

/-- Changes that are not about subscriptions. -/
theorem tracks_of_eq (hsubscription : ∀ m, w'.subscription? m = w.subscription? m)
    (hobservers : w'.notifier.observers = w.notifier.observers)
    (hsubscriptions : w'.subscriptions = w.subscriptions) : Tracks w w' := by
  refine tracks_of_subset (fun x hx => hobservers ▸ hx) (fun id m _ hid => ?_)
    fun id i body _ hid => ?_
  · rw [hsubscription, hid]
  · rw [hsubscriptions, hid]

theorem subscription?_of_live? {f : Live E R → Live E R}
    (hlive : ∀ m, w'.live? m = if n = m then (w.live? m).map f else w.live? m)
    (hf : ∀ s, (f s).subscription = s.subscription) (m : Nat) :
    w'.subscription? m = w.subscription? m := by
  rw [subscription?, hlive, subscription?]
  split
  · cases w.live? m with
    | none => rfl
    | some s => exact hf s
  · rfl

theorem tracks_changeLive {f : Live E R → Live E R}
    (hf : ∀ s, (f s).subscription = s.subscription) : Tracks w (w.changeLive n f) :=
  tracks_of_eq (subscription?_of_live? (fun _ => live?_changeLive) hf) rfl rfl

theorem tracks_changeSlot {f : Slot E R → Slot E R} (hf : ∀ slot, (f slot).live = slot.live) :
    Tracks w (w.changeSlot n f) := by
  refine tracks_of_eq (fun m => ?_) rfl rfl
  rw [subscription?, live?_changeSlot_of_live hf, subscription?]

theorem tracks_aside [EditableLayer E] {p : Operation E R → Prop} (h : Aside p w w') :
    Tracks w w' := by
  cases h with
  | noted | told | kept | abandoned => exact tracks_of_eq (fun _ => rfl) rfl rfl
  | written | drawn | observed => exact tracks_changeLive fun _ => rfl
  | connected | disconnected | handled | entered => exact tracks_changeSlot fun _ => rfl

theorem Listed.withTheme (h : w.Listed) (theme : Theme) : (w.withTheme theme).Listed := h

theorem Listed.record (h : w.Listed) (e : Event) : (w.record e).Listed := h

theorem Gone.setSuppressing {watcher : Watcher E R} (h : w.Gone watcher) (n : Nat) (on : Bool) :
    (w.setSuppressing n on).Gone watcher := by
  cases watcher with
  | surface m =>
    refine ⟨Nat.lt_of_lt_of_eq h.1 length_changeLive.symm, ?_⟩
    rw [World.setSuppressing, live?_changeLive, h.2]
    exact ite_self _
  | observer i body => exact h

theorem Listed.setSuppressing (h : w.Listed) (n : Nat) (on : Bool) :
    (w.setSuppressing n on).Listed := by
  intro id watcher hmem
  have htracks : Tracks w (w.setSuppressing n on) := tracks_changeLive fun _ => rfl
  rcases htracks id watcher hmem with ⟨hold, hstill⟩ | hholds
  · exact (h id watcher hold).imp hstill fun hstranded =>
      ⟨hstranded.1, hstranded.2.setSuppressing n on⟩
  · exact .inl hholds

/-! ## Giving back -/

/-- A number that is not held by somebody else goes with whoever held it. -/
theorem mem_observers_forget {id k : Nat} {watcher : Watcher E R} :
    (k, watcher) ∈ (w.forget id).notifier.observers ↔
      (k, watcher) ∈ w.notifier.observers ∧ k ≠ id := by
  rw [forget, List.mem_filter, bne_iff_ne]

theorem subscription?_unsubscribeSurface (m : Nat) :
    (w.unsubscribeSurface n).subscription? m = if n = m then none else w.subscription? m := by
  rw [subscription?, live?_unsubscribeSurface, subscription?]
  split
  · cases w.live? m <;> rfl
  · rfl

/-- A surface that held its subscription is not on the list any more after giving it back. -/
theorem not_mem_unsubscribeSurface {id : Nat} (h : w.subscription? n = some id) :
    (id, .surface n) ∉ (w.unsubscribeSurface n).notifier.observers := by
  have hnotifier : (w.unsubscribeSurface n).notifier =
      (w.forget? (w.subscription? n)).notifier := rfl
  rw [hnotifier, h]
  exact fun hmem => (mem_observers_forget.mp hmem).2 rfl

/-- All but one surface hold what they held, and that one is on the list no more. -/
theorem tracks_of_unsubscribeSurface (hobservers : w'.notifier.observers =
      (w.unsubscribeSurface n).notifier.observers)
    (hsubscription : ∀ m, n ≠ m → w'.subscription? m = w.subscription? m)
    (hsubscriptions : w'.subscriptions = w.subscriptions) : Tracks w w' := by
  refine tracks_of_subset (fun x hx => ?_) (fun id m hmem hid => ?_) fun id i body _ hid => ?_
  · rw [hobservers] at hx
    exact observers_forget?_sublist.subset hx
  · have hne : n ≠ m := by
      rintro rfl
      rw [hobservers] at hmem
      exact not_mem_unsubscribeSurface hid hmem
    rw [hsubscription m hne, hid]
  · rw [hsubscriptions, hid]

theorem tracks_unsubscribeSurface : Tracks w (w.unsubscribeSurface n) := by
  refine tracks_of_unsubscribeSurface (n := n) rfl (fun m hne => ?_)
    (congrArg Prod.fst ledger_unsubscribeSurface)
  rw [subscription?_unsubscribeSurface, if_neg hne]

theorem tracks_collect : Tracks w (w.collect n) := by
  unfold World.collect
  split
  · split
    · refine tracks_of_unsubscribeSurface (n := n) rfl (fun m hne => ?_)
        (congrArg Prod.fst ledger_unsubscribeSurface)
      rw [subscription?, live?_changeSlot, if_neg hne, ← subscription?,
        subscription?_unsubscribeSurface, if_neg hne]
    · exact tracks_of_eq (fun _ => rfl) rfl rfl
  · exact tracks_of_eq (fun _ => rfl) rfl rfl

theorem tracks_leave : Tracks w (w.leave n) :=
  Tracks.trans (tracks_changeSlot (f := fun slot => { slot with guests := slot.guests - 1 })
    fun _ => rfl) tracks_collect

theorem tracks_unsubscribe {i id : Nat} (hid : w.subscriptions[i]? = some (some id)) :
    Tracks w (w.unsubscribe i id) := by
  refine tracks_of_subset (fun x hx => (mem_observers_forget.mp hx).1) (fun _ _ _ hm => hm)
    fun k j body hmem hk => ?_
  have hne : i ≠ j := by
    rintro rfl
    rw [hid] at hk
    exact (mem_observers_forget.mp hmem).2 (Option.some.inj (Option.some.inj hk)).symm
  show (w.subscriptions.set i none)[j]? = some (some k)
  rw [List.getElem?_set_ne hne, hk]

/-! ## Taking up -/

theorem tracks_withFresh (editable : E) (rendered : R) :
    Tracks w (w.withFresh editable rendered) := by
  intro id watcher hmem
  rcases List.mem_append.mp hmem with hold | hnew
  · refine .inl ⟨hold, fun hholds => ?_⟩
    cases watcher with
    | surface m =>
      obtain ⟨s, hs, -⟩ := Option.bind_eq_some_iff.mp hholds
      rw [Holds, subscription?, live?_withFresh, if_neg (Nat.ne_of_lt (lt_length_of_live? hs))]
      exact hholds
    | observer i body => exact hholds
  · cases List.mem_singleton.mp hnew
    refine .inr ?_
    rw [Holds, subscription?, live?_withFresh, if_pos rfl]
    rfl

theorem tracks_subscribe (body : Theme → Script E R) : Tracks w (w.subscribe body) := by
  intro id watcher hmem
  rcases List.mem_append.mp hmem with hold | hnew
  · refine .inl ⟨hold, fun hholds => ?_⟩
    cases watcher with
    | surface m => exact hholds
    | observer i body' =>
      have hlt : i < w.subscriptions.length := (List.getElem?_eq_some_iff.mp hholds).1
      exact (List.getElem?_append_left hlt).trans hholds
  · cases List.mem_singleton.mp hnew
    exact .inr List.getElem?_concat_length

/-! ## Showing -/

variable [RenderLayer R]

theorem tracks_changeAndShow (f : State → State) : Tracks w (changeAndShow n f w).2 :=
  tracks_of_eq (subscription?_of_live? (fun _ => live?_changeAndShow) fun _ => rfl)
    (by rw [notifier_changeAndShow]) (congrArg Prod.fst (ledger_changeAndShow f))

variable [EditableLayer E]

theorem tracks_applyLayout : Tracks w (applyLayout n w).2 :=
  tracks_of_eq (subscription?_of_live? (fun _ => live?_applyLayout) fun _ => rfl)
    (by rw [notifier_applyLayout]) (congrArg Prod.fst ledger_applyLayout)

theorem tracks_create (editable : E) (rendered : R) :
    Tracks w (create editable rendered w).2 := by
  obtain ⟨f, hcreate⟩ := create_world editable rendered w
  have hentered : Tracks w ((w.withFresh editable rendered).enter w.slots.length) :=
    (tracks_withFresh editable rendered).trans (tracks_changeSlot fun _ => rfl)
  rw [hcreate]
  refine Tracks.trans ?_ tracks_leave
  refine Tracks.trans (hentered.trans tracks_applyLayout) (tracks_changeSlot ?_)
  exact fun _ => rfl

end World

/-! ## Turns -/

section
variable [EditableLayer E] [RenderLayer R] {p : Operation E R → Prop} {w w' : World E R}

theorem Turn.gone (h : Turn p w w') {watcher : Watcher E R} (hgone : w.Gone watcher) :
    w'.Gone watcher := by
  cases watcher with
  | surface n =>
    exact ⟨Nat.lt_of_lt_of_le hgone.1 h.length_slots_le, h.live?_none hgone.1 hgone.2⟩
  | observer i body => exact h.stays_none hgone

theorem Turn.stays_stranded (h : Turn p w w') {id : Nat} {watcher : Watcher E R}
    (hstranded : w.Stranded id watcher) : w'.Stranded id watcher :=
  ⟨h.stranded_subset hstranded.1, h.gone hstranded.2⟩

/-- Whatever happens in a turn, the notifier lists nobody without a subscription who is not
stranded. -/
theorem Turn.listed (h : Turn p w w') (hw : w.Listed) : w'.Listed := by
  have hlisted (htracks : World.Tracks w w') : w'.Listed := by
    intro id watcher hmem
    rcases htracks id watcher hmem with ⟨hold, hstill⟩ | hholds
    · exact (hw id watcher hold).imp hstill h.stays_stranded
    · exact .inl hholds
  -- Whoever is on the list in a turn that strands somebody was on it before.
  have hstranding (hobservers : w'.notifier.observers = w.notifier.observers)
      (hholder : ∀ id watcher, w.Holds id watcher →
        w'.Holds id watcher ∨ w'.Stranded id watcher) : w'.Listed := by
    intro id watcher hmem
    rw [hobservers] at hmem
    rcases hw id watcher hmem with hholds | hstranded
    · exact hholder id watcher hholds
    · exact .inr (h.stays_stranded hstranded)
  cases h with
  | aside h => exact hlisted (World.tracks_aside h)
  | shown n f w _ => exact hlisted (World.tracks_changeAndShow f)
  | followed n w _ =>
    rw [World.followTheme_apply] at *
    exact hlisted (World.tracks_changeAndShow _)
  | laidOut n change w _ =>
    have hchanged : World.Tracks w (w.changeState n fun s =>
        { s with layout := change.apply s.layout }) := World.tracks_changeLive fun _ => rfl
    exact hlisted (hchanged.trans World.tracks_applyLayout)
  | created editable rendered w => exact hlisted (World.tracks_create editable rendered)
  | left n w => exact hlisted World.tracks_leave
  | released n w => exact hlisted World.tracks_unsubscribeSurface
  | subscribed body w _ => exact hlisted (World.tracks_subscribe body)
  | unsubscribed i id w hid => exact hlisted (World.tracks_unsubscribe hid)
  | stranded i id w hid howned =>
    refine hstranding rfl fun k watcher hholds => ?_
    have hlt : i < w.subscriptions.length := (List.getElem?_eq_some_iff.mp hid).1
    cases watcher with
    | surface n => exact .inl hholds
    | observer j body =>
      by_cases hij : i = j
      · subst hij
        rw [World.Holds, hid] at hholds
        cases hholds
        exact .inr ⟨List.mem_append_right _ (List.mem_singleton_self _),
          List.getElem?_set_self hlt⟩
      · exact .inl ((List.getElem?_set_ne hij).trans hholds)
  | strandedSurface n w _ howned =>
    refine hstranding rfl fun k watcher hholds => ?_
    cases watcher with
    | surface m =>
      by_cases hnm : n = m
      · subst hnm
        obtain ⟨s, hs, -⟩ := Option.bind_eq_some_iff.mp hholds
        have hgone : (w.strandSurface n).Gone (.surface n) := by
          refine ⟨?_, by rw [World.live?_strandSurface, if_pos rfl]⟩
          rw [World.length_strandSurface]
          exact World.lt_length_of_live? hs
        have hnumber : (w.live? n).bind Live.subscription = some k := hholds
        refine .inr ⟨List.mem_append_right _ ?_, hgone⟩
        rw [hnumber]
        exact List.mem_singleton_self k
      · refine .inl ?_
        rw [World.Holds, World.subscription?, World.live?_strandSurface, if_neg hnm]
        exact hholds
    | observer i body => exact .inl hholds

end

/-! ## Runs in which nothing is handed over -/

/-- The operation hands nothing over to a callback. -/
def Operation.HandsNothingOver : Operation E R → Prop
  | .entrust _ _ => False
  | _ => True

namespace World

/-- No callback owns anything, and nobody is stranded. -/
structure Unowned (w : World E R) : Prop where
  stores : w.Stores Operation.HandsNothingOver
  belongings : w.belongings = []
  stranded : w.stranded = []

theorem not_mayOwn : ¬ MayOwn (Operation.HandsNothingOver (E := E) (R := R)) :=
  fun ⟨_, _, h⟩ => h

theorem unowned_initial (theme : Theme) : (World.initial theme : World E R).Unowned :=
  ⟨stores_initial _ theme, rfl, rfl⟩

theorem themed_unowned (theme : Theme) :
    Themed (fun (_ : Unit) (w : World E R) => w.Unowned) theme where
  withTheme := fun _ _ hw => ⟨hw.stores.withTheme theme, hw.belongings, hw.stranded⟩
  called := fun _ _ _ hw => ⟨hw.stores.record _, hw.belongings, hw.stranded⟩

end World

/-- A turn that hands nothing over strands nobody. -/
theorem Turn.unowned [EditableLayer E] [RenderLayer R] {w w' : World E R}
    (h : Turn Operation.HandsNothingOver w w') (hw : w.Unowned) : w'.Unowned := by
  have hunowned {subscriptions : List (Option Nat)}
      (heq : w'.ledger = (subscriptions, w.stranded, w.belongings)) : w'.Unowned :=
    ⟨h.move.stores hw.stores, (congrArg (·.2.2) heq).trans hw.belongings,
      (congrArg (·.2.1) heq).trans hw.stranded⟩
  rcases h.ledger with
    ⟨-, heq, hkept⟩ | ⟨id, heq⟩ | ⟨j, heq⟩ | ⟨_, _, _, howned, -⟩ | ⟨_, howned, -⟩
  · refine ⟨h.move.stores hw.stores, List.eq_nil_iff_forall_not_mem.mpr fun b hb => ?_,
      heq.trans hw.stranded⟩
    rcases hkept b hb with hold | hnew
    · rw [hw.belongings] at hold
      exact List.not_mem_nil hold
    · exact hnew
  · exact hunowned heq
  · exact hunowned heq
  · exact absurd howned World.not_mayOwn
  · exact absurd howned World.not_mayOwn

namespace World

variable [EditableLayer E] [RenderLayer R]

theorem Unowned.setSuppressing {w : World E R} (h : w.Unowned) (n : Nat) (on : Bool) :
    (w.setSuppressing n on).Unowned := by
  have hmove : Move Operation.HandsNothingOver w (w.setSuppressing n on) :=
    .quiet (.suppressed n on w)
  exact ⟨hmove.stores h.stores, h.belongings, h.stranded⟩

theorem walked_unowned : Walked False Operation.HandsNothingOver
    fun (_ : Unit) (w : World E R) => w.Unowned where
  stores := fun _ _ hw => hw.stores
  owned := fun _ _ hw hne => absurd hw.belongings hne
  tells := tells_of_follows fun _ => trivial
  turn := fun _ _ _ hw h => h.unowned hw
  write := fun {_} n {_ _} h => Surface.Action.matches_suppressing h fun _ _ on hw =>
    hw.setSuppressing n on

end World

/-- Nobody is stranded in a run in which nothing is handed over to callbacks. -/
theorem Operation.stranded_of_program [EditableLayer E] [RenderLayer R] (theme : Theme)
    (depth : Nat) (program : Script E R) (h : program.Throughout HandsNothingOver) :
    (program.run (run depth) (World.initial theme)).2.stranded = [] :=
  (kept_by_script (i := ()) World.walked_unowned World.themed_unowned
    (World.unowned_initial theme) depth program h).stranded
end Surface
end QueryView
