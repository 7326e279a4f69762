/-
How many observers the notifier has.

The notifier has an observer for every subscription that the embedder holds and one for every
surface that is alive and holds its own, and besides these the ones that are stranded.
Subscriptions are taken up and given back in many ways: a surface that is created may fail to be
shown or panic in it, it may have several handles, it may be disposed of before it is destroyed,
and callbacks may do any of this while others are told.  None of them takes an observer away
twice, and none but the end of a callback that owns something leaves one behind.

That nobody is missing is what `Registered` says, and that nobody is left over is what `Listed`
says.  For the two to give a number, no number may stand in the list twice.  What a turn does to
the list is said once (`ListStep`): a new observer gets the next number and goes to the end, and
only those are taken off whose number is held or is new.  So the numbers are increasing
(`Increasing`), and whoever is stranded stays on the list (`Turn.strandedOnce`).
-/
import Mathlib.Data.List.Nodup
import QueryView.Proofs.Surface.Silence

namespace QueryView
namespace Surface

variable {E R : Type}

namespace World

/-- The numbers under which the notifier knows its observers. -/
def ids (w : World E R) : List Nat := w.notifier.observers.map Prod.fst

/-- The numbers of the observers are all different, and in the order of subscription. -/
def Increasing (w : World E R) : Prop := w.ids.Pairwise (· < ·)

/-- The numbers that are held: those of the subscriptions of the embedder, and those of the
surfaces that are alive. -/
def heldIds (w : World E R) : List Nat :=
  w.subscriptions.filterMap (fun held => held) ++
    w.slots.filterMap fun slot => slot.live.bind Live.subscription

variable {w w' : World E R} {n : Nat}

/-! ## Numbers that are held -/

/-- What is found in one place only is found once. -/
theorem nodup_filterMap {α β : Type} {f : α → Option β} {xs : List α}
    (h : ∀ (i j : Nat) (y : β), xs[i]?.bind f = some y → xs[j]?.bind f = some y → i = j) :
    (xs.filterMap f).Nodup := by
  refine List.pairwise_filterMap.mpr (List.pairwise_iff_getElem.mpr ?_)
  rintro i j hi hj hlt y hy _ hy' rfl
  have hfirst : xs[i]?.bind f = some y := by rw [List.getElem?_eq_getElem hi, Option.bind_some, hy]
  have hlater : xs[j]?.bind f = some y := by rw [List.getElem?_eq_getElem hj, Option.bind_some, hy']
  exact Nat.ne_of_lt hlt (h i j y hfirst hlater)

theorem mem_filterMap_iff {α β : Type} {f : α → Option β} {xs : List α} {y : β} :
    y ∈ xs.filterMap f ↔ ∃ i : Nat, xs[i]?.bind f = some y := by
  rw [List.mem_filterMap]
  constructor
  · rintro ⟨x, hx, hy⟩
    obtain ⟨i, hi⟩ := List.mem_iff_getElem?.mp hx
    exact ⟨i, by rw [hi]; exact hy⟩
  · rintro ⟨i, hi⟩
    obtain ⟨x, hx, hy⟩ := Option.bind_eq_some_iff.mp hi
    exact ⟨x, List.mem_iff_getElem?.mpr ⟨i, hx⟩, hy⟩

theorem subscription?_eq_bind :
    w.subscription? n = w.slots[n]?.bind fun slot => slot.live.bind Live.subscription :=
  Option.bind_assoc _ _ _

theorem subscriptions_bind {i id : Nat} :
    w.subscriptions[i]?.bind (fun held => held) = some id ↔
      w.subscriptions[i]? = some (some id) := by
  cases w.subscriptions[i]? with
  | none => exact ⟨nofun, nofun⟩
  | some held => exact ⟨congrArg some, Option.some.inj⟩

/-- A number is held by the embedder or by a surface. -/
theorem mem_heldIds {id : Nat} : id ∈ w.heldIds ↔
    (∃ i : Nat, w.subscriptions[i]? = some (some id)) ∨ ∃ n, w.subscription? n = some id := by
  simp only [heldIds, List.mem_append, mem_filterMap_iff, subscriptions_bind,
    subscription?_eq_bind]

theorem mem_ids {id : Nat} : id ∈ w.ids ↔ ∃ watcher, (id, watcher) ∈ w.notifier.observers := by
  simp [ids]

/-- Nobody holds a number that somebody else holds. -/
theorem Registered.nodup_heldIds (h : w.Registered) : w.heldIds.Nodup := by
  have hobserver (i id : Nat) (hi : w.subscriptions[i]?.bind (fun held => held) = some id) :
      ∃ body, (id, .observer i body) ∈ w.notifier.observers :=
    h.observers i id (subscriptions_bind.mp hi)
  have hsurface (n id : Nat) (hn : w.slots[n]?.bind
      (fun slot => slot.live.bind Live.subscription) = some id) :
      (id, .surface n) ∈ w.notifier.observers := by
    rw [← subscription?_eq_bind] at hn
    obtain ⟨s, hs, hid⟩ := Option.bind_eq_some_iff.mp hn
    exact h.surfaces n s id hs hid
  refine List.nodup_append.mpr ⟨nodup_filterMap ?_, nodup_filterMap ?_, ?_⟩
  · intro i j id hi hj
    obtain ⟨body, hbody⟩ := hobserver i id hi
    obtain ⟨body', hbody'⟩ := hobserver j id hj
    exact (Watcher.observer.inj (h.unique id _ _ hbody hbody')).1
  · intro n m id hn hm
    exact Watcher.surface.inj (h.unique id _ _ (hsurface n id hn) (hsurface m id hm))
  · rintro id hi _ hn rfl
    obtain ⟨i, hi⟩ := mem_filterMap_iff.mp hi
    obtain ⟨n, hn⟩ := mem_filterMap_iff.mp hn
    obtain ⟨body, hbody⟩ := hobserver i id hi
    cases h.unique id _ _ hbody (hsurface n id hn)

theorem Holds.mem_heldIds {id : Nat} {watcher : Watcher E R} (h : w.Holds id watcher) :
    id ∈ w.heldIds := by
  cases watcher with
  | surface n => exact World.mem_heldIds.mpr (.inr ⟨n, h⟩)
  | observer i body => exact World.mem_heldIds.mpr (.inl ⟨i, h⟩)

/-- A number that is held stands on the list, as that of its holder. -/
theorem Registered.exists_holder (h : w.Registered) {id : Nat} (hid : id ∈ w.heldIds) :
    ∃ watcher, (id, watcher) ∈ w.notifier.observers ∧ w.Holds id watcher := by
  rcases mem_heldIds.mp hid with ⟨i, hi⟩ | ⟨n, hn⟩
  · obtain ⟨body, hbody⟩ := h.observers i id hi
    exact ⟨_, hbody, hi⟩
  · obtain ⟨s, hs, hsub⟩ := Option.bind_eq_some_iff.mp hn
    exact ⟨_, h.surfaces n s id hs hsub, hn⟩

/-- Whoever is stranded stands on the list and is gone, and is counted once. -/
structure StrandedOnce (w : World E R) : Prop where
  nodup : w.stranded.Nodup
  known : ∀ id ∈ w.stranded, ∃ watcher, (id, watcher) ∈ w.notifier.observers ∧ w.Gone watcher

theorem StrandedOnce.withTheme (h : w.StrandedOnce) (theme : Theme) :
    (w.withTheme theme).StrandedOnce :=
  ⟨h.nodup, h.known⟩

theorem StrandedOnce.record (h : w.StrandedOnce) (e : Event) : (w.record e).StrandedOnce :=
  ⟨h.nodup, h.known⟩

theorem StrandedOnce.setSuppressing (h : w.StrandedOnce) (n : Nat) (on : Bool) :
    (w.setSuppressing n on).StrandedOnce := by
  refine ⟨h.nodup, fun id hid => ?_⟩
  obtain ⟨watcher, hmem, hgone⟩ := h.known id hid
  exact ⟨watcher, hmem, hgone.setSuppressing n on⟩

/-- Nobody holds the number of somebody who is stranded. -/
theorem StrandedOnce.unheld (h : w.StrandedOnce) (hregistered : w.Registered) {id : Nat}
    (hid : id ∈ w.stranded) : id ∉ w.heldIds := by
  intro hheld
  obtain ⟨watcher, hmem, hgone⟩ := h.known id hid
  obtain ⟨holder, hholder, hholds⟩ := hregistered.exists_holder hheld
  cases hregistered.unique id holder watcher hholder hmem
  exact hgone.not_holds id hholds

/-- The notifier knows exactly those who hold a subscription and those who are stranded, each
once. -/
theorem ids_perm_heldIds (hregistered : w.Registered) (hlisted : w.Listed)
    (hincreasing : w.Increasing) (hstranded : w.StrandedOnce) :
    w.ids.Perm (w.heldIds ++ w.stranded) := by
  have hnodup : (w.heldIds ++ w.stranded).Nodup := by
    refine List.nodup_append.mpr ⟨hregistered.nodup_heldIds, hstranded.nodup, ?_⟩
    rintro id hheld _ hid rfl
    exact hstranded.unheld hregistered hid hheld
  refine (List.perm_ext_iff_of_nodup (hincreasing.imp Nat.ne_of_lt) hnodup).mpr fun id => ?_
  rw [mem_ids, List.mem_append]
  constructor
  · rintro ⟨watcher, hmem⟩
    exact (hlisted id watcher hmem).imp Holds.mem_heldIds And.left
  · rintro (hheld | hid)
    · obtain ⟨watcher, hmem, -⟩ := hregistered.exists_holder hheld
      exact ⟨watcher, hmem⟩
    · obtain ⟨watcher, hmem, -⟩ := hstranded.known id hid
      exact ⟨watcher, hmem⟩

theorem length_observers (hregistered : w.Registered) (hlisted : w.Listed)
    (hincreasing : w.Increasing) (hstranded : w.StrandedOnce) : w.notifier.observers.length =
      w.subscriptions.countP Option.isSome +
        w.slots.countP (fun slot => (slot.live.bind Live.subscription).isSome) +
        w.stranded.length := by
  have hlength := (ids_perm_heldIds hregistered hlisted hincreasing hstranded).length_eq
  rw [ids, List.length_map, List.length_append, heldIds, List.length_append,
    List.length_filterMap_eq_countP, List.length_filterMap_eq_countP] at hlength
  exact hlength

/-! ## Numbers that are given out -/

theorem increasing_initial (theme : Theme) : (World.initial theme : World E R).Increasing := .nil

theorem strandedOnce_initial (theme : Theme) :
    (World.initial theme : World E R).StrandedOnce :=
  ⟨.nil, fun _ h => absurd h List.not_mem_nil⟩

/-- Whoever comes next on the list. -/
structure Next (w : World E R) (x : Nat × Watcher E R) : Prop where
  id : x.1 = w.notifier.nextId
  watcher : match x.2 with
    | .surface n => n = w.slots.length
    | .observer i _ => i = w.subscriptions.length

/-- What becomes of the list.  It stays as it is, or somebody is taken off it whose number is held;
or somebody comes to its end, and may be taken off it again. -/
inductive ListStep (w w' : World E R) : Prop where
  | kept (h : w'.notifier.observers = w.notifier.observers)
  | taken (id) (hid : id ∈ w.heldIds)
      (h : w'.notifier.observers = w.notifier.observers.filter fun o => o.1 != id)
  | added (x) (hx : w.Next x) (h : w'.notifier.observers = w.notifier.observers ++ [x])
  | inVain (x) (hx : w.Next x)
      (h : w'.notifier.observers = (w.notifier.observers ++ [x]).filter fun o => o.1 != x.1)

/-- Whoever is on the list was on it before, or comes next and stands at the end. -/
theorem ListStep.sublist (h : ListStep w w') :
    ∃ x, w.Next x ∧ w'.notifier.observers.Sublist (w.notifier.observers ++ [x]) := by
  have hnext : w.Next (w.notifier.nextId, .surface w.slots.length) := ⟨rfl, rfl⟩
  rcases h with heq | ⟨id, -, heq⟩ | ⟨x, hx, heq⟩ | ⟨x, hx, heq⟩
  · exact ⟨_, hnext, heq ▸ List.sublist_append_left _ _⟩
  · exact ⟨_, hnext, heq ▸ List.filter_sublist.trans (List.sublist_append_left _ _)⟩
  · exact ⟨x, hx, heq ▸ List.Sublist.refl _⟩
  · exact ⟨x, hx, heq ▸ List.filter_sublist⟩

theorem Increasing.listStep (h : w.Increasing) (hregistered : w.Registered)
    (hstep : ListStep w w') : w'.Increasing := by
  obtain ⟨x, hnext, hobservers⟩ := hstep.sublist
  have hids : w'.ids.Sublist (w.ids ++ [x.1]) :=
    (List.map_append (f := Prod.fst) ▸ hobservers.map Prod.fst :)
  refine List.Pairwise.sublist hids
    (List.pairwise_append.mpr ⟨h, List.pairwise_singleton _ _, ?_⟩)
  intro id hid next hlast
  obtain ⟨watcher, hmem⟩ := mem_ids.mp hid
  rw [List.mem_singleton.mp hlast, hnext.id]
  exact hregistered.below id watcher hmem

/-- Whoever holds no number that is held stays on the list. -/
theorem ListStep.mem (h : ListStep w w') (hregistered : w.Registered) {id : Nat}
    {watcher : Watcher E R} (hmem : (id, watcher) ∈ w.notifier.observers)
    (hunheld : id ∉ w.heldIds) : (id, watcher) ∈ w'.notifier.observers := by
  rcases h with heq | ⟨k, hk, heq⟩ | ⟨x, -, heq⟩ | ⟨x, hx, heq⟩
  · exact heq ▸ hmem
  · have hne : id ≠ k := fun hid => hunheld (hid ▸ hk)
    exact heq ▸ List.mem_filter.mpr ⟨hmem, bne_iff_ne.mpr hne⟩
  · exact heq ▸ List.mem_append_left _ hmem
  · have hne : id ≠ x.1 := Nat.ne_of_lt (hx.id ▸ hregistered.below id watcher hmem)
    exact heq ▸ List.mem_filter.mpr ⟨List.mem_append_left _ hmem, bne_iff_ne.mpr hne⟩

/-- Whoever is on the list does not come next. -/
theorem Listed.not_next (h : w.Listed) {x : Nat × Watcher E R} (hx : w.Next x) :
    x.2 ∉ w.notifier.observers.map Prod.snd := by
  intro hmem
  obtain ⟨⟨id, watcher⟩, hlist, heq⟩ := List.mem_map.mp hmem
  obtain ⟨k, next⟩ := x
  obtain rfl : watcher = next := heq
  cases watcher with
  | surface n =>
    have hn : n = w.slots.length := hx.watcher
    rcases h id _ hlist with hholds | ⟨-, hlt, -⟩
    · obtain ⟨s, hs, -⟩ := Option.bind_eq_some_iff.mp hholds
      exact Nat.ne_of_lt (lt_length_of_live? hs) hn
    · exact Nat.ne_of_lt hlt hn
  | observer i body =>
    have hi : i = w.subscriptions.length := hx.watcher
    rcases h id _ hlist with hholds | ⟨-, hgone⟩
    · exact Nat.ne_of_lt (List.getElem?_eq_some_iff.mp hholds).1 hi
    · exact Nat.ne_of_lt (List.getElem?_eq_some_iff.mp hgone).1 hi

/-- Nobody is on the list twice. -/
theorem nodup_watchers (h : (w.notifier.observers.map Prod.snd).Nodup) (hlisted : w.Listed)
    (hstep : ListStep w w') : (w'.notifier.observers.map Prod.snd).Nodup := by
  obtain ⟨x, hnext, hobservers⟩ := hstep.sublist
  have hwatchers := hobservers.map Prod.snd
  rw [List.map_append] at hwatchers
  refine List.Nodup.sublist hwatchers (List.nodup_append.mpr ⟨h, List.nodup_singleton _, ?_⟩)
  rintro watcher hmem _ hlast rfl
  rw [List.map_singleton, List.mem_singleton] at hlast
  exact hlisted.not_next hnext (hlast ▸ hmem)

/-! ## Who is taken off the list -/

theorem listStep_forget? {id : Option Nat} (hid : ∀ k, id = some k → k ∈ w.heldIds)
    (h : w'.notifier.observers = (w.forget? id).notifier.observers) : ListStep w w' := by
  cases id with
  | none => exact .kept h
  | some k => exact .taken k (hid k rfl) h

theorem observers_leave : (w.leave n).notifier.observers = w.notifier.observers ∨
    (w.leave n).notifier.observers = (w.forget? (w.subscription? n)).notifier.observers := by
  let left := w.changeSlot n fun slot => { slot with guests := slot.guests - 1 }
  have hlive : left.live? n = w.live? n := live?_changeSlot_of_live fun _ => rfl
  have hnotifier (id : Option Nat) : (left.forget? id).notifier = (w.forget? id).notifier := by
    cases id <;> rfl
  unfold leave collect
  split
  · split
    · rw [subscription?, ← hlive]
      exact .inr (congrArg Notifier.observers (hnotifier _))
    · exact .inl rfl
  · exact .inl rfl

end World

section
variable [EditableLayer E] [RenderLayer R] {p : Operation E R → Prop} {w w' : World E R}

theorem Turn.list (h : Turn p w w') : World.ListStep w w' := by
  have hholder (n k : Nat) (hk : w.subscription? n = some k) : k ∈ w.heldIds :=
    World.mem_heldIds.mpr (.inr ⟨n, hk⟩)
  cases h with
  | aside h => exact .kept h.still.observers
  | shown n f w => exact .kept (by rw [World.notifier_changeAndShow])
  | followed n w =>
    exact .kept (by rw [World.followTheme_apply, World.notifier_changeAndShow])
  | laidOut n change w => exact .kept (by rw [World.notifier_applyLayout]; rfl)
  | created editable rendered w =>
    obtain ⟨f, hcreate⟩ := World.create_world editable rendered w
    rw [hcreate]
    let laid := (World.applyLayout w.slots.length
      ((w.withFresh editable rendered).enter w.slots.length)).2.changeSlot w.slots.length
        fun slot => { slot with handles := f slot.handles }
    have hobservers : laid.notifier.observers =
        w.notifier.observers ++ [(w.notifier.nextId, .surface w.slots.length)] := by
      show (World.applyLayout _ _).2.notifier.observers = _
      rw [World.notifier_applyLayout]
      rfl
    have hsubscription : laid.subscription? w.slots.length = some w.notifier.nextId := by
      rw [World.subscription?, World.live?_changeSlot_of_live (by intro _; rfl),
        World.live?_applyLayout, if_pos rfl, World.live?_enter, World.live?_withFresh, if_pos rfl]
      rfl
    rcases World.observers_leave (w := laid) (n := w.slots.length) with hstays | hgoes
    · exact .added _ ⟨rfl, rfl⟩ (hstays.trans hobservers)
    · rw [hsubscription] at hgoes
      refine .inVain (w.notifier.nextId, .surface w.slots.length) ⟨rfl, rfl⟩ (hgoes.trans ?_)
      show laid.notifier.observers.filter _ = _
      rw [hobservers]
  | left n w =>
    rcases World.observers_leave (w := w) (n := n) with hstays | hgoes
    · exact .kept hstays
    · exact World.listStep_forget? (hholder n) hgoes
  | released n w => exact World.listStep_forget? (hholder n) rfl
  | subscribed body w =>
    exact .added (w.notifier.nextId, .observer w.subscriptions.length body) ⟨rfl, rfl⟩ rfl
  | unsubscribed i id w hid => exact .taken id (World.mem_heldIds.mpr (.inl ⟨i, hid⟩)) rfl
  | stranded | strandedSurface => exact .kept rfl

theorem Turn.strandedOnce (h : Turn p w w') (hw : w.StrandedOnce) (hregistered : w.Registered) :
    w'.StrandedOnce := by
  have hold (id : Nat) (hid : id ∈ w.stranded) :
      ∃ watcher, (id, watcher) ∈ w'.notifier.observers ∧ w'.Gone watcher := by
    obtain ⟨watcher, hmem, hgone⟩ := hw.known id hid
    exact ⟨watcher, h.list.mem hregistered hmem (hw.unheld hregistered hid), h.gone hgone⟩
  have hkept (heq : w'.stranded = w.stranded) : w'.StrandedOnce :=
    ⟨heq ▸ hw.nodup, fun id hid => hold id (heq ▸ hid)⟩
  -- Whoever is stranded now held its number, so it is none of those who were stranded before.
  have hnew (holder : Option Nat) (hheld : ∀ id, holder = some id → id ∈ w.heldIds)
      (hstranded : w'.stranded = w.stranded ++ holder.toList)
      (hgone : ∀ id, holder = some id →
        ∃ watcher, (id, watcher) ∈ w'.notifier.observers ∧ w'.Gone watcher) :
      w'.StrandedOnce := by
    cases holder with
    | none => exact hkept (hstranded.trans (List.append_nil _))
    | some id =>
      constructor
      · rw [hstranded]
        refine List.nodup_append.mpr ⟨hw.nodup, List.nodup_singleton id, ?_⟩
        rintro k hk _ hlast rfl
        rw [Option.toList_some, List.mem_singleton] at hlast
        exact hw.unheld hregistered hk (hheld k (hlast ▸ rfl))
      · intro k hk
        rw [hstranded] at hk
        rcases List.mem_append.mp hk with hk | hk
        · exact hold k hk
        · rw [Option.toList_some, List.mem_singleton] at hk
          exact hk ▸ hgone id rfl
  rcases h.ledger with ⟨-, heq, -⟩ | ⟨_, heq⟩ | ⟨_, heq⟩ | ⟨i, id, hid, -, rfl⟩ | ⟨n, -, rfl⟩
  · exact hkept heq
  · exact hkept (congrArg (·.2.1) heq)
  · exact hkept (congrArg (·.2.1) heq)
  · refine hnew (some id) (fun k hk => ?_) rfl fun k hk => ?_
    · cases hk
      exact World.mem_heldIds.mpr (.inl ⟨i, hid⟩)
    · cases hk
      obtain ⟨body, hbody⟩ := hregistered.observers i id hid
      exact ⟨_, hbody, List.getElem?_set_self (List.getElem?_eq_some_iff.mp hid).1⟩
  · refine hnew (w.subscription? n) (fun k hk => World.mem_heldIds.mpr (.inr ⟨n, hk⟩)) rfl
      fun k hk => ?_
    obtain ⟨s, hs, hsub⟩ := Option.bind_eq_some_iff.mp hk
    refine ⟨.surface n, hregistered.surfaces n s k hs hsub, ?_, ?_⟩
    · rw [World.length_strandSurface]
      exact World.lt_length_of_live? hs
    · rw [World.live?_strandSurface, if_pos rfl]

end
end Surface
end QueryView
