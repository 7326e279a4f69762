/-
A diary of what the notifier had in mind.

An observer is told of a theme, and by then the notifier may have another one.  The trace says
what was told and not what the notifier had, so somebody is put next to the run who writes that
down: the diary is the trace, with an entry of its own in front of every call of an observer.

Nobody reads the trace, so it makes no difference who writes what into it.  `Noting a b` says of
two actions that the second one does what the first one does, if it is given another trace, and
that it keeps the diary of the first one's trace.  The rules follow the ways in which actions
are put together; `noting_runWith` is their conclusion, by which it is enough to look at what
two runs make of a change of the theme.
-/
import QueryView.Proofs.Surface.Round

namespace QueryView
namespace Surface

variable {E R : Type}

/-! ## Diaries -/

/-- The entries for a call of an observer: what the notifier had, and what the observer was told
of. -/
def entries (i : Nat) (had told : Theme) : List Event := [.themed i had, .themed i told]

/-- The second list is the first one with an entry in front of every call of an observer, about
a theme. -/
inductive Diary : List Event → List Event → Prop where
  | blank : Diary [] []
  | same {trace diary : List Event} (e : Event) (he : e.isThemed = false) (h : Diary trace diary) :
      Diary (trace ++ [e]) (diary ++ [e])
  | noted {trace diary : List Event} (i : Nat) (had told : Theme) (h : Diary trace diary) :
      Diary (trace ++ [.themed i told]) (diary ++ entries i had told)

/-- The theme in a call of the observer. -/
def Event.themeOf (i : Nat) : Event → Option Theme
  | .themed j theme => if j = i then some theme else none
  | _ => none

/-- The themes in the calls of the observer, in order. -/
def themesOf (i : Nat) (trace : List Event) : List Theme := trace.filterMap (Event.themeOf i)

variable {trace diary : List Event} {i j : Nat} {had told : Theme}

theorem themesOf_append_of_forall {added : List Event}
    (h : ∀ e ∈ added, Event.themeOf i e = none) :
    themesOf i (trace ++ added) = themesOf i trace := by
  rw [themesOf, List.filterMap_append, List.filterMap_eq_nil_iff.mpr h, List.append_nil, themesOf]

theorem themesOf_append_of_uncalled {added : List Event} (h : ∀ e ∈ added, e.isThemed = false) :
    themesOf i (trace ++ added) = themesOf i trace := by
  refine themesOf_append_of_forall fun e he => ?_
  cases e with
  | themed j theme => cases h _ he
  | _ => rfl

theorem themesOf_themed_self :
    themesOf i (trace ++ [.themed i told]) = themesOf i trace ++ [told] := by
  simp [themesOf, Event.themeOf]

theorem themesOf_themed_of_ne (hne : j ≠ i) :
    themesOf i (trace ++ [.themed j told]) = themesOf i trace :=
  themesOf_append_of_forall fun _ he => List.mem_singleton.mp he ▸ if_neg hne

theorem themesOf_entries_self :
    themesOf i (diary ++ entries i had told) = themesOf i diary ++ [had, told] := by
  simp [themesOf, Event.themeOf, entries]

theorem themesOf_entries_of_ne (hne : j ≠ i) :
    themesOf i (diary ++ entries j had told) = themesOf i diary := by
  refine themesOf_append_of_forall fun e he => ?_
  rcases List.mem_pair.mp he with rfl | rfl <;> exact if_neg hne

/-- The last two themes of an observer in the diary are the one that the notifier had when it was
called last, and the one that it was told of. -/
theorem Diary.last_told (h : Diary trace diary)
    (htold : (themesOf i trace).getLast? = some told) :
    ∃ had, [had, told] <:+ themesOf i diary := by
  induction h with
  | blank => cases htold
  | same e he _ ih =>
    have huncalled : ∀ e' ∈ [e], e'.isThemed = false :=
      fun _ hmem => List.mem_singleton.mp hmem ▸ he
    rw [themesOf_append_of_uncalled huncalled] at htold ⊢
    exact ih htold
  | noted j had told' _ ih =>
    by_cases hj : j = i
    · subst hj
      rw [themesOf_themed_self, List.getLast?_concat] at htold
      cases htold
      rw [themesOf_entries_self]
      exact ⟨had, List.suffix_append _ _⟩
    · rw [themesOf_themed_of_ne hj] at htold
      rw [themesOf_entries_of_ne hj]
      exact ih htold

namespace World

/-- The world with another trace. -/
def retrace (w : World E R) (trace : List Event) : World E R := { w with trace }

/-- The change neither looks at the trace nor writes into it. -/
def Untraced (f : World E R → World E R) : Prop :=
  ∀ w trace, f (w.retrace trace) = (f w).retrace trace ∧ (f w).trace = w.trace

theorem untraced_changeSlot (n : Nat) (f : Slot E R → Slot E R) :
    Untraced (changeSlot n f : World E R → World E R) := fun _ _ => ⟨rfl, rfl⟩

theorem untraced_changeLive (n : Nat) (f : Live E R → Live E R) :
    Untraced (changeLive n f : World E R → World E R) := fun _ _ => ⟨rfl, rfl⟩

theorem untraced_unsubscribeSurface (n : Nat) :
    Untraced (unsubscribeSurface n : World E R → World E R) := by
  intro w trace
  refine ⟨?_, trace_unsubscribeSurface⟩
  show (((w.retrace trace).forget? ((w.live? n).bind Live.subscription)).changeLive n _) = _
  unfold unsubscribeSurface
  cases (w.live? n).bind Live.subscription <;> rfl

theorem untraced_leave (n : Nat) : Untraced (leave n : World E R → World E R) := by
  intro w trace
  refine ⟨?_, trace_leave⟩
  let left := w.changeSlot n fun slot => { slot with guests := slot.guests - 1 }
  show (left.retrace trace).collect n = (left.collect n).retrace trace
  have hslots : (left.retrace trace).slots = left.slots := rfl
  rw [collect, hslots, collect]
  split
  · split
    · rw [(untraced_unsubscribeSurface n left trace).1]
      rfl
    · rfl
  · rfl

end World

/-! ## Actions with a diary -/

namespace Action

variable {α β : Type}

/-- The second action does what the first one does, and keeps the diary. -/
def Noting (a b : Action E R α) : Prop :=
  ∀ w diary, Diary w.trace diary → ∃ diary', b (w.retrace diary) =
    ((a w).1, (a w).2.retrace diary') ∧ Diary (a w).2.trace diary'

theorem noting_pure (x : α) : Noting (pure x : Action E R α) (pure x) :=
  fun _ diary h => ⟨diary, rfl, h⟩

theorem noting_throw (e : Abort) : Noting (throw e : Action E R α) (throw e) :=
  fun _ diary h => ⟨diary, rfl, h⟩

theorem noting_modify {f : World E R → World E R} (hf : World.Untraced f) :
    Noting (modify f : Action E R PUnit) (modify f) := by
  intro w diary h
  refine ⟨diary, congrArg (Prod.mk (Except.ok PUnit.unit)) (hf w diary).1, ?_⟩
  show Diary (f w).trace diary
  rw [(hf w diary).2]
  exact h

theorem noting_record {e : Event} (he : e.isThemed = false) :
    Noting (modify (World.record e) : Action E R PUnit) (modify (World.record e)) :=
  fun _ _ h => ⟨_, rfl, .same e he h⟩

theorem noting_bind {a b : Action E R α} {f g : α → Action E R β} (h : Noting a b)
    (hf : ∀ x, Noting (f x) (g x)) : Noting (a >>= f) (b >>= g) := by
  intro w diary hdiary
  obtain ⟨diary', hb, hdiary'⟩ := h w diary hdiary
  rw [bind_apply, bind_apply, hb]
  rcases ha : a w with ⟨_ | x, w'⟩ <;> rw [ha] at hdiary'
  · exact ⟨diary', rfl, hdiary'⟩
  · exact hf x w' diary' hdiary'

/-- The world is looked at, but for the trace. -/
theorem noting_get_bind {f g : World E R → Action E R β}
    (hlook : ∀ w trace, g (w.retrace trace) = g w) (h : ∀ w, Noting (f w) (g w)) :
    Noting (get >>= f) (get >>= g) := by
  intro w diary hdiary
  rw [get_bind_apply, get_bind_apply, hlook]
  exact h w w diary hdiary

theorem noting_ite {c : Prop} [Decidable c] {a b a' b' : Action E R α} (h : Noting a a')
    (h' : Noting b b') : Noting (if c then a else b) (if c then a' else b') := by
  split
  · exact h
  · exact h'

theorem noting_forM {xs : List β} {f g : β → Action E R PUnit} (h : ∀ x, Noting (f x) (g x)) :
    Noting (xs.forM f) (xs.forM g) := by
  induction xs with
  | nil => exact noting_pure _
  | cons x xs ih => exact noting_bind (h x) fun _ => ih

theorem noting_andFinally {a b : Action E R α} {last : World E R → World E R} (h : Noting a b)
    (hlast : World.Untraced last) : Noting (andFinally a last) (andFinally b last) := by
  intro w diary hdiary
  obtain ⟨diary', hb, hdiary'⟩ := h w diary hdiary
  obtain ⟨hsame, htrace⟩ := hlast (a w).2 diary'
  refine ⟨diary', ?_, ?_⟩
  · show ((b (w.retrace diary)).1, last (b (w.retrace diary)).2) = _
    rw [hb]
    exact congrArg (Prod.mk (a w).1) hsame
  · show Diary (last (a w).2).trace diary'
    rwa [htrace]

theorem noting_unwinding {a b : Action E R α} {cleanup cleanup' : Action E R Unit}
    (h : Noting a b) (hcleanup : Noting cleanup cleanup') :
    Noting (unwinding a cleanup) (unwinding b cleanup') := by
  intro w diary hdiary
  obtain ⟨diary', hb, hdiary'⟩ := h w diary hdiary
  rcases ha : a w with ⟨e | x, w'⟩ <;> rw [ha] at hb hdiary'
  · obtain ⟨diary'', hlast, hdiary''⟩ := hcleanup w' diary' hdiary'
    refine ⟨diary'', ?_⟩
    rw [unwinding_of_error ha, unwinding_of_error hb, hlast]
    exact ⟨rfl, hdiary''⟩
  · rw [unwinding_of_ok ha, unwinding_of_ok hb]
    exact ⟨diary', rfl, hdiary'⟩

theorem noting_dropEach {f g : β → Action E R Unit} (h : ∀ x, Noting (f x) (g x)) (xs : List β) :
    Noting (dropEach f xs) (dropEach g xs) := by
  induction xs with
  | nil => exact noting_pure _
  | cons x xs ih => exact noting_bind (noting_unwinding (h x) ih) fun _ => ih

theorem noting_holding {a b : Action E R α} {n : Nat} (h : Noting a b) :
    Noting (holding n a) (holding n b) :=
  noting_bind (noting_modify (World.untraced_changeSlot n _)) fun _ =>
    noting_andFinally h (World.untraced_leave n)

theorem noting_suppressing {a b : Action E R α} {n : Nat} (h : Noting a b) :
    Noting (suppressing n a) (suppressing n b) :=
  noting_get_bind (fun _ _ => rfl) fun _ =>
    noting_bind (noting_modify (World.untraced_changeLive n _)) fun _ =>
      noting_andFinally h (World.untraced_changeLive n _)

theorem noting_catching {a b : Action E R α} (h : Noting a b) :
    Noting (catching a) (catching b) := by
  intro w diary hdiary
  obtain ⟨diary', hb, hdiary'⟩ := h w diary hdiary
  refine ⟨diary', ?_⟩
  unfold catching
  rw [hb]
  rcases ha : a w with ⟨(_ | _) | _, w'⟩ <;> rw [ha] at hdiary' <;> exact ⟨rfl, hdiary'⟩

theorem noting_unbroken {a b : Action E R α} (h : Noting a b) :
    Noting (unbroken a) (unbroken b) := by
  intro w diary hdiary
  obtain ⟨diary', hb, hdiary'⟩ := h w diary hdiary
  refine ⟨diary', ?_⟩
  unfold unbroken
  rw [hb]
  rcases ha : a w with ⟨_ | _, w'⟩ <;> rw [ha] at hdiary' <;> exact ⟨rfl, hdiary'⟩

end Action

/-! ## Operations -/

namespace World

open Surface.Action

variable {n : Nat}

/-! ### What callbacks own -/

theorem noting_dropBorrowed (b : Belonging) :
    Noting (dropBorrowed b : Action E R Unit) (dropBorrowed b) := by
  cases b with
  | subscription i =>
    refine noting_get_bind (fun _ _ => rfl) fun w => ?_
    split
    · exact noting_pure _
    · exact noting_bind (noting_modify fun _ _ => ⟨rfl, rfl⟩) fun _ => noting_throw _
  | handle n =>
    refine noting_get_bind (fun _ _ => rfl) fun w => noting_ite (noting_pure _) ?_
    refine noting_bind (noting_modify (untraced_changeSlot _ _)) fun _ =>
      noting_get_bind (fun _ _ => rfl) fun w => noting_ite (noting_pure _) ?_
    exact noting_bind (noting_modify fun _ _ => ⟨rfl, rfl⟩) fun _ =>
      noting_ite (noting_throw _) (noting_pure _)

theorem noting_retire {drop : Belonging → Action E R Unit} (hdrop : ∀ b, Noting (drop b) (drop b))
    (i : Nat) : Noting (retire drop i) (retire drop i) :=
  noting_get_bind (fun _ _ => rfl) fun _ => noting_ite (noting_pure _)
    (noting_bind (noting_modify fun _ _ => ⟨rfl, rfl⟩) fun _ => noting_dropEach hdrop _)

theorem noting_giveBack (i id : Nat) :
    Noting (giveBack i id : Action E R Unit) (giveBack i id) :=
  noting_bind (noting_modify fun _ _ => ⟨rfl, rfl⟩) fun _ =>
    noting_get_bind (fun _ _ => rfl) fun _ =>
      noting_ite (noting_retire noting_dropBorrowed i) (noting_pure _)

theorem noting_dropOwned (b : Belonging) :
    Noting (dropOwned b : Action E R Unit) (dropOwned b) := by
  cases b with
  | subscription i =>
    refine noting_get_bind (fun _ _ => rfl) fun w => ?_
    split
    · exact noting_pure _
    · exact noting_giveBack _ _
  | handle n =>
    exact noting_get_bind (fun _ _ => rfl) fun w => noting_ite (noting_pure _)
      (noting_holding (noting_modify (untraced_changeSlot _ _)))

theorem noting_letGo (x : Nat × Watcher E R) : Noting (letGo x) (letGo x) := by
  refine noting_bind (noting_modify fun _ _ => ⟨rfl, rfl⟩) fun _ => ?_
  obtain ⟨-, n | ⟨i, body⟩⟩ := x
  · exact noting_pure _
  · exact noting_retire noting_dropOwned i

theorem noting_round {call call' : Nat × Watcher E R → Action E R Unit}
    (h : ∀ x, Noting (call x) (call' x)) (watchers : List (Nat × Watcher E R)) :
    Noting (round call watchers) (round call' watchers) := by
  refine noting_bind (noting_modify fun _ _ => ⟨rfl, rfl⟩) fun _ =>
    noting_andFinally (noting_unwinding ?_ ?_) fun _ _ => ⟨rfl, rfl⟩
  · exact noting_forM fun x => noting_bind (h x) fun _ => noting_letGo x
  · exact noting_get_bind (fun _ _ => rfl) fun _ => noting_dropEach noting_letGo _

/-! ### What surfaces do -/

section
variable [RenderLayer R]

theorem noting_refresh : Noting (refresh n : Action E R _) (refresh n) := by
  refine noting_get_bind (fun _ _ => rfl) fun w => ?_
  split
  · exact noting_pure _
  · refine noting_bind (noting_modify (untraced_changeLive _ _)) fun _ =>
      noting_bind (noting_record rfl) fun _ => ?_
    split
    · exact noting_pure _
    · exact noting_pure _
    · exact noting_throw _

theorem noting_changeAndShow (f : State → State) :
    Noting (changeAndShow n f : Action E R _) (changeAndShow n f) :=
  noting_bind (noting_modify (untraced_changeLive _ _)) fun _ => noting_refresh

theorem noting_followTheme : Noting (followTheme n : Action E R _) (followTheme n) :=
  noting_get_bind (fun _ _ => rfl) fun _ => noting_changeAndShow _

/-- What a surface does when it is told of a theme does not depend on what operations mean. -/
theorem noting_tell_surface (m m' : Meaning E R) (theme : Theme) :
    Noting (tell m theme (.surface n)) (tell m' theme (.surface n)) :=
  noting_get_bind (fun _ _ => rfl) fun _ => noting_ite
    (noting_holding (noting_bind noting_followTheme fun _ => noting_pure _)) (noting_pure _)

variable [EditableLayer E]

theorem noting_applyLayout : Noting (applyLayout n : Action E R _) (applyLayout n) := by
  refine noting_get_bind (fun _ _ => rfl) fun w => ?_
  split
  · exact noting_pure _
  · exact noting_bind (noting_modify (untraced_changeLive _ _)) fun _ =>
      noting_bind (noting_record rfl) fun _ =>
      noting_bind (noting_modify (untraced_changeLive _ _)) fun _ =>
      noting_bind (noting_record rfl) fun _ => noting_refresh

theorem noting_create (editable : E) (rendered : R) :
    Noting (create editable rendered) (create editable rendered) := by
  refine noting_get_bind (fun _ _ => rfl) fun w =>
    noting_bind (noting_modify fun _ _ => ⟨rfl, rfl⟩) fun _ => noting_holding ?_
  refine noting_bind noting_applyLayout fun shown => ?_
  split
  · exact noting_bind (noting_modify (untraced_changeSlot _ _)) fun _ => noting_pure _
  · exact noting_pure _

end

section
variable {m m' : Meaning E R} (hm : ∀ op, Noting (m op) (m' op))
include hm

theorem noting_script : ∀ script : Script E R, Noting (script.run m) (script.run m')
  | .done => noting_pure _
  | .panic _ => noting_throw _
  | .note _ next => noting_bind (noting_record rfl) fun _ => noting_script next
  | .look next => noting_get_bind (fun _ _ => rfl) fun w => noting_script (next w.snapshot)
  | .perform op next => noting_bind (hm op) fun reply => noting_script (next reply)
  | .attempt op next =>
    noting_bind (noting_catching (hm op)) fun outcome => noting_script (next outcome)

theorem noting_notifyObservers (t : Text) :
    Noting (notifyObservers m n t) (notifyObservers m' n t) :=
  noting_get_bind (fun _ _ => rfl) fun _ => noting_forM fun _ =>
    noting_bind (noting_record rfl) fun _ => noting_script hm _

variable [RenderLayer R]

theorem noting_takeEdit (t : Text) : Noting (takeEdit m n t) (takeEdit m' n t) :=
  noting_get_bind (fun _ _ => rfl) fun _ => noting_ite (noting_pure _)
    (noting_bind (noting_changeAndShow _) fun _ =>
      noting_bind (noting_notifyObservers hm t) fun _ => noting_pure _)

theorem noting_report (t : Text) : Noting (report m n t) (report m' n t) := by
  refine noting_get_bind (fun _ _ => rfl) fun w => ?_
  split
  · exact noting_pure _
  · exact noting_script hm _
  · exact noting_get_bind (fun _ _ => rfl) fun _ => noting_ite
      (noting_holding (noting_bind (noting_takeEdit hm t) fun _ => noting_pure _)) (noting_pure _)

theorem noting_editLayer (change : E → E × List Text) :
    Noting (editLayer m n change) (editLayer m' n change) := by
  refine noting_get_bind (fun _ _ => rfl) fun w => ?_
  split
  · exact noting_pure _
  · exact noting_bind (noting_modify (untraced_changeLive _ _)) fun _ =>
      noting_forM fun t => noting_report hm t

variable [EditableLayer E]

theorem noting_setText (t : Text) : Noting (setText m n t) (setText m' n t) :=
  noting_bind (noting_suppressing (noting_editLayer hm _)) fun _ => noting_changeAndShow _

theorem noting_typeText (t : Text) : Noting (typeText m n t) (typeText m' n t) := by
  refine noting_get_bind (fun _ _ => rfl) fun w =>
    noting_ite (noting_pure _) (noting_bind (noting_suppressing ?_) fun typed => ?_)
  · exact noting_bind (noting_editLayer hm _) fun _ =>
      noting_get_bind (fun _ _ => rfl) fun _ => noting_pure _
  · cases typed with
    | none => exact noting_pure _
    | some typed => exact noting_takeEdit hm typed

theorem noting_answer (request : Request E R) :
    Noting (answer m n request) (answer m' n request) := by
  have hreply (a b : Action E R (Except Failure Unit)) (h : Noting a b) :
      Noting (do return replyOf (← a)) (do return replyOf (← b)) :=
    noting_bind h fun _ => noting_pure _
  have hdone (f : World E R → World E R) (h : Untraced f) :
      Noting (do modify f; return Reply.done) (do modify f; return Reply.done) :=
    noting_bind (noting_modify h) fun _ => noting_pure _
  cases request with
  | setText t => exact hreply _ _ (noting_setText hm t)
  | typeText t => exact hreply _ _ (noting_typeText hm t)
  | edited t => exact hreply _ _ (noting_takeEdit hm t)
  | setLanguage l => exact hreply _ _ (noting_changeAndShow _)
  | setPlainTextColor c => exact hreply _ _ (noting_changeAndShow _)
  | followTheme => exact hreply _ _ noting_followTheme
  | changeLayout change =>
    exact noting_bind (noting_modify (untraced_changeLive _ _)) fun _ =>
      hreply _ _ noting_applyLayout
  | observe body => exact hdone _ (untraced_changeLive _ _)
  | editLayer change => exact noting_bind (noting_editLayer hm change) fun _ => noting_pure _
  | renderLayer change =>
    refine noting_get_bind (fun _ _ => rfl) fun w => ?_
    split
    · exact noting_pure _
    · exact noting_bind (noting_modify (untraced_changeLive _ _)) fun _ => noting_pure _
  | connect handler => exact hdone _ (untraced_changeSlot _ _)
  | dispose => exact hdone _ (untraced_unsubscribeSurface _)
  | clone => exact hdone _ (untraced_changeSlot _ _)
  | drop => exact hdone _ (untraced_changeSlot _ _)

end
end World

namespace Operation

open Surface.Action World

variable [EditableLayer E] [RenderLayer R]

/-- Operations other than changes of the theme write nothing of their own into the diary. -/
theorem noting_step {m m' : Meaning E R} (hm : ∀ op, Noting (m op) (m' op)) {op : Operation E R}
    (hop : ∀ theme, op ≠ .setTheme theme) : Noting (step m op) (step m' op) := by
  cases op with
  | create editable rendered =>
    exact noting_get_bind (fun _ _ => rfl) fun _ =>
      noting_ite (noting_create editable rendered) (noting_pure _)
  | on n request =>
    exact noting_get_bind (fun _ _ => rfl) fun _ =>
      noting_ite (noting_pure _) (noting_holding (noting_answer hm request))
  | report n t => exact noting_bind (noting_report hm t) fun _ => noting_pure _
  | disconnect n =>
    exact noting_bind (noting_modify (untraced_changeSlot _ _)) fun _ => noting_pure _
  | subscribe body =>
    exact noting_get_bind (fun _ _ => rfl) fun _ => noting_ite
      (noting_bind (noting_modify fun _ _ => ⟨rfl, rfl⟩) fun _ => noting_pure _) (noting_pure _)
  | unsubscribe i =>
    refine noting_get_bind (fun _ _ => rfl) fun w => ?_
    split
    · exact noting_bind (noting_giveBack _ _) fun _ => noting_pure _
    · exact noting_pure _
  | entrust i belonging =>
    exact noting_get_bind (fun _ _ => rfl) fun _ => noting_ite
      (noting_bind (noting_modify fun _ _ => ⟨rfl, rfl⟩) fun _ => noting_pure _) (noting_pure _)
  | setTheme theme => exact absurd rfl (hop theme)
  | releaseNotifier =>
    exact noting_bind (noting_modify fun _ _ => ⟨rfl, rfl⟩) fun _ => noting_pure _

/-- Two runs of which one keeps the diary of the other wherever the theme is changed. -/
theorem noting_runWith {change change' : Nat → Meaning E R → Theme → Action E R Reply}
    (hchange : ∀ depth, (∀ op, Noting (runWith change depth op) (runWith change' depth op)) →
      ∀ theme, Noting (change depth (runWith change depth) theme)
        (change' depth (runWith change' depth) theme))
    (depth : Nat) (op : Operation E R) :
    Noting (runWith change depth op) (runWith change' depth op) := by
  induction depth generalizing op with
  | zero => exact noting_throw _
  | succ depth ih =>
    by_cases hop : ∃ theme, op = .setTheme theme
    · obtain ⟨theme, rfl⟩ := hop
      exact hchange depth ih theme
    · rw [not_exists] at hop
      rw [runWith_of_ne hop, runWith_of_ne hop]
      exact noting_step ih hop

end Operation
end Surface
end QueryView
