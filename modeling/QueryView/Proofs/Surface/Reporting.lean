/-
Every report reaches the handler that is connected when it begins.

The log of a run follows a grammar, `Told`: the deeds of an author stand in it one after the
other, and where one of them is a report that reaches a handler, there stand in between all deeds
of that handler, told in the same way, and then its end.  A run leaves such a log behind
(`leads_stepAll`), and everything else is read off the grammar, by induction on it.  What carries
the induction is the numbers of the reports: those in a part of a log are the numbers from its
first report on, so no other part speaks of them.

`every_write_is_reported_once` is the main theorem.  It asks for nothing but that the run ends,
which is to say that the reports do not nest without end.
-/
import Mathlib.Data.List.Basic
import QueryView.Proofs.Surface.Logbook

namespace QueryView
namespace Surface

variable {a : Option Nat} {x t : Text} {s : Option HookHandler} {m n : Nat} {d : Deed}
  {ds : List Deed} {log log' : Log} {handler : HookHandler}

/-! ## Reading logs -/

namespace Log

@[simp]
theorem reportCount_append : (log ++ log').reportCount = log.reportCount + log'.reportCount :=
  List.countP_append

theorem reportCount_deed (hd : d.reports = false) :
    reportCount (.deed a d :: log) = log.reportCount :=
  List.countP_cons_of_neg (Bool.not_eq_true _ ▸ hd)

@[simp]
theorem reportCount_report : reportCount (.deed a (.report t) :: log) = log.reportCount + 1 :=
  List.countP_cons_of_pos rfl

@[simp]
theorem reportCount_called : reportCount (.called n handler t x :: log) = log.reportCount :=
  List.countP_cons_of_neg Bool.false_ne_true

@[simp]
theorem reportCount_returned : reportCount (.returned n :: log) = log.reportCount :=
  List.countP_cons_of_neg Bool.false_ne_true

theorem handlerAfter_append :
    handlerAfter s (log ++ log') = handlerAfter (handlerAfter s log) log' := List.foldl_append

theorem textAfter_append : textAfter x (log ++ log') = textAfter (textAfter x log) log' :=
  List.foldl_append

theorem received_append : (log ++ log').received = log.received ++ log'.received :=
  List.filterMap_append

@[simp]
theorem deedsOf_append : (log ++ log').deedsOf a = log.deedsOf a ++ log'.deedsOf a :=
  List.filterMap_append

@[simp]
theorem deedsOf_deed {a' : Option Nat} :
    deedsOf a' (.deed a d :: log) = (if a = a' then [d] else []) ++ log.deedsOf a' := by
  rw [deedsOf, List.filterMap_cons, LogEntry.deedOf]
  by_cases h : a = a' <;> simp [h, deedsOf]

@[simp]
theorem deedsOf_called : deedsOf a (.called n handler t x :: log) = log.deedsOf a := rfl

@[simp]
theorem deedsOf_returned : deedsOf a (.returned n :: log) = log.deedsOf a := rfl

@[simp]
theorem callsOf_append : (log ++ log').callsOf n = log.callsOf n ++ log'.callsOf n :=
  List.filterMap_append

@[simp]
theorem callsOf_deed : callsOf n (.deed a d :: log) = log.callsOf n := rfl

@[simp]
theorem callsOf_called : callsOf n (.called m handler t x :: log) =
    (if m = n then [(handler, t)] else []) ++ log.callsOf n := by
  rw [callsOf, List.filterMap_cons, LogEntry.callOf]
  by_cases h : m = n <;> simp [h, callsOf]

@[simp]
theorem callsOf_returned : callsOf n (.returned m :: log) = log.callsOf n := rfl

/-! A report that reaches a handler stands in a log with all that is told until the handler comes to
its end, and all that is told after that. -/

variable {inner : Log}

theorem reportCount_heard :
    reportCount (.deed a (.report t) :: .called m handler t x :: (inner ++ .returned m :: log)) =
      1 + inner.reportCount + log.reportCount := by
  rw [reportCount_report, reportCount_called, reportCount_append, reportCount_returned]
  omega

theorem handlerAfter_heard :
    handlerAfter s (.deed a (.report t) :: .called m handler t x ::
      (inner ++ .returned m :: log)) = handlerAfter (handlerAfter s inner) log :=
  handlerAfter_append

theorem textAfter_heard {held : Text} :
    textAfter x (.deed a (.report t) :: .called m handler t held ::
      (inner ++ .returned m :: log)) = textAfter (textAfter x inner) log :=
  textAfter_append

theorem callsOf_heard :
    callsOf n (.deed a (.report t) :: .called m handler t x :: (inner ++ .returned m :: log)) =
      (if m = n then [(handler, t)] else []) ++ (inner.callsOf n ++ log.callsOf n) := by
  rw [callsOf_deed, callsOf_called, callsOf_append, callsOf_returned]

end Log

/-! ## Texts and layouts -/

namespace HookedBuffer

variable {h h' : HookedBuffer} {depth : Nat}

theorem buffer_perform {report : Text → HookedBuffer → Option HookedBuffer}
    (hreport : ∀ {t h h'}, report t h = some h' → h'.buffer = h.buffer) {r : Reaction}
    (hperform : perform report r h = some h') : h'.buffer = h.buffer := by
  induction r generalizing h with
  | done =>
    cases hperform
    rfl
  | disconnect next ih => exact ih (h := { h with handler := none }) hperform
  | connect name react next _ ih => exact ih (h := { h with handler := some _ }) hperform
  | report t next ih =>
    obtain ⟨h₁, hfirst, hnext⟩ := Option.bind_eq_some_iff.mp hperform
    exact (ih hnext).trans (hreport hfirst)

/-- Handlers have no hold on the buffer. -/
theorem buffer_report (hreport : report depth t h = some h') : h'.buffer = h.buffer := by
  induction depth generalizing t h h' with
  | zero => cases hreport
  | succ depth ih =>
    rw [report] at hreport
    split at hreport
    · cases hreport
      rfl
    · have hperform := buffer_perform ?_ hreport
      · exact hperform
      · exact ih

end HookedBuffer

/-- The log tells how an author does some deeds while the buffer holds a text at first, a handler
is connected at first, and so many reports have been made. -/
inductive Told : Option Nat → Text → Option HookHandler → Nat → List Deed → Log → Prop where
  | nil {a : Option Nat} {x : Text} {s : Option HookHandler} {m : Nat} : Told a x s m [] []
  | deed {a : Option Nat} {x : Text} {s : Option HookHandler} {m : Nat} {d : Deed}
      {ds : List Deed} {log : Log} (hd : d.reports = false)
      (h : Told a ((LogEntry.deed a d).overwrite x) ((LogEntry.deed a d).rewire s) m ds log) :
      Told a x s m (d :: ds) (.deed a d :: log)
  | unheard {a : Option Nat} {x t : Text} {m : Nat} {ds : List Deed} {log : Log}
      (h : Told a x none (m + 1) ds log) :
      Told a x none m (.report t :: ds) (.deed a (.report t) :: log)
  | heard {a : Option Nat} {x t : Text} {m : Nat} {ds : List Deed} {handler : HookHandler}
      {inner log : Log}
      (hinner : Told (some m) x (some handler) (m + 1) (handler.react t).deeds inner)
      (h : Told a (inner.textAfter x) (inner.handlerAfter (some handler))
        (m + 1 + inner.reportCount) ds log) :
      Told a x (some handler) m (.report t :: ds)
        (.deed a (.report t) :: .called m handler t x :: (inner ++ .returned m :: log))

/-! ## Runs leave such logs behind -/

namespace Logged

variable {b b' b'' : Logged} {new new' : Log} {ds' : List Deed} {depth : Nat}

/-- The log tells of deeds that are done from here on. -/
def Tells (b : Logged) (a : Option Nat) (ds : List Deed) (log : Log) : Prop :=
  Told a b.now.buffer.text b.now.handler b.log.reportCount ds log

/-- One state is followed by another, and what the log has more tells what is different. -/
structure Logs (b b' : Logged) (new : Log) : Prop where
  log : b'.log = b.log ++ new
  text : b'.now.buffer.text = new.textAfter b.now.buffer.text
  handler : b'.now.handler = new.handlerAfter b.now.handler
  received : b'.now.received = b.now.received ++ new.received

theorem Logs.refl : Logs b b [] where
  log := (List.append_nil _).symm
  text := rfl
  handler := rfl
  received := (List.append_nil _).symm

theorem Logs.trans (h : Logs b b' new) (h' : Logs b' b'' new') : Logs b b'' (new ++ new') where
  log := by rw [h'.log, h.log, List.append_assoc]
  text := by rw [h'.text, h.text, Log.textAfter_append]
  handler := by rw [h'.handler, h.handler, Log.handlerAfter_append]
  received := by rw [h'.received, h.received, Log.received_append, List.append_assoc]

theorem logs_note {now : HookedBuffer} {e : LogEntry}
    (htext : now.buffer.text = e.overwrite b.now.buffer.text)
    (hhandler : now.handler = e.rewire b.now.handler)
    (hreceived : now.received = b.now.received ++ e.received?.toList) :
    Logs b (b.note now e) [e] where
  log := rfl
  text := htext
  handler := hhandler
  received := by
    rw [Log.received, List.filterMap_cons, List.filterMap_nil]
    cases hcall : e.received? <;> exact hcall ▸ hreceived

theorem Logs.reportCount (h : Logs b b' new) :
    b'.log.reportCount = b.log.reportCount + new.reportCount := by
  rw [h.log, Log.reportCount_append]

/-- By some deeds of an author one state leads to another, and the log tells of them. -/
structure Leads (a : Option Nat) (b b' : Logged) (ds : List Deed) (new : Log) : Prop where
  logs : Logs b b' new
  tells : ∀ ds' rest, b'.Tells a ds' rest → b.Tells a (ds ++ ds') (new ++ rest)

theorem Leads.refl : Leads a b b [] [] := ⟨.refl, fun _ _ h => h⟩

theorem Leads.trans (h : Leads a b b' ds new) (h' : Leads a b' b'' ds' new') :
    Leads a b b'' (ds ++ ds') (new ++ new') := by
  refine ⟨h.logs.trans h'.logs, fun ds'' rest hrest => ?_⟩
  rw [List.append_assoc, List.append_assoc]
  exact h.tells _ _ (h'.tells _ _ hrest)

/-- A deed that reports nothing. -/
theorem leads_note {now : HookedBuffer} (hd : d.reports = false)
    (htext : now.buffer.text = (LogEntry.deed a d).overwrite b.now.buffer.text)
    (hhandler : now.handler = (LogEntry.deed a d).rewire b.now.handler)
    (hreceived : now.received = b.now.received) :
    Leads a b (b.note now (.deed a d)) [d] [.deed a d] := by
  have hlogs : Logs b (b.note now (.deed a d)) [.deed a d] :=
    logs_note htext hhandler (hreceived.trans (List.append_nil _).symm)
  refine ⟨hlogs, fun ds' rest h => .deed hd ?_⟩
  have hcount : (b.note now (.deed a d)).log.reportCount = b.log.reportCount := by
    rw [hlogs.reportCount, Log.reportCount_deed hd]
    rfl
  rw [Tells, hcount] at h
  exact htext ▸ hhandler ▸ h

theorem leads_perform {report : Text → Logged → Option Logged}
    (hreport : ∀ {t b b'}, report t b = some b' → ∃ new, Leads (some n) b b' [.report t] new)
    {r : Reaction} (h : perform report n r b = some b') :
    ∃ new, Leads (some n) b b' r.deeds new := by
  induction r generalizing b with
  | done =>
    cases h
    exact ⟨[], .refl⟩
  | disconnect next ih =>
    obtain ⟨new, hnext⟩ := ih h
    have hnote : Leads (some n) b (b.note { b.now with handler := none } _) [.disconnect] _ :=
      leads_note rfl rfl rfl rfl
    exact ⟨_, hnote.trans hnext⟩
  | connect name react next _ ih =>
    obtain ⟨new, hnext⟩ := ih h
    have hnote : Leads (some n) b (b.note { b.now with handler := some ⟨name, react⟩ } _)
        [.connect ⟨name, react⟩] _ := leads_note rfl rfl rfl rfl
    exact ⟨_, hnote.trans hnext⟩
  | report t next ih =>
    obtain ⟨b₁, hb₁, hnext⟩ := Option.bind_eq_some_iff.mp h
    obtain ⟨new, hreported⟩ := hreport hb₁
    obtain ⟨new', hnext⟩ := ih hnext
    exact ⟨_, hreported.trans hnext⟩

theorem leads_report (h : report depth a t b = some b') : ∃ new, Leads a b b' [.report t] new := by
  induction depth generalizing a t b b' with
  | zero => cases h
  | succ depth ih =>
    rw [report] at h
    have hstarted : Logs b (b.note b.now (.deed a (.report t))) [.deed a (.report t)] :=
      logs_note rfl rfl (List.append_nil _).symm
    cases hhandler : b.now.handler with
    | none =>
      simp only [hhandler] at h
      cases h
      refine ⟨_, hstarted, fun ds' rest h => ?_⟩
      rw [Tells, hstarted.reportCount, hstarted.handler, hhandler] at h
      rw [Tells, hhandler]
      exact .unheard h
    | some handler =>
      simp only [hhandler] at h
      obtain ⟨b₁, hb₁, rfl⟩ := Option.map_eq_some_iff.mp h
      obtain ⟨inner, hinner⟩ := leads_perform ih hb₁
      let reached : HookedBuffer :=
        ⟨b.now.buffer, some handler, b.now.received ++ [(handler.name, t)]⟩
      have hcalled : Logs (b.note b.now (.deed a (.report t))) (note _ reached _) _ :=
        logs_note (e := .called b.log.reportCount handler t b.now.buffer.text) rfl hhandler.symm rfl
      have hreturned : Logs b₁ (b₁.note b₁.now (.returned b.log.reportCount)) _ :=
        logs_note rfl rfl (List.append_nil _).symm
      refine ⟨_, ((hstarted.trans hcalled).trans hinner.logs).trans hreturned,
        fun ds' rest h => ?_⟩
      have hcount := (hstarted.trans hcalled).reportCount
      have htold := hinner.tells [] [] .nil
      rw [List.append_nil, List.append_nil, Tells, hcount] at htold
      rw [Tells, hreturned.reportCount, hinner.logs.reportCount, hcount, hreturned.text,
        hinner.logs.text, hreturned.handler, hinner.logs.handler] at h
      rw [Tells, hhandler, List.append_assoc, List.append_assoc]
      exact Told.heard htold h

theorem buffer_report (h : report depth a t b = some b') : b'.now.buffer = b.now.buffer := by
  have hnow := now_report depth a t b
  rw [h] at hnow
  exact HookedBuffer.buffer_report hnow.symm

theorem leads_write (h : b.write depth t = some b') :
    ∃ new, Leads none b b' [.store t, .report t] new := by
  have hstore : Leads none b (b.note { b.now with buffer := { b.now.buffer with text := t } } _)
      [.store t] _ := leads_note rfl rfl rfl rfl
  obtain ⟨new, hreport⟩ := leads_report h
  exact ⟨_, hstore.trans hreport⟩

/-- What an embedder does follows from its steps, and reports do not change the layout in
between. -/
theorem leads_stepAll {steps : List BufferStep} (h : b.stepAll depth steps = some b') :
    ∃ new, Leads none b b' (deeds b.now.buffer.layout steps) new := by
  induction steps generalizing b with
  | nil =>
    cases h
    exact ⟨[], .refl⟩
  | cons step steps ih =>
    rw [stepAll, List.foldlM_cons] at h
    obtain ⟨b₁, hstep, hrest⟩ := Option.bind_eq_some_iff.mp h
    obtain ⟨rest, hrest⟩ := ih hrest
    -- A write leaves the layout alone, and so do all handlers that it reaches.
    have hwrite : ∀ t, b.write depth t = some b₁ →
        ∃ new, Leads none b b' (.store t :: .report t :: deeds b.now.buffer.layout steps) new := by
      intro t hwrite
      obtain ⟨new, hleads⟩ := leads_write hwrite
      rw [buffer_report hwrite] at hrest
      exact ⟨_, hleads.trans hrest⟩
    cases step with
    | write t => exact hwrite t hstep
    | type t =>
      rw [Logged.step] at hstep
      rw [deeds]
      split at hstep
      · next hreadOnly =>
        cases hstep
        rw [if_pos hreadOnly]
        exact ⟨rest, hrest⟩
      · next hreadOnly =>
        rw [if_neg hreadOnly]
        exact hwrite t hstep
    | report t =>
      obtain ⟨new, hleads⟩ := leads_report hstep
      rw [buffer_report hstep] at hrest
      exact ⟨_, hleads.trans hrest⟩
    | connect handler =>
      cases hstep
      have hnote : Leads none b (b.note { b.now with handler := some handler } _)
          [.connect handler] _ := leads_note rfl rfl rfl rfl
      exact ⟨_, hnote.trans hrest⟩
    | disconnect =>
      cases hstep
      have hnote : Leads none b (b.note { b.now with handler := none } _) [.disconnect] _ :=
        leads_note rfl rfl rfl rfl
      exact ⟨_, hnote.trans hrest⟩
    | applyLayout layout =>
      cases hstep
      have hnote : Leads none b (b.note (b.now.applyLayout layout) _) [.layOut layout] _ :=
        leads_note rfl rfl rfl rfl
      exact ⟨_, hnote.trans hrest⟩

end Logged

/-! ## What the grammar says -/

/-- Where a report stands in a log, with a handler connected and a text in the buffer just before
it: either no handler is connected and the report reaches none, or it reaches the one that is, and
no other, and it does so at once, and that handler does all it has to do before it comes to its
end. -/
def Delivered (s : Option HookHandler) (held t : Text) (n : Nat) (after log : Log) : Prop :=
  match s with
  | none => log.callsOf n = []
  | some handler =>
    log.callsOf n = [(handler, t)] ∧
      ∃ meanwhile rest, after = .called n handler t held :: (meanwhile ++ .returned n :: rest) ∧
        Log.deedsOf (some n) meanwhile = (handler.react t).deeds

/-- What else there is in a log does not matter to a report, as long as it has nothing to say about
its number. -/
theorem Delivered.mono {held : Text} {after more : Log} (h : Delivered s held t n after log)
    (hcalls : log'.callsOf n = log.callsOf n) : Delivered s held t n (after ++ more) log' := by
  cases s with
  | none => exact hcalls.trans h
  | some handler =>
    obtain ⟨hcall, meanwhile, rest, rfl, hdeeds⟩ := h
    refine ⟨hcalls.trans hcall, meanwhile, rest ++ more, ?_, hdeeds⟩
    rw [List.cons_append, List.append_assoc, List.cons_append]

/-- Every text that is stored is reported next. -/
def ReportsStored : List Deed → Prop
  | [] => True
  | .store t :: ds => (∃ rest, ds = .report t :: rest) ∧ ReportsStored ds
  | _ :: ds => ReportsStored ds

theorem ReportsStored.of_cons (h : ReportsStored (d :: ds)) : ReportsStored ds := by
  cases d with
  | store t => exact h.2
  | _ => exact h

theorem reportsStored_deeds (layout : Layout) (steps : List BufferStep) :
    ReportsStored (deeds layout steps) := by
  induction steps generalizing layout with
  | nil => trivial
  | cons step steps ih =>
    cases step with
    | write t => exact ⟨⟨_, rfl⟩, ih layout⟩
    | type t =>
      rw [deeds]
      split
      · exact ih layout
      · exact ⟨⟨_, rfl⟩, ih layout⟩
    | applyLayout layout' => exact ih layout'
    | _ => exact ih layout

/-- Handlers store nothing. -/
theorem reportsStored_reaction (r : Reaction) : ReportsStored r.deeds := by
  induction r with
  | done => trivial
  | disconnect next ih => exact ih
  | connect name react next _ ih => exact ih
  | report t next ih => exact ih

/-- What stands before and after a place in a list, if the list is put together at another place. -/
theorem split_cases {α : Type} {xs ys before after : List α} {r e : α} (hne : e ≠ r)
    (h : xs ++ r :: ys = before ++ e :: after) :
    (∃ left, xs = before ++ e :: left ∧ after = left ++ r :: ys) ∨
      ∃ past, before = xs ++ r :: past ∧ ys = past ++ e :: after := by
  rcases List.append_eq_append_iff.mp h with ⟨past, rfl, hpast⟩ | ⟨left, rfl, hleft⟩
  · cases past with
    | nil => exact absurd (List.cons.inj hpast).1.symm hne
    | cons _ past =>
      obtain ⟨rfl, rfl⟩ := List.cons.inj hpast
      exact .inr ⟨past, rfl, rfl⟩
  · cases left with
    | nil => exact absurd (List.cons.inj hleft).1 hne
    | cons _ left =>
      obtain ⟨rfl, rfl⟩ := List.cons.inj hleft
      exact .inl ⟨left, rfl, rfl⟩

namespace Told

/-- The reports in a log have the numbers from its first one on. -/
theorem callsOf_eq_nil (h : Told a x s m ds log) (hn : n < m ∨ m + log.reportCount ≤ n) :
    log.callsOf n = [] := by
  induction h with
  | nil => rfl
  | deed hd _ ih =>
    rw [Log.reportCount_deed hd] at hn
    exact ih hn
  | unheard _ ih =>
    rw [Log.reportCount_report] at hn
    exact ih (by omega)
  | heard _ _ ihinner ih =>
    rw [Log.reportCount_heard] at hn
    rw [Log.callsOf_heard, if_neg (by omega), ihinner (by omega), ih (by omega)]
    rfl

/-- Whoever was there before the log begins has done in it what it tells of him, and nobody else
from before has done anything. -/
theorem deedsOf_eq {a' : Option Nat} (h : Told a x s m ds log) (ha' : ∀ i, a' = some i → i < m) :
    log.deedsOf a' = if a = a' then ds else [] := by
  induction h with
  | nil => exact (ite_self _).symm
  | deed _ _ ih =>
    rw [Log.deedsOf_deed, ih ha']
    split <;> rfl
  | unheard _ ih =>
    rw [Log.deedsOf_deed, ih fun i hi => Nat.lt_succ_of_lt (ha' i hi)]
    split <;> rfl
  | @heard a x t m ds handler inner log _ _ ihinner ih =>
    have hm : some m ≠ a' := fun h => Nat.lt_irrefl m (ha' m h.symm)
    simp only [Log.deedsOf_deed, Log.deedsOf_called, Log.deedsOf_append, Log.deedsOf_returned]
    rw [ihinner fun i hi => Nat.lt_succ_of_lt (ha' i hi), if_neg hm,
      ih fun i hi => by have := ha' i hi; omega]
    split <;> rfl

theorem delivered (h : Told a x s m ds log) (ha : ∀ i, a = some i → i < m) {before after : Log}
    {author : Option Nat} (hlog : log = before ++ .deed author (.report t) :: after) :
    Delivered (before.handlerAfter s) (before.textAfter x) t (m + before.reportCount) after
      log := by
  induction h generalizing before after with
  | nil => cases before <;> cases hlog
  | @deed a x s m d ds log hd _ ih =>
    cases before with
    | nil =>
      cases hlog
      cases hd
    | cons e before =>
      obtain ⟨rfl, htail⟩ := List.cons.inj hlog
      rw [Log.reportCount_deed hd]
      exact ih ha htail
  | @unheard a x t' m ds log htold ih =>
    cases before with
    | nil => exact htold.callsOf_eq_nil (.inl (Nat.lt_succ_self m))
    | cons e before =>
      obtain ⟨rfl, htail⟩ := List.cons.inj hlog
      rw [Log.reportCount_report, ← Nat.succ_add_eq_add_succ]
      exact ih (fun i hi => Nat.lt_succ_of_lt (ha i hi)) htail
  | @heard a x t' m ds handler inner log hinner htold ihinner ih =>
    match before, hlog with
    | [], hlog =>
      cases hlog
      show Delivered (some handler) x t m _ _
      refine ⟨?_, inner, log, rfl, ?_⟩
      · rw [Log.callsOf_heard, if_pos rfl, hinner.callsOf_eq_nil (by omega),
          htold.callsOf_eq_nil (by omega)]
        rfl
      · rw [hinner.deedsOf_eq (by simp), if_pos rfl]
    | [_], hlog => cases hlog
    | _ :: _ :: before, hlog =>
      injection hlog with hfirst htail
      injection htail with hsecond htail
      subst hfirst hsecond
      rcases split_cases (by simp) htail with ⟨left, rfl, rfl⟩ | ⟨past, rfl, rfl⟩
      · -- The report is made while the handler runs.
        rw [Log.reportCount_report, Log.reportCount_called, ← Nat.succ_add_eq_add_succ]
        refine (ihinner (by simp) rfl).mono ?_
        have hnumber : m + 1 + Log.reportCount before <
            m + 1 + Log.reportCount (before ++ .deed author (.report t) :: left) := by
          rw [Log.reportCount_append, Log.reportCount_report]
          omega
        rw [Log.callsOf_heard, if_neg (by omega), htold.callsOf_eq_nil (.inl hnumber),
          List.append_nil]
        rfl
      · -- It is made after the handler has come to its end.
        have hnumber : m + (1 + inner.reportCount + Log.reportCount past) =
            m + 1 + inner.reportCount + Log.reportCount past := by omega
        rw [Log.handlerAfter_heard, Log.textAfter_heard, Log.reportCount_heard, hnumber,
          ← List.append_nil after]
        refine (ih (fun i hi => by have := ha i hi; omega) rfl).mono ?_
        rw [Log.callsOf_heard, if_neg (by omega), hinner.callsOf_eq_nil (.inr (by omega)),
          List.append_nil]
        rfl

/-- If an author reports what it stores, then it does so at once. -/
theorem reported_at_once (h : Told a x s m ds log) (hds : ReportsStored ds) {before after : Log}
    {author : Option Nat} (hlog : log = before ++ .deed author (.store t) :: after) :
    ∃ rest, after = .deed author (.report t) :: rest := by
  induction h generalizing before after with
  | nil => cases before <;> cases hlog
  | @deed a x s m d ds log hd htold ih =>
    cases before with
    | nil =>
      cases hlog
      obtain ⟨⟨rest, rfl⟩, -⟩ := hds
      cases htold <;> exact ⟨_, rfl⟩
    | cons e before =>
      obtain ⟨rfl, htail⟩ := List.cons.inj hlog
      exact ih hds.of_cons htail
  | unheard _ ih =>
    cases before with
    | nil => cases hlog
    | cons e before =>
      obtain ⟨rfl, htail⟩ := List.cons.inj hlog
      exact ih hds.of_cons htail
  | @heard a x t' m ds handler inner log _ _ ihinner ih =>
    match before, hlog with
    | [], hlog => cases hlog
    | [_], hlog => cases hlog
    | _ :: _ :: before, hlog =>
      injection hlog with hfirst htail
      injection htail with hsecond htail
      rcases split_cases (by simp) htail with ⟨left, rfl, rfl⟩ | ⟨past, rfl, rfl⟩
      · obtain ⟨rest, rfl⟩ := ihinner (reportsStored_reaction _) rfl
        exact ⟨_, rfl⟩
      · exact ih hds.of_cons rfl

end Told

namespace HookedBuffer

variable {h h' : HookedBuffer} {depth : Nat}

/-- The text that was stored last among some deeds, or the one from before them. -/
def lastStored (x : Text) (ds : List Deed) : Text := (ds.filterMap Deed.stored?).getLast?.getD x

theorem lastStored_store : lastStored x (.store t :: ds) = lastStored t ds := by
  rw [lastStored, List.filterMap_cons, Deed.stored?, List.getLast?_cons, Option.getD_some,
    lastStored]

theorem buffer_write (hwrite : h.write depth t = some h') :
    h'.buffer = { h.buffer with text := t } := by
  rw [write_eq] at hwrite
  exact buffer_report hwrite

theorem text_stepAll {steps : List BufferStep} (hrun : h.stepAll depth steps = some h') :
    h'.buffer.text = lastStored h.buffer.text (deeds h.buffer.layout steps) := by
  induction steps generalizing h with
  | nil =>
    cases hrun
    rfl
  | cons step steps ih =>
    rw [stepAll, List.foldlM_cons] at hrun
    obtain ⟨h₁, hstep, hrest⟩ := Option.bind_eq_some_iff.mp hrun
    rw [ih hrest]
    cases step with
    | write t => rw [buffer_write hstep, deeds, lastStored_store]; rfl
    | type t =>
      rw [HookedBuffer.step, type_eq] at hstep
      rw [deeds]
      split at hstep
      · next hreadOnly =>
        cases hstep
        rw [if_pos hreadOnly]
      · next hreadOnly =>
        rw [if_neg hreadOnly, buffer_write hstep, lastStored_store]; rfl
    | report t => rw [buffer_report hstep]; rfl
    | _ =>
      cases hstep
      rfl

end HookedBuffer

/-- Whatever handlers do to the hook, and however reports nest: the text of a buffer is the one that
was written last, typing being no writing while the text is read-only.  In a run the embedder does
what its steps say and nothing else, a text that is stored is reported next, and every report,
nested or not, reaches the handler that is connected just before it, if there is one, and nobody
else: that handler is called with the text of the report, while the buffer holds what was stored
last, and does all it has to do before it comes to its end. -/
theorem every_write_is_reported_once {depth : Nat} {steps : List BufferStep} {h h' : HookedBuffer}
    (hrun : h.stepAll depth steps = some h') :
    h'.buffer.text = HookedBuffer.lastStored h.buffer.text (deeds h.buffer.layout steps) ∧
    ∃ log : Log, Logged.stepAll depth steps ⟨h, []⟩ = some ⟨h', log⟩ ∧
      h'.received = h.received ++ log.received ∧
      h'.handler = log.handlerAfter h.handler ∧
      log.deedsOf none = deeds h.buffer.layout steps ∧
      (∀ before author t after, log = before ++ .deed author (.store t) :: after →
        ∃ rest, after = .deed author (.report t) :: rest) ∧
      (∀ (before : Log) author t after, log = before ++ .deed author (.report t) :: after →
        Delivered (before.handlerAfter h.handler) (before.textAfter h.buffer.text) t
          before.reportCount after log) := by
  have hnow := Logged.now_stepAll depth steps ⟨h, []⟩
  rw [hrun] at hnow
  obtain ⟨⟨_, log⟩, hlogged, rfl⟩ := Option.map_eq_some_iff.mp hnow
  obtain ⟨new, hleads⟩ := Logged.leads_stepAll hlogged
  obtain rfl : log = new := hleads.logs.log
  have htold := hleads.tells [] [] .nil
  rw [List.append_nil, List.append_nil] at htold
  refine ⟨HookedBuffer.text_stepAll hrun, log, hlogged, hleads.logs.received, hleads.logs.handler,
    ?_, ?_, ?_⟩
  · rw [htold.deedsOf_eq (by simp), if_pos rfl]
  · intro before author t after hlog
    exact htold.reported_at_once (reportsStored_deeds _ _) hlog
  · intro before author t after hlog
    have hdelivered := htold.delivered (by simp) hlog
    rwa [show Log.reportCount [] + before.reportCount = before.reportCount from Nat.zero_add _]
      at hdelivered

/-- A handler that hears of everything and does nothing. -/
def successor : HookHandler := ⟨"successor".toList, fun _ => .done⟩

/-- A handler that puts another one in its place, and then passes on what it was told. -/
def retiring : HookHandler :=
  ⟨"retiring".toList, fun t => .connect successor.name successor.react (.report (t ++ ['!']) .done)⟩

/-- Between two texts that are stored, one is typed into a read-only buffer. -/
def retiringSteps : List BufferStep :=
  [.connect retiring, .write "one".toList, .applyLayout { Layout.standard with readOnly := true },
   .type "two".toList, .write "three".toList]

/-- The handler that retires finishes its call, but what it reports in it reaches its successor
already, as does the next text; what is typed in between reaches nobody. -/
theorem retiring_handler_finishes :
    ∃ h' log, ({} : HookedBuffer).stepAll 2 retiringSteps = some h' ∧
      Logged.stepAll 2 retiringSteps ⟨{}, []⟩ = some ⟨h', log⟩ ∧
      h'.buffer.text = "three".toList ∧
      h'.received = [("retiring".toList, "one".toList), ("successor".toList, "one!".toList),
        ("successor".toList, "three".toList)] ∧
      Log.callsOf 0 log = [(retiring, "one".toList)] ∧
      Log.callsOf 1 log = [(successor, "one!".toList)] := by
  have hrun : ({} : HookedBuffer).stepAll 2 retiringSteps = some _ := rfl
  obtain ⟨htext, log, hlog, hreceived, -, -, -, hdelivered⟩ := every_write_is_reported_once hrun
  cases hlog
  have hfirst : Delivered (some retiring) _ "one".toList 0 _ _ :=
    hdelivered [.deed none (.connect retiring), .deed none (.store "one".toList)] none _ _ rfl
  have hsecond : Delivered (some successor) _ "one!".toList 1 _ _ :=
    hdelivered [.deed none (.connect retiring), .deed none (.store "one".toList),
      .deed none (.report "one".toList), .called 0 retiring "one".toList "one".toList,
      .deed (some 0) (.connect successor)] (some 0) _ _ rfl
  exact ⟨_, _, hrun, rfl, htext, hreceived, hfirst.1, hsecond.1⟩

end Surface
end QueryView
