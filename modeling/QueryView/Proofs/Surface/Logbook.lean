/-
A logbook of a buffer and its hook.

Reports nest, and a handler may be disconnected or replaced while it runs, so the texts that have
reached a handler do not tell which report they belong to, nor what else went on.  Next to a
buffer somebody keeps a log: who did what, which handler a report reached and when that handler
came to its end.  Whoever does something is the embedder or a report, whose number is that of the
reports before it; what a handler does is put down to the report that reached it.  `Logged` does
what `HookedBuffer` does, and writes it down.
-/
import QueryView.Surface.Hook

namespace QueryView
namespace Surface

/-! ## Steps and deeds -/

/-- What an embedder does with a buffer and its hook. -/
inductive BufferStep where
  | write (t : Text)
  | type (t : Text)
  | report (t : Text)
  | connect (handler : HookHandler)
  | disconnect
  | applyLayout (layout : Layout)

/-- What is done to a buffer and its hook, by the embedder or by a handler that runs. -/
inductive Deed where
  | store (t : Text)
  | layOut (layout : Layout)
  | connect (handler : HookHandler)
  | disconnect
  | report (t : Text)

namespace Deed

def reports : Deed → Bool
  | report _ => true
  | _ => false

def stored? : Deed → Option Text
  | store t => some t
  | _ => none

end Deed

namespace HookedBuffer

def step (depth : Nat) (h : HookedBuffer) : BufferStep → Option HookedBuffer
  | .write t => h.write depth t
  | .type t => h.type depth t
  | .report t => h.report depth t
  | .connect handler => some (h.connect handler.name handler.react)
  | .disconnect => some h.disconnect
  | .applyLayout layout => some (h.applyLayout layout)

def stepAll (depth : Nat) (steps : List BufferStep) (h : HookedBuffer) : Option HookedBuffer :=
  steps.foldlM (step depth) h

theorem write_eq (depth : Nat) (t : Text) (h : HookedBuffer) :
    h.write depth t = report depth t { h with buffer := { h.buffer with text := t } } := by
  show [t].foldlM (fun h t => report depth t h) _ = _
  rw [List.foldlM_cons]
  exact bind_pure _

theorem type_eq (depth : Nat) (t : Text) (h : HookedBuffer) :
    h.type depth t = if h.buffer.layout.readOnly then some h else h.write depth t := by
  rw [type, Buffer.type]
  by_cases hreadOnly : h.buffer.layout.readOnly
  · rw [if_pos hreadOnly, if_pos hreadOnly]
    rfl
  · rw [if_neg hreadOnly, if_neg hreadOnly]
    rfl

end HookedBuffer

/-- All that a handler does when a report reaches it. -/
def Reaction.deeds : Reaction → List Deed
  | .done => []
  | .disconnect next => .disconnect :: next.deeds
  | .connect name react next => .connect ⟨name, react⟩ :: next.deeds
  | .report t next => .report t :: next.deeds

/-- All that an embedder does in its steps, if the layout is the given one at first.  A text is
stored before it is reported, and typing is nothing at all while the text is read-only. -/
def deeds (layout : Layout) : List BufferStep → List Deed
  | [] => []
  | .write t :: steps => .store t :: .report t :: deeds layout steps
  | .type t :: steps =>
    if layout.readOnly then deeds layout steps else .store t :: .report t :: deeds layout steps
  | .report t :: steps => .report t :: deeds layout steps
  | .connect handler :: steps => .connect handler :: deeds layout steps
  | .disconnect :: steps => .disconnect :: deeds layout steps
  | .applyLayout layout' :: steps => .layOut layout' :: deeds layout' steps

/-! ## Logs -/

inductive LogEntry where
  /-- Something is done, by the embedder or by a handler that the numbered report has reached. -/
  | deed (author : Option Nat) (d : Deed)
  /-- A report reaches a handler, and the buffer holds a text at that moment. -/
  | called (n : Nat) (handler : HookHandler) (t held : Text)
  /-- The handler that a report has reached comes to its end. -/
  | returned (n : Nat)

namespace LogEntry

def isReport : LogEntry → Bool
  | deed _ d => d.reports
  | _ => false

/-- The handler that is connected after an entry, given the one before it. -/
def rewire (s : Option HookHandler) : LogEntry → Option HookHandler
  | deed _ (.connect handler) => some handler
  | deed _ .disconnect => none
  | _ => s

/-- The text that is stored after an entry, given the one before it. -/
def overwrite (x : Text) : LogEntry → Text
  | deed _ (.store t) => t
  | _ => x

def deedOf (author : Option Nat) : LogEntry → Option Deed
  | deed a d => if a = author then some d else none
  | _ => none

def callOf (n : Nat) : LogEntry → Option (HookHandler × Text)
  | called m handler t _ => if m = n then some (handler, t) else none
  | _ => none

def received? : LogEntry → Option (Text × Text)
  | called _ handler t _ => some (handler.name, t)
  | _ => none

end LogEntry

/-- A log, the oldest entry first. -/
abbrev Log := List LogEntry

namespace Log

def reportCount (log : Log) : Nat := log.countP LogEntry.isReport

def handlerAfter (s : Option HookHandler) (log : Log) : Option HookHandler :=
  log.foldl LogEntry.rewire s

def textAfter (x : Text) (log : Log) : Text := log.foldl LogEntry.overwrite x

/-- What one author did, in order. -/
def deedsOf (author : Option Nat) (log : Log) : List Deed := log.filterMap (LogEntry.deedOf author)

/-- The handlers that one report has reached, with the texts they were given. -/
def callsOf (n : Nat) (log : Log) : List (HookHandler × Text) := log.filterMap (LogEntry.callOf n)

def received (log : Log) : List (Text × Text) := log.filterMap LogEntry.received?

end Log

/-- A buffer with its hook, and a log. -/
structure Logged where
  now : HookedBuffer
  log : Log := []

namespace Logged

def note (b : Logged) (now : HookedBuffer) (e : LogEntry) : Logged := ⟨now, b.log ++ [e]⟩

/-- Carries out the steps of the handler that a report has reached. -/
def perform (report : Text → Logged → Option Logged) (n : Nat) : Reaction → Logged → Option Logged
  | .done, b => some b
  | .disconnect next, b =>
    perform report n next (b.note { b.now with handler := none } (.deed (some n) .disconnect))
  | .connect name react next, b =>
    perform report n next (b.note { b.now with handler := some ⟨name, react⟩ }
      (.deed (some n) (.connect ⟨name, react⟩)))
  | .report t next, b => (report t b).bind (perform report n next)

def report : Nat → Option Nat → Text → Logged → Option Logged
  | 0, _, _, _ => none
  | depth + 1, author, t, b =>
    let n := b.log.reportCount
    let started := b.note b.now (.deed author (.report t))
    match b.now.handler with
    | none => some started
    | some handler =>
      let reached := { b.now with received := b.now.received ++ [(handler.name, t)] }
      (perform (report depth (some n)) n (handler.react t)
        (started.note reached (.called n handler t b.now.buffer.text))).map
          fun b => b.note b.now (.returned n)

def write (depth : Nat) (t : Text) (b : Logged) : Option Logged :=
  report depth none t
    (b.note { b.now with buffer := { b.now.buffer with text := t } } (.deed none (.store t)))

def step (depth : Nat) (b : Logged) : BufferStep → Option Logged
  | .write t => b.write depth t
  | .type t => if b.now.buffer.layout.readOnly then some b else b.write depth t
  | .report t => report depth none t b
  | .connect handler =>
    some (b.note { b.now with handler := some handler } (.deed none (.connect handler)))
  | .disconnect => some (b.note { b.now with handler := none } (.deed none .disconnect))
  | .applyLayout layout => some (b.note (b.now.applyLayout layout) (.deed none (.layOut layout)))

def stepAll (depth : Nat) (steps : List BufferStep) (b : Logged) : Option Logged :=
  steps.foldlM (step depth) b

/-! ## Nobody reads the log -/

theorem now_perform {report : Text → Logged → Option Logged}
    {report' : Text → HookedBuffer → Option HookedBuffer}
    (hreport : ∀ t b, (report t b).map Logged.now = report' t b.now) (n : Nat) (r : Reaction)
    (b : Logged) :
    (perform report n r b).map Logged.now = HookedBuffer.perform report' r b.now := by
  induction r generalizing b with
  | done => rfl
  | disconnect next ih => exact ih _
  | connect name react next _ ih => exact ih _
  | report t next ih =>
    rw [perform, HookedBuffer.perform, ← hreport]
    cases report t b with
    | none => rfl
    | some b' => exact ih b'

theorem now_report (depth : Nat) (author : Option Nat) (t : Text) (b : Logged) :
    (report depth author t b).map Logged.now = HookedBuffer.report depth t b.now := by
  induction depth generalizing author t b with
  | zero => rfl
  | succ depth ih =>
    rw [report, HookedBuffer.report]
    cases hhandler : b.now.handler with
    | none => rfl
    | some handler =>
      dsimp only
      rw [Option.map_map, ← hhandler]
      exact now_perform (fun t b' => ih (some b.log.reportCount) t b') _ _ _

theorem now_write (depth : Nat) (t : Text) (b : Logged) :
    (b.write depth t).map Logged.now = b.now.write depth t := by
  rw [write, now_report, HookedBuffer.write_eq]
  rfl

theorem now_step (depth : Nat) (b : Logged) (s : BufferStep) :
    (b.step depth s).map Logged.now = b.now.step depth s := by
  cases s with
  | write t => exact now_write depth t b
  | type t =>
    rw [step, HookedBuffer.step, HookedBuffer.type_eq]
    split
    · rfl
    · exact now_write depth t b
  | report t => exact now_report depth none t b
  | _ => rfl

theorem now_stepAll (depth : Nat) (steps : List BufferStep) (b : Logged) :
    (b.stepAll depth steps).map Logged.now = b.now.stepAll depth steps := by
  induction steps generalizing b with
  | nil => rfl
  | cons s steps ih =>
    rw [stepAll, HookedBuffer.stepAll, List.foldlM_cons, List.foldlM_cons, ← now_step]
    cases b.step depth s with
    | none => rfl
    | some b' => exact ih b'

end Logged
end Surface
end QueryView
