/-
A buffer on its own, with the hook through which it reports.

A hook has room for one handler.  A report goes to the handler that is connected when it
is made; that handler runs to its end even if it disconnects or replaces itself, and what
it does to the hook counts from the next report on.  A handler may report again, so
reports nest; `report` takes a bound on their depth and answers `none` only when the
bound is reached.

What a handler does is data: a `Reaction` lists its steps, one after the other.  A handler
remembers nothing, and it does not ask whether it is connected.  One that would, such as a
handler that reports again only once, connects in its own place the handler that it is from
then on, under its own name.
-/
import QueryView.Surface.Buffer

namespace QueryView
namespace Surface

/-- What a handler does when a report reaches it. -/
inductive Reaction where
  | done
  | disconnect (next : Reaction)
  /-- Connects another handler, under a name. -/
  | connect (name : Text) (react : Text → Reaction) (next : Reaction)
  /-- Reports a text through the same hook. -/
  | report (t : Text) (next : Reaction)

structure HookHandler where
  name : Text
  react : Text → Reaction

/-- A buffer with its hook, and the reports that have reached a handler so far: the
handler's name and the text. -/
structure HookedBuffer where
  buffer : Buffer := {}
  handler : Option HookHandler := none
  received : List (Text × Text) := []

namespace HookedBuffer

/-- Carries out the steps of a handler, given how a report is made. -/
def perform (report : Text → HookedBuffer → Option HookedBuffer) :
    Reaction → HookedBuffer → Option HookedBuffer
  | .done, h => some h
  | .disconnect next, h => perform report next { h with handler := none }
  | .connect name react next, h => perform report next { h with handler := some ⟨name, react⟩ }
  | .report t next, h => (report t h).bind (perform report next)

def report : Nat → Text → HookedBuffer → Option HookedBuffer
  | 0, _, _ => none
  | depth + 1, t, h =>
    match h.handler with
    | none => some h
    | some handler =>
      perform (report depth) (handler.react t)
        { h with received := h.received ++ [(handler.name, t)] }

def reportAll (depth : Nat) (texts : List Text) (h : HookedBuffer) : Option HookedBuffer :=
  texts.foldlM (fun h t => report depth t h) h

/-! ## Steps of an embedder -/

/-- Stores a text in the buffer, which then reports it. -/
def write (depth : Nat) (t : Text) (h : HookedBuffer) : Option HookedBuffer :=
  let (buffer, reports) := h.buffer.write t
  reportAll depth reports { h with buffer }

/-- Types a text into the buffer, which reports it unless it is read-only. -/
def type (depth : Nat) (t : Text) (h : HookedBuffer) : Option HookedBuffer :=
  let (buffer, reports) := h.buffer.type t
  reportAll depth reports { h with buffer }

def applyLayout (layout : Layout) (h : HookedBuffer) : HookedBuffer :=
  { h with buffer := { h.buffer with layout } }

def connect (name : Text) (react : Text → Reaction) (h : HookedBuffer) : HookedBuffer :=
  { h with handler := some ⟨name, react⟩ }

def disconnect (h : HookedBuffer) : HookedBuffer := { h with handler := none }

end HookedBuffer
end Surface
end QueryView
