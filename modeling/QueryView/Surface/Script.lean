/-
What can be asked of surfaces, and what callbacks do.

Operations are asked for by the embedder, and by callbacks: observers of text and of
themes, and handlers of change reports.  A callback is given as data, so that every
statement about runs of operations covers all callbacks that there can be.  Its body is a
`Script`: it performs operations and goes on according to their replies, it looks at the
surfaces and goes on according to what it sees, it leaves notes, it may panic, and it may
catch the panic of an operation that it performs.

Surfaces are known by their number, in the order in which they were created.

Subscriptions and handles belong to the embedder, and callbacks reach them by their numbers,
unless they are handed over to the callback of an observer of themes (`Operation.entrust`).
What such a callback owns is dropped when the callback is.  Observers of texts, handlers of
change reports and layers own nothing here.
-/
import QueryView.Surface.Layer
import QueryView.Surface.State

namespace QueryView
namespace Surface

structure View (E R : Type) where
  state : State
  runs : RunSequence
  editable : E
  rendered : R
  suppressing : Bool
  subscribed : Bool

/-- What a callback can look at: the theme, and every surface that is alive. -/
structure Snapshot (E R : Type) where
  theme : Theme
  surfaces : List (Option (View E R))

inductive Reply where
  | done
  | created (n : Nat)
  /-- What the operation is about is not there any more. -/
  | nothing
  | failed (failure : Failure)
  deriving DecidableEq

/-- Something that the callback of an observer of themes can own. -/
inductive Belonging where
  /-- A subscription, by its number. -/
  | subscription (i : Nat)
  /-- A handle to a surface. -/
  | handle (n : Nat)
  deriving DecidableEq

mutual

/-- The body of a callback. -/
inductive Script (E R : Type) : Type where
  | done
  | panic (reason : Text)
  | note (words : Text) (next : Script E R)
  | look (next : Snapshot E R → Script E R)
  | perform (op : Operation E R) (next : Reply → Script E R)
  /-- Performs an operation and catches its panic: what follows gets the reason of the
  panic or the reply. -/
  | attempt (op : Operation E R) (next : Except Text Reply → Script E R)

/-- What is connected to the change report of an editable layer. -/
inductive Handler (E R : Type) : Type where
  /-- The handler of a surface, which takes reports for edits of a user. -/
  | edits (n : Nat)
  | script (body : Text → Script E R)

/-- What is asked of one surface, through a handle to it. -/
inductive Request (E R : Type) : Type where
  | setText (t : Text)
  | typeText (t : Text)
  /-- A report of the editable layer, handed on by the embedder. -/
  | edited (t : Text)
  | setLanguage (l : Language)
  /-- Sets or clears the color of text that is not highlighted. -/
  | setPlainTextColor (c : Option Color)
  | followTheme
  | changeLayout (change : LayoutChange)
  | observe (body : Text → Script E R)
  /-- Changes the editable layer behind the surface's back. -/
  | editLayer (change : E → E × List Text)
  /-- Changes the render layer behind the surface's back. -/
  | renderLayer (change : R → R × Except Failure Unit)
  | connect (handler : Handler E R)
  /-- Gives the subscription to themes back. -/
  | dispose
  | clone
  | drop

/-- What is asked of the surfaces and of the notifier they share. -/
inductive Operation (E R : Type) : Type where
  | create (editable : E) (rendered : R)
  | on (n : Nat) (request : Request E R)
  /-- A change report through the hook of a surface's editable layer.  The hook outlives
  the surface. -/
  | report (n : Nat) (t : Text)
  | disconnect (n : Nat)
  /-- Adds an observer of themes, numbered in the order of subscription. -/
  | subscribe (body : Theme → Script E R)
  | unsubscribe (i : Nat)
  /-- Hands something over to the callback of a subscription. -/
  | entrust (i : Nat) (belonging : Belonging)
  | setTheme (t : Theme)
  /-- Gives the embedder's handle to the notifier back. -/
  | releaseNotifier

end

end Surface
end QueryView
