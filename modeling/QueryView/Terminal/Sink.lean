/-
Where the bytes of a terminal go.

A sink keeps what is written to it, in order.  It may have a limit: it then keeps the
bytes that fit and fails at the first that does not, so after a failure it holds as
many bytes as it ever will.  Passing on what it holds may fail as well.
-/
import QueryView.Failure

namespace QueryView
namespace Terminal

structure Sink where
  written : List UInt8 := []
  /-- How many bytes the sink takes in all. -/
  limit : Option Nat := none
  flushFails : Bool := false

namespace Sink

def room (s : Sink) (count : Nat) : Nat :=
  match s.limit with
  | some limit => min count (limit - s.written.length)
  | none => count

/-- Writes bytes, as many as fit. -/
def write (s : Sink) (bytes : List UInt8) : Except Failure Unit × Sink :=
  let settersOnBrokenDisplay := bytes.take (s.room bytes.length)
  (if s.room bytes.length < bytes.length then .error (.device .full) else .ok (),
    { s with written := s.written ++ settersOnBrokenDisplay })

def flush (s : Sink) : Except Failure Unit :=
  if s.flushFails then .error (.device .flushFailed) else .ok ()

end Sink
end Terminal
end QueryView
