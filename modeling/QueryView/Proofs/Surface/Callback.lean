/-
What callbacks are allowed to do.

Callbacks perform operations, and some of these leave new callbacks behind.  A condition on
operations therefore means something for a run only if it is asked of every operation that
occurs in it, however deep.  `Throughout p` asks `p` of an operation, of all that the
callbacks in it perform, and so on; `World.Stores p` asks the same of the callbacks that a
world keeps for later.
-/
import QueryView.Surface.World

namespace QueryView
namespace Surface

variable {E R : Type}

mutual

/-- Every operation in the body of a callback satisfies `p`. -/
def Script.Throughout (p : Operation E R → Prop) : Script E R → Prop
  | .done => True
  | .panic _ => True
  | .note _ next => next.Throughout p
  | .look next => ∀ seen, (next seen).Throughout p
  | .perform op next => op.Throughout p ∧ ∀ reply, (next reply).Throughout p
  | .attempt op next => op.Throughout p ∧ ∀ outcome, (next outcome).Throughout p

def Handler.Throughout (p : Operation E R → Prop) : Handler E R → Prop
  | .edits _ => True
  | .script body => ∀ t, (body t).Throughout p

def Request.Throughout (p : Operation E R → Prop) : Request E R → Prop
  | .observe body => ∀ t, (body t).Throughout p
  | .connect handler => handler.Throughout p
  | _ => True

/-- The operation satisfies `p`, and so does every operation in the callbacks that it
brings in. -/
def Operation.Throughout (p : Operation E R → Prop) : Operation E R → Prop
  | .on n request => p (.on n request) ∧ request.Throughout p
  | .subscribe body => p (.subscribe body) ∧ ∀ theme, (body theme).Throughout p
  | op => p op

end

/-! Asking nothing of operations asks nothing of callbacks. -/

mutual

theorem Script.throughout_true (script : Script E R) : script.Throughout fun _ => True := by
  cases script with
  | done | panic => simp only [Script.Throughout]
  | note words next =>
    rw [Script.Throughout]
    exact next.throughout_true
  | look next =>
    rw [Script.Throughout]
    exact fun seen => (next seen).throughout_true
  | perform op next | attempt op next =>
    rw [Script.Throughout]
    exact ⟨op.throughout_true, fun answer => (next answer).throughout_true⟩

theorem Handler.throughout_true (handler : Handler E R) : handler.Throughout fun _ => True := by
  cases handler with
  | edits n => simp only [Handler.Throughout]
  | script body =>
    rw [Handler.Throughout]
    exact fun t => (body t).throughout_true

theorem Request.throughout_true (request : Request E R) : request.Throughout fun _ => True := by
  cases request with
  | observe body =>
    rw [Request.Throughout]
    exact fun t => (body t).throughout_true
  | connect handler =>
    rw [Request.Throughout]
    exact handler.throughout_true
  | _ => simp only [Request.Throughout]

theorem Operation.throughout_true (op : Operation E R) : op.Throughout fun _ => True := by
  cases op with
  | on n request =>
    rw [Operation.Throughout]
    exact ⟨trivial, request.throughout_true⟩
  | subscribe body =>
    rw [Operation.Throughout]
    exact ⟨trivial, fun theme => (body theme).throughout_true⟩
  | _ => simp only [Operation.Throughout]

end

/-- Every callback that is kept in the world satisfies `p` throughout. -/
structure World.Stores (p : Operation E R → Prop) (w : World E R) : Prop where
  observers : ∀ n s, w.live? n = some s → ∀ body ∈ s.observers, ∀ t, (body t).Throughout p
  hooks : ∀ n handler, w.hook? n = some handler → handler.Throughout p
  watchers : ∀ id i body, (id, Watcher.observer i body) ∈ w.notifier.observers →
    ∀ theme, (body theme).Throughout p

theorem World.stores_true (w : World E R) : w.Stores fun _ => True where
  observers := fun _ _ _ body _ t => (body t).throughout_true
  hooks := fun _ handler _ => handler.throughout_true
  watchers := fun _ _ body _ theme => (body theme).throughout_true

/-- There are no callbacks before there are surfaces. -/
theorem World.stores_initial (p : Operation E R → Prop) (theme : Theme) :
    (World.initial theme : World E R).Stores p := by
  constructor
  · intro n s h
    simp [World.initial, World.live?] at h
  · intro n handler h
    simp [World.initial, World.hook?] at h
  · intro id i body h
    simp [World.initial] at h

/-! ## Nothing new

Most of what happens to a world brings in no callback. -/

/-- Whatever callbacks the second world keeps, the first one keeps too. -/
structure World.KeepsFewer (w w' : World E R) : Prop where
  live : ∀ n s', w'.live? n = some s' →
    s'.observers = [] ∨ ∃ s, w.live? n = some s ∧ s'.observers = s.observers
  hook : ∀ n handler, w'.hook? n = some handler → w.hook? n = some handler
  watchers : ∀ id i body, (id, Watcher.observer i body) ∈ w'.notifier.observers →
    (id, Watcher.observer i body) ∈ w.notifier.observers

theorem World.Stores.of_keepsFewer {p : Operation E R → Prop} {w w' : World E R}
    (hw : w.Stores p) (h : World.KeepsFewer w w') : w'.Stores p := by
  constructor
  · intro n s' hs' body hbody
    rcases h.live n s' hs' with hnone | ⟨s, hs, heq⟩
    · rw [hnone] at hbody
      exact absurd hbody List.not_mem_nil
    · rw [heq] at hbody
      exact hw.observers n s hs body hbody
  · exact fun n handler hh => hw.hooks n handler (h.hook n handler hh)
  · exact fun id i body hb => hw.watchers id i body (h.watchers id i body hb)

end Surface
end QueryView
