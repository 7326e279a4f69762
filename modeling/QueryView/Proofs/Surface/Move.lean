/-
Everything that can happen to a world while operations run.

A run of an operation is a sequence of moves: a note, an echo flag that is set, a surface
that is changed and shown, and so on.  `Move p` lists them, with the condition `p` on the
operations that may occur.  Every turn is a move, and so are a change of the theme and an
echo flag that is raised or given back, so a property that every move keeps is walked.  What
happens while a callback runs is never part of a move.

Such a property therefore holds whenever an operation ends, at any depth of nesting.  This is
the main theorem, `watched_alike`: `Operation.watched` lets somebody watch the ends of all
operations of a run, and who does nothing in worlds with the property does nothing at all.
-/
import QueryView.Proofs.Surface.Turn

namespace QueryView
namespace Surface

variable {E R : Type} [EditableLayer E] [RenderLayer R]

/-! ## Moves -/

/-- A step of a world that changes nothing of what is shown and brings in no callback. -/
inductive QuietMove : World E R → World E R → Prop where
  | noted (words w) : QuietMove w (w.record (.note words))
  | told (n i t w) : QuietMove w (w.record (.edited n i t))
  | themed (i theme w) : QuietMove w (w.record (.themed i theme))
  /-- The editable layer is not the one it was. -/
  | written (n editable w) : QuietMove w (w.changeLive n fun s => { s with editable })
  | suppressed (n on w) : QuietMove w (w.setSuppressing n on)
  | disconnected (n w) : QuietMove w (w.changeSlot n fun slot => { slot with hook := none })
  | released (n w) : QuietMove w (w.unsubscribeSurface n)
  /-- The number of handles to a surface is not what it was. -/
  | handled (n) (f : Nat → Nat) (w) :
      QuietMove w (w.changeSlot n fun slot => { slot with handles := f slot.handles })
  | entered (n w) : QuietMove w (w.enter n)
  | left (n w) : QuietMove w (w.leave n)
  | themeSet (theme w) : QuietMove w { w with notifier := { w.notifier with theme } }
  | unsubscribed (i id w) : QuietMove w (w.unsubscribe i id)
  /-- Callbacks own something else, or changes of the theme go on with others. -/
  | kept (belongings rounds w) : QuietMove w { w with belongings, rounds }
  | stranded (i id w) : QuietMove w (w.strand i id)
  | strandedSurface (n w) : QuietMove w (w.strandSurface n)
  | abandoned (w) : QuietMove w { w with notifier := { w.notifier with held := false } }

/-- One step of a world, in a run whose operations satisfy `p`. -/
inductive Move (p : Operation E R → Prop) : World E R → World E R → Prop where
  | quiet {w w'} (h : QuietMove w w') : Move p w w'
  /-- A state is changed and shown. -/
  | shown (n f w) : Move p w (World.changeAndShow n f w).2
  /-- A state is changed, its layout given to both layers, and shown. -/
  | laidOut (n f w) : Move p w (World.applyLayout n (w.changeState n f)).2
  | created (editable rendered w) : Move p w (World.create editable rendered w).2
  /-- The render layer was changed behind the surface's back. -/
  | drawn (n change w s) (h : p (.on n (.renderLayer change))) (hs : w.live? n = some s) :
      Move p w (w.changeLive n fun s' => { s' with rendered := (change s.rendered).1 })
  | observed (n body w) (h : ∀ t, (body t).Throughout p) :
      Move p w (w.changeLive n fun s => { s with observers := s.observers ++ [body] })
  | connected (n handler w) (h : handler.Throughout p) :
      Move p w (w.changeSlot n fun slot => { slot with hook := some handler })
  | subscribed (body w) (h : ∀ theme, (body theme).Throughout p) :
      Move p w (w.subscribe body)

/-- A property of worlds that keeps the callbacks in them in check and that every move
keeps. -/
structure Closed (p : Operation E R → Prop) (P : World E R → Prop) : Prop where
  stores : ∀ w, P w → w.Stores p
  permits : Permissive p
  move : ∀ w w', P w → Move p w w' → P w'

/-- The meaning of operations that nest at most `depth` deep, with somebody who does
something to the world at the end of each, nested ones included, however it ends. -/
def Operation.watched (watch : World E R → World E R) : Nat → Meaning E R
  | 0 => fun _ => throw .tooDeep
  | depth + 1 => fun op => Action.andFinally (step (watched watch depth) op) watch

/-! ## Moves that are turns

What is closed under moves is kept by turns, by changes of the theme, and by writes, so it is
kept by everything that operations are made of. -/

section
variable {p : Operation E R → Prop} {w w' : World E R}

theorem Aside.move (h : Aside p w w') : Move p w w' := by
  cases h with
  | noted words w => exact .quiet (.noted words w)
  | told n i t w => exact .quiet (.told n i t w)
  | written n change w s => exact .quiet (.written n (change s.editable).1 w)
  | drawn n change w s h hs => exact .drawn n change w s h hs
  | observed n body w h => exact .observed n body w h
  | connected n handler w h => exact .connected n handler w h
  | disconnected n w => exact .quiet (.disconnected n w)
  | handled n f w => exact .quiet (.handled n f w)
  | entered n w => exact .quiet (.entered n w)
  | kept belongings rounds w _ => exact .quiet (.kept belongings rounds w)
  | abandoned w => exact .quiet (.abandoned w)

theorem Turn.move (h : Turn p w w') : Move p w w' := by
  cases h with
  | aside h => exact h.move
  | shown n f w hf => exact .shown n f w
  | followed n w =>
    rw [World.followTheme_apply]
    exact .shown n _ w
  | laidOut n change w _ => exact .laidOut n _ w
  | created editable rendered w => exact .created editable rendered w
  | left n w => exact .quiet (.left n w)
  | released n w => exact .quiet (.released n w)
  | subscribed body w h => exact .subscribed body w h
  | unsubscribed i id w h => exact .quiet (.unsubscribed i id w)
  | stranded i id w h _ => exact .quiet (.stranded i id w)
  | strandedSurface n w h _ => exact .quiet (.strandedSurface n w)

variable {P : World E R → Prop}

theorem Closed.walked (hP : Closed p P) : Walked False p fun _ : Unit => P where
  stores := fun _ w hw => hP.stores w hw
  owned := fun _ _ _ _ => hP.permits.own
  tells := tells_of_follows hP.permits.follow
  turn := fun _ w w' hw h => hP.move w w' hw h.move
  write := fun {_} n {_ _} h => Action.matches_suppressing h fun _ w on hw =>
    hP.move w _ hw (.quiet (.suppressed n on w))


theorem Closed.themed (hP : Closed p P) (theme : Theme) : Themed (fun _ : Unit => P) theme where
  withTheme := fun _ w hw => hP.move w _ hw (.quiet (.themeSet theme w))
  called := fun i _ w hw => hP.move w _ hw (.quiet (.themed i theme w))

end

/-! ## Operations -/

section
open Surface.Action

variable {p : Operation E R → Prop} {P : World E R → Prop} {m m' : Meaning E R}

/-- The body of a callback is alike under meanings that are. -/
theorem World.alike_script (hP : Closed p P)
    (hm : ∀ op, op.Throughout p → Alike P (m op) (m' op)) (s : Script E R)
    (hs : s.Throughout p) : Alike P (s.run m) (s.run m') :=
  alike_iff_matches.mpr <|
    matches_script hP.walked (fun op h => alike_iff_matches.mp (hm op h)) s hs

end

namespace Operation

open Surface.Action

variable {p : Operation E R → Prop} {P : World E R → Prop}

/-- Somebody who watches the ends of all operations, and who does nothing in worlds with a
property that is kept, does nothing at all. -/
theorem matches_watched {P : Unit → World E R → Prop} (hP : Walked False p P)
    (hthemed : ∀ theme, Themed P theme) {watch : World E R → World E R}
    (hwatch : ∀ w, P () w → watch w = w) (depth : Nat) (op : Operation E R)
    (h : op.Throughout p) : Matches False P (watched watch depth op) (run depth op) := by
  induction depth generalizing op with
  | zero => exact matches_throw _
  | succ depth ih =>
    intro w i hw hends
    obtain ⟨hsame, hkept⟩ := matches_step_of_themed hP hthemed ih h w i hw hends
    refine ⟨?_, hkept⟩
    show ((step (watched watch depth) op w).1, watch (step (watched watch depth) op w).2) = _
    rw [hsame, hwatch _ hkept]
    rfl

/-- Who does nothing in worlds with a property that every move keeps does nothing at all. -/
theorem watched_alike (hP : Closed p P) {watch : World E R → World E R}
    (hwatch : ∀ w, P w → watch w = w) (depth : Nat) (op : Operation E R)
    (h : op.Throughout p) : Alike P (watched watch depth op) (run depth op) :=
  alike_iff_matches.mpr <| matches_watched hP.walked hP.themed hwatch depth op h

/-- The same of a whole run. -/
theorem watched_script (hP : Closed p P) {watch : World E R → World E R}
    (hwatch : ∀ w, P w → watch w = w) (depth : Nat) {program : Script E R}
    (hprogram : program.Throughout p) {start : World E R} (hstart : P start) :
    program.run (watched watch depth) start = program.run (run depth) start ∧
      P (program.run (run depth) start).2 := by
  obtain ⟨hsame, hkept⟩ := World.alike_script hP (watched_alike hP hwatch depth) program hprogram
    start hstart
  exact ⟨hsame, hsame ▸ hkept⟩

end Operation
end Surface
end QueryView
