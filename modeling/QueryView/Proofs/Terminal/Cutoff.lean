/-
A sink that fills up.

A sink with a limit gets the first bytes of what a sink without one would get, whatever is
asked of the screen and wherever the limit falls: in the middle of an escape sequence, of a
character, or of what clears the screen (`full_sink_cuts_off`).  A step fails just when the
bytes that it would add do not fit, and a failure has no consequences.  Frame and layout are
what they would be without it, so the screen goes on as if the sink had taken everything.

Both runs go through the same screens but for their sinks.  `Screen.cut` turns a screen with
an unlimited sink into the one with a limit, and every step commutes with it (`perform_cut`).
What a step tries to write is therefore known from the steps before it: it is the frame of
the runs that were rendered last, in the layout that they were rendered in.
-/
import QueryView.Terminal.Screen

namespace QueryView

theorem Text.utf8_append (t u : Text) : utf8 (t ++ u) = utf8 t ++ utf8 u := List.flatMap_append

namespace Terminal

/-! ## Writing -/

namespace Sink

variable {s : Sink} {limit : Nat}

theorem write_of_unlimited (h : s.limit = none) (bytes : List UInt8) :
    s.write bytes = (.ok (), { s with written := s.written ++ bytes }) := by
  simp only [write, room, h, Nat.lt_irrefl, if_false, List.take_length]

/-- What becomes of bytes where there is only so much space. -/
def verdict (space : Nat) (bytes : List UInt8) : Except Failure Unit :=
  if space < bytes.length then .error (.device .full) else .ok ()

theorem verdict_nil (space : Nat) : verdict space [] = .ok () := if_neg (Nat.not_lt_zero _)

theorem write_of_limit (h : s.limit = some limit) (bytes : List UInt8) :
    s.write bytes = (verdict (limit - s.written.length) bytes,
      { s with written := s.written ++ bytes.take (limit - s.written.length) }) := by
  have hshort : min bytes.length (limit - s.written.length) < bytes.length ↔
      limit - s.written.length < bytes.length := by omega
  have htake : bytes.take (min bytes.length (limit - s.written.length)) =
      bytes.take (limit - s.written.length) := by
    rw [Nat.min_comm, ← List.take_take, List.take_length]
  simp only [write, room, h, verdict, hshort, htake]

/-- Writing two runs of bytes one after the other is writing them at once, and the second one
is not tried if the first one did not fit. -/
theorem write_append (s : Sink) (a b : List UInt8) :
    s.write (a ++ b) = match s.write a with
      | (.ok (), s') => s'.write b
      | (.error e, s') => (.error e, s') := by
  cases hlimit : s.limit with
  | none =>
    rw [write_of_unlimited hlimit, write_of_unlimited hlimit, ← List.append_assoc]
    exact (write_of_unlimited (s := { s with written := s.written ++ a }) hlimit b).symm
  | some limit =>
    rw [write_of_limit hlimit, write_of_limit hlimit, verdict, verdict, List.length_append,
      List.take_append]
    by_cases hfits : limit - s.written.length < a.length
    · have hnone : limit - s.written.length - a.length = 0 := by omega
      rw [if_pos hfits, if_pos (by omega), hnone, List.take_zero, List.append_nil]
    · have hall : a.take (limit - s.written.length) = a := List.take_of_length_le (by omega)
      have hrest : limit - (s.written ++ a).length = limit - s.written.length - a.length := by
        rw [List.length_append]
        omega
      have hshort : limit - s.written.length < a.length + b.length ↔
          limit - s.written.length - a.length < b.length := by omega
      have hwrite := write_of_limit (s := { s with written := s.written ++ a }) hlimit b
      rw [hrest, verdict, List.append_assoc] at hwrite
      simp only [if_neg hfits, hall, hshort, hwrite]

/-- The sink that had a limit from the start. -/
def cut (limit : Nat) (s : Sink) : Sink :=
  { s with written := s.written.take limit, limit := some limit }

theorem write_cut (h : s.limit = none) (limit : Nat) (bytes : List UInt8) :
    (s.cut limit).write bytes = (verdict (limit - (s.cut limit).written.length) bytes,
      (s.write bytes).2.cut limit) := by
  have hspace : limit - (s.written.take limit).length = limit - s.written.length := by
    rw [List.length_take]
    omega
  rw [write_of_limit (s := s.cut limit) rfl, write_of_unlimited h]
  simp only [cut, hspace, List.take_append]

theorem flush_eq_ok (h : s.flushFails = false) : s.flush = .ok () := by
  rw [flush, h]
  rfl

end Sink

/-! ## Steps -/

namespace Screen

/-- What is asked of a screen. -/
inductive Step where
  | layOut (layout : Layout)
  | render (runs : RunSequence)
  | present

def perform (s : Screen) : Step → Except Failure Unit × Screen
  | .layOut layout => (.ok (), s.applyLayout layout)
  | .render runs => s.render runs
  | .present => s.present

/-- The screen after some steps, whether or not they failed. -/
def after (s : Screen) (steps : List Step) : Screen :=
  steps.foldl (fun s step => (s.perform step).2) s

/-- The screen that shows runs. -/
def showing (s : Screen) (runs : RunSequence) : Screen :=
  { s with frame := Terminal.frame s.escapes s.wrapWidth s.layout runs }

theorem render_eq (s : Screen) (runs : RunSequence) :
    s.render runs =
      if s.autoPresent then (s.showing runs).present else (.ok (), s.showing runs) := rfl

/-- The screen after a step, but for its sink. -/
def moved (s : Screen) : Step → Screen
  | .layOut layout => s.applyLayout layout
  | .render runs => s.showing runs
  | .present => s

/-- What a step tries to write. -/
def offer (s : Screen) : Step → Text
  | .layOut _ => []
  | .render runs => if s.autoPresent then s.opening ++ (s.showing runs).frame else []
  | .present => s.opening ++ s.frame

/-- The screen on which nothing was written yet, with a limit to its sink or without. -/
def fresh (limit : Option Nat) (s : Screen) : Screen := { s with sink := { limit } }

/-- The screen whose sink had a limit from the start. -/
def cut (limit : Nat) (s : Screen) : Screen := { s with sink := s.sink.cut limit }

/-- The sink takes everything. -/
structure Unlimited (s : Screen) : Prop where
  limit : s.sink.limit = none
  flush : s.sink.flushFails = false

variable {s : Screen} {limit : Nat}

/-- Presenting is one attempt to write. -/
theorem present_eq (s : Screen) :
    s.present = match s.sink.write (Text.utf8 (s.opening ++ s.frame)) with
      | (.ok (), sink) => (sink.flush, { s with sink })
      | (.error e, sink) => (.error e, { s with sink }) := by
  rw [Text.utf8_append, Sink.write_append, present]
  rcases s.sink.write (Text.utf8 s.opening) with ⟨_ | ⟨⟩, sink⟩
  · rfl
  · simp only
    rcases sink.write (Text.utf8 s.frame) with ⟨_ | ⟨⟩, sink'⟩ <;> rfl

/-- The screen after a text was written to its unlimited sink. -/
def having (s : Screen) (t : Text) : Screen :=
  { s with sink := { s.sink with written := s.sink.written ++ Text.utf8 t } }

theorem present_of_unlimited (h : s.Unlimited) :
    s.present = (.ok (), s.having (s.opening ++ s.frame)) := by
  have hflush : (s.having (s.opening ++ s.frame)).sink.flush = .ok () := Sink.flush_eq_ok h.flush
  rw [present_eq, Sink.write_of_unlimited h.limit]
  exact congrArg (fun result => (result, s.having (s.opening ++ s.frame))) hflush

/-- The space that is left in the sink. -/
def space (limit : Nat) (s : Screen) : Nat := limit - s.sink.written.length

theorem present_cut (h : s.Unlimited) :
    (s.cut limit).present =
      (Sink.verdict ((s.cut limit).space limit) (Text.utf8 (s.opening ++ s.frame)),
        s.present.2.cut limit) := by
  have hwrite := Sink.write_cut h.limit limit (Text.utf8 (s.opening ++ s.frame))
  rw [Sink.write_of_unlimited h.limit] at hwrite
  rw [present_of_unlimited h, present_eq]
  show (match (s.sink.cut limit).write (Text.utf8 (s.opening ++ s.frame)) with
    | (.ok (), sink) => (sink.flush, { s.cut limit with sink })
    | (.error e, sink) => (.error e, { s.cut limit with sink })) = _
  have hflush : ((s.having (s.opening ++ s.frame)).sink.cut limit).flush = .ok () :=
    Sink.flush_eq_ok h.flush
  rw [hwrite, space, show (s.cut limit).sink = s.sink.cut limit from rfl]
  rcases Sink.verdict _ _ with e | ⟨⟩
  · rfl
  · exact congrArg (fun result => (result, (s.having (s.opening ++ s.frame)).cut limit)) hflush

/-! ## Steps of an unlimited sink -/

theorem having_nil (s : Screen) : s.having [] = s := by
  rw [having, Text.utf8, List.flatMap_nil, List.append_nil]

theorem perform_of_unlimited (h : s.Unlimited) (step : Step) :
    s.perform step = (.ok (), (s.moved step).having (s.offer step)) := by
  cases step with
  | layOut layout => rw [perform, moved, offer, having_nil]
  | render runs =>
    rw [perform, render_eq, moved, offer]
    split
    · exact present_of_unlimited ⟨h.limit, h.flush⟩
    · rw [having_nil]
  | present => exact present_of_unlimited h

theorem Unlimited.perform (h : s.Unlimited) (step : Step) : (s.perform step).2.Unlimited := by
  rw [perform_of_unlimited h]
  cases step <;> exact ⟨h.limit, h.flush⟩

theorem Unlimited.after (h : s.Unlimited) (steps : List Step) : (s.after steps).Unlimited := by
  induction steps generalizing s with
  | nil => exact h
  | cons step steps ih => exact ih (h.perform step)

theorem written_perform (h : s.Unlimited) (step : Step) :
    (s.perform step).2.sink.written = s.sink.written ++ Text.utf8 (s.offer step) := by
  rw [perform_of_unlimited h]
  cases step <;> rfl

/-! ## Steps of a sink with a limit -/

/-- With a limit a step does what it does without one, but for what the sink keeps and for the
answer. -/
theorem perform_cut (h : s.Unlimited) (step : Step) :
    (s.cut limit).perform step =
      (Sink.verdict ((s.cut limit).space limit) (Text.utf8 (s.offer step)),
        (s.perform step).2.cut limit) := by
  cases step with
  | layOut layout =>
    rw [show Text.utf8 (s.offer (.layOut layout)) = [] from rfl, Sink.verdict_nil]
    rfl
  | render runs =>
    have hshowing : (s.showing runs).Unlimited := ⟨h.limit, h.flush⟩
    have hcut : (s.cut limit).autoPresent = s.autoPresent := rfl
    rw [perform, perform, render_eq, render_eq, hcut, offer]
    split
    · exact present_cut hshowing
    · rw [show Text.utf8 [] = [] from rfl, Sink.verdict_nil]
      rfl
  | present => exact present_cut h

theorem after_cut (h : s.Unlimited) (steps : List Step) :
    (s.cut limit).after steps = (s.after steps).cut limit := by
  induction steps generalizing s with
  | nil => rfl
  | cons step steps ih =>
    show after ((s.cut limit).perform step).2 steps = _
    rw [perform_cut h]
    exact ih (h.perform step)

/-! ## What a step tries to write -/

/-- The layout in force after some steps. -/
def layoutAfter (layout : Layout) : List Step → Layout
  | [] => layout
  | .layOut layout :: steps => layoutAfter layout steps
  | .render _ :: steps => layoutAfter layout steps
  | .present :: steps => layoutAfter layout steps

/-- The runs that were rendered last, if any were, with the layout in force at that time. -/
def lastRendered? (layout : Layout) : List Step → Option (Layout × RunSequence)
  | [] => none
  | .layOut layout :: steps => lastRendered? layout steps
  | .render runs :: steps => (lastRendered? layout steps).or (some (layout, runs))
  | .present :: steps => lastRendered? layout steps

/-- The frame after some steps, by what was rendered last. -/
def frameAfter (s : Screen) (steps : List Step) : Text :=
  match lastRendered? s.layout steps with
  | some (layout, runs) => Terminal.frame s.escapes s.wrapWidth layout runs
  | none => s.frame

/-- What a step tries to write after other steps, by what they were and by the settings of the
screen. -/
def attempt (s : Screen) (steps : List Step) : Step → Text
  | .layOut _ => []
  | .render runs =>
    if s.autoPresent then
      s.opening ++ Terminal.frame s.escapes s.wrapWidth (layoutAfter s.layout steps) runs
    else []
  | .present => s.opening ++ s.frameAfter steps

theorem present_keeps (s : Screen) : ∃ sink, s.present.2 = { s with sink } := by
  rw [present_eq]
  rcases s.sink.write _ with ⟨_ | ⟨⟩, sink⟩ <;> exact ⟨sink, rfl⟩

theorem perform_keeps (s : Screen) (step : Step) :
    ∃ sink, (s.perform step).2 = { s.moved step with sink } := by
  cases step with
  | layOut layout => exact ⟨s.sink, rfl⟩
  | render runs =>
    rw [perform, render_eq]
    split
    · exact present_keeps (s.showing runs)
    · exact ⟨s.sink, rfl⟩
  | present => exact present_keeps s

theorem frameAfter_moved (s : Screen) (sink : Sink) (step : Step) (steps : List Step) :
    frameAfter { s.moved step with sink } steps = s.frameAfter (step :: steps) := by
  cases step with
  | layOut layout => rfl
  | render runs =>
    simp only [frameAfter, lastRendered?, moved, showing]
    cases lastRendered? s.layout steps <;> rfl
  | present => rfl

/-- Whatever becomes of the bytes, the steps set the layout and the frame, and nothing but them. -/
theorem after_keeps (s : Screen) (steps : List Step) :
    ∃ sink, s.after steps =
      { s with layout := layoutAfter s.layout steps, frame := s.frameAfter steps, sink } := by
  induction steps generalizing s with
  | nil => exact ⟨s.sink, rfl⟩
  | cons step steps ih =>
    obtain ⟨sink, hstep⟩ := perform_keeps s step
    obtain ⟨sink', hsteps⟩ := ih { s.moved step with sink }
    refine ⟨sink', ?_⟩
    rw [frameAfter_moved, ← hstep] at hsteps
    refine hsteps.trans ?_
    rw [hstep]
    cases step <;> rfl

theorem offer_after (s : Screen) (steps : List Step) (step : Step) :
    (s.after steps).offer step = s.attempt steps step := by
  obtain ⟨sink, hsteps⟩ := after_keeps s steps
  rw [hsteps]
  cases step <;> rfl

/-! ## The two runs -/

theorem unlimited_fresh (s : Screen) : (s.fresh none).Unlimited := ⟨rfl, rfl⟩

theorem fresh_cut (s : Screen) (limit : Nat) : (s.fresh none).cut limit = s.fresh (some limit) := by
  rw [cut, Sink.cut, fresh, List.take_nil]
  rfl

/-- A sink with a limit gets the first bytes of what one without a limit gets, a step fails just
when its bytes do not fit, and failing changes neither the frame nor the layout. -/
theorem full_sink_cuts_off (s : Screen) (limit : Nat) (steps : List Step) (step : Step) :
    let free := (s.fresh none).after steps
    let tight := (s.fresh (some limit)).after steps
    let bytes := Text.utf8 (s.attempt steps step)
    (free.perform step).1 = .ok () ∧
    (free.perform step).2.sink.written = free.sink.written ++ bytes ∧
    tight.sink.written = free.sink.written.take limit ∧
    (tight.perform step).2.sink.written = (free.perform step).2.sink.written.take limit ∧
    (tight.perform step).1 =
      (if limit - tight.sink.written.length < bytes.length then .error (.device .full)
        else .ok ()) ∧
    (tight.perform step).2.frame = (free.perform step).2.frame ∧
    (tight.perform step).2.layout = (free.perform step).2.layout := by
  intro free tight bytes
  have hfree : free.Unlimited := (unlimited_fresh s).after steps
  have htight : tight = free.cut limit := by
    rw [show tight = (s.fresh (some limit)).after steps from rfl, ← fresh_cut,
      after_cut (unlimited_fresh s)]
  have hbytes : Text.utf8 (free.offer step) = bytes := congrArg Text.utf8 (offer_after _ _ _)
  have hstep : tight.perform step =
      (Sink.verdict (tight.space limit) bytes, (free.perform step).2.cut limit) := by
    rw [htight, perform_cut hfree, hbytes]
  refine ⟨?_, ?_, ?_, ?_, ?_, ?_, ?_⟩
  · rw [perform_of_unlimited hfree]
  · rw [written_perform hfree, hbytes]
  · rw [htight]
    rfl
  · rw [hstep]
    rfl
  · rw [hstep]
    rfl
  · rw [hstep]
    rfl
  · rw [hstep]
    rfl

end Screen
end Terminal
end QueryView
