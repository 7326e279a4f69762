/-
Surfaces that mirror each other.

Whatever is typed into a surface of a group, its observers set on all others.  The editable
layers may report what is set to their surfaces, and if such a report were taken for an edit,
the text would be mirrored back, and so on without end.  It is taken for an echo instead: the
main theorem, `mirrors_come_to_rest`, says that every call ends, that a text typed into one
surface is then the text of all, and that the observers of that surface have been told of it
once, and nobody else of anything.

Nothing nests deeper than the call and the texts set by its observers, so a depth of two
is enough for a group of any size.

While a text makes its round, `Spread` lists the surfaces that it has reached.
-/
import QueryView.Proofs.Surface.Agreement

namespace QueryView
namespace Surface

variable {E R : Type}

/-! ## Mirrors -/

/-- Performs operations one after the other, whatever they reply. -/
def Script.performAll : List (Operation E R) → Script E R
  | [] => .done
  | op :: ops => .perform op fun _ => performAll ops

/-- Sets a text on other surfaces. -/
def mirror (others : List Nat) (t : Text) : Script E R :=
  .performAll (others.map fun n => .on n (.setText t))

/-- What an observer of a surface does that mirrors it on all others of a group. -/
def MirrorsFor (members : List Nat) (n : Nat) (body : Text → Script E R) : Prop :=
  ∃ others, body = mirror others ∧ ∀ k, k ∈ others ↔ k ∈ members ∧ k ≠ n

/-- The operation sets the text of a surface of the group, or types one into it. -/
def Operation.Enters (members : List Nat) : Operation E R → Prop
  | .on n (.setText _) => n ∈ members
  | .on n (.typeText _) => n ∈ members
  | _ => False

/-- The editable layers keep every text as it is written to them. -/
def Verbatim (E : Type) [EditableLayer E] : Prop := ∀ t, Kept E t

namespace World

/-- The embedder has a handle to the surface, whose observers mirror it on all others of a
group. -/
structure Mirrored (members : List Nat) (w : World E R) (n : Nat) : Prop where
  handles : w.handles n ≠ 0
  live : ∃ s, w.live? n = some s ∧ s.observers ≠ [] ∧
    ∀ body ∈ s.observers, MirrorsFor members n body

variable {members reached : List Nat} {w w' : World E R} {n k : Nat} {t : Text} {s : Live E R}

theorem Mirrored.of_live {s' : Live E R} (h : w.Mirrored members n) (hs : w.live? n = some s)
    (hhandles : w'.handles n = w.handles n) (hlive : w'.live? n = some s')
    (hobservers : s'.observers = s.observers) : w'.Mirrored members n := by
  obtain ⟨_, hs₀, hmirrors⟩ := h.live
  rw [hs] at hs₀
  cases hs₀
  exact ⟨hhandles ▸ h.handles, s', hlive, hobservers ▸ hmirrors⟩

theorem Mirrored.congr (h : w.Mirrored members n) (hhandles : w'.handles n = w.handles n)
    (hlive : w'.live? n = w.live? n) : w'.Mirrored members n :=
  ⟨hhandles ▸ h.handles, hlive ▸ h.live⟩

theorem mirrored_of_observers {others : List Nat} (hhandles : w.handles n ≠ 0)
    (hs : w.live? n = some s) (hobservers : s.observers = [mirror others])
    (hothers : ∀ k, k ∈ others ↔ k ∈ members ∧ k ≠ n) : w.Mirrored members n := by
  refine ⟨hhandles, s, hs, by simp [hobservers], fun body hbody => ?_⟩
  rw [hobservers] at hbody
  exact ⟨others, List.mem_singleton.mp hbody, hothers⟩

variable [EditableLayer E]

/-- Both the surface and its editable layer have the text. -/
def HasText (w : World E R) (n : Nat) (t : Text) : Prop :=
  ∃ s, w.live? n = some s ∧ s.state.text = t ∧ EditableLayer.text s.editable = t

/-- A text on its round through a group, and the surfaces that it has reached. -/
structure Spread (calm : R → Prop) (members reached : List Nat) (t : Text) (w : World E R) :
    Prop where
  orderly : w.Orderly calm
  mirrored : ∀ n ∈ members, w.Mirrored members n
  known : ∀ n ∈ reached, n ∈ members
  arrived : ∀ n ∈ reached, w.HasText n t

variable {calm : R → Prop}

theorem Spread.mono {fewer : List Nat} (h : Spread calm members reached t w)
    (hfewer : ∀ n ∈ fewer, n ∈ reached) : Spread calm members fewer t w where
  orderly := h.orderly
  mirrored := h.mirrored
  known n hn := h.known n (hfewer n hn)
  arrived n hn := h.arrived n (hfewer n hn)

theorem Spread.congr (h : Spread calm members reached t w) (horderly : w'.Orderly calm)
    (hhandles : ∀ n, w'.handles n = w.handles n)
    (hlive : ∀ n ∈ members, w'.live? n = w.live? n) : Spread calm members reached t w' where
  orderly := horderly
  mirrored n hn := (h.mirrored n hn).congr (hhandles n) (hlive n hn)
  known := h.known
  arrived n hn := by
    obtain ⟨s, hs, htexts⟩ := h.arrived n hn
    exact ⟨s, (hlive n (h.known n hn)).trans hs, htexts⟩

theorem Spread.record (h : Spread calm members reached t w) (e : Event) :
    Spread calm members reached t (w.record e) :=
  h.congr (h.orderly.record e) (fun _ => rfl) fun _ _ => rfl

theorem Spread.leave (h : Spread calm members reached t w) :
    Spread calm members reached t (w.leave k) :=
  h.congr h.orderly.leave (fun _ => handles_leave) fun n hn =>
    live?_leave_of_handles (h.mirrored n hn).handles

/-! ## A text makes its round -/

variable [RenderLayer R]

theorem live?_rewritten_of_ne (hne : k ≠ n) (t typed : Text) :
    (w.rewritten k t typed).live? n = w.live? n := by
  rw [rewritten, edited, live?_changeAndShow, if_neg hne, live?_changeLive, if_neg hne, live?_enter]

/-- A surface that writes the text and is shown with it is reached by it, and no other one is
changed. -/
theorem Spread.rewritten (h : Spread calm members reached t w) (hcalm : NeverPanics calm)
    (hverbatim : Verbatim E) (hk : k ∈ members) :
    Spread calm members (k :: reached) t (w.rewritten k t t) := by
  obtain ⟨s, hs, -⟩ := (h.mirrored k hk).live
  have hself := live?_rewritten hs t t
  have hhandles n : (w.rewritten k t t).handles n = w.handles n := by
    rw [World.rewritten, edited, handles_changeAndShow, handles_changeLive, handles_enter]
  have hhas : (w.rewritten k t t).HasText k t := ⟨_, hself, rfl, hverbatim t s.editable⟩
  constructor
  · exact h.orderly.rewritten hcalm t t
  · intro n hn
    by_cases hne : k = n
    · subst hne
      exact (h.mirrored k hk).of_live hs (hhandles k) hself rfl
    · exact (h.mirrored n hn).congr (hhandles n) (live?_rewritten_of_ne hne t t)
  · exact List.forall_mem_cons.mpr ⟨hk, h.known⟩
  · intro n hn
    by_cases hne : k = n
    · exact hne ▸ hhas
    · obtain ⟨s', hs', htexts⟩ := h.arrived n ((List.mem_cons.mp hn).resolve_left (Ne.symm hne))
      exact ⟨s', (live?_rewritten_of_ne hne t t).trans hs', htexts⟩

/-- A text that is set reaches the surface, and nobody is told. -/
theorem Spread.setText (h : Spread calm members reached t w) (hcalm : NeverPanics calm)
    (hverbatim : Verbatim E) (hk : k ∈ members) (depth : Nat) :
    ∃ reply w', Operation.run (depth + 1) (.on k (.setText t)) w = (.ok reply, w') ∧
      w'.notifications = w.notifications ∧ Spread calm members (k :: reached) t w' := by
  obtain ⟨reply, hrun⟩ :=
    exists_run_setText_eq hcalm h.orderly (h.mirrored k hk).handles depth t
  refine ⟨reply, _, hrun, ?_, (h.rewritten hcalm hverbatim hk).leave⟩
  rw [notifications, trace_leave]
  exact notifications_rewritten k t t

/-- A text that is set on one surface after the other reaches them all. -/
theorem Spread.mirror (h : Spread calm members reached t w) (hcalm : NeverPanics calm)
    (hverbatim : Verbatim E) {others : List Nat} (hothers : ∀ k ∈ others, k ∈ members)
    (depth : Nat) :
    ∃ w', (mirror others t).run (Operation.run (depth + 1)) w = (.ok (), w') ∧
      w'.notifications = w.notifications ∧ Spread calm members (others ++ reached) t w' := by
  induction others generalizing reached w with
  | nil => exact ⟨w, rfl, rfl, h⟩
  | cons k others ih =>
    obtain ⟨hk, hothers⟩ := List.forall_mem_cons.mp hothers
    obtain ⟨reply, w', hset, hquiet, hspread⟩ := h.setText hcalm hverbatim hk depth
    obtain ⟨w'', hrest, hquiet', hspread'⟩ := ih hspread hothers
    refine ⟨w'', ?_, hquiet'.trans hquiet, hspread'.mono fun n hn => ?_⟩
    · show (Operation.run (depth + 1) (.on k (.setText t)) >>= fun _ =>
        (Surface.mirror others t).run (Operation.run (depth + 1))) w = _
      rw [Action.bind_apply, hset]
      exact hrest
    · simpa [or_left_comm] using hn

/-- An observer of a surface that has the text brings it to all others. -/
theorem Spread.callOne (h : Spread calm members reached t w) (hcalm : NeverPanics calm)
    (hverbatim : Verbatim E) (hn : n ∈ reached) {o : (Text → Script E R) × Nat}
    (ho : MirrorsFor members n o.1) (depth : Nat) :
    ∃ w', callOne (Operation.run (depth + 1)) n t o w = (.ok (), w') ∧
      w'.notifications = w.notifications ++ [⟨n, o.2, t⟩] ∧
      Spread calm members members t w' := by
  obtain ⟨others, hbody, hothers⟩ := ho
  obtain ⟨w', hrun, hquiet, hspread⟩ := (h.record (.edited n o.2 t)).mirror hcalm hverbatim
    (fun k hk => ((hothers k).mp hk).1) depth
  refine ⟨w', ?_, hquiet.trans (notifications_edited n o.2 t), hspread.mono fun k hk => ?_⟩
  · rw [World.callOne, hbody]
    exact hrun
  by_cases hkn : k = n
  · exact List.mem_append_right _ (hkn ▸ hn)
  · exact List.mem_append_left _ ((hothers k).mpr ⟨hk, hkn⟩)

/-- After the first observer the text has reached all, and the others bring it there again. -/
theorem Spread.forM_callOne (h : Spread calm members reached t w) (hcalm : NeverPanics calm)
    (hverbatim : Verbatim E) (hn : n ∈ reached) {pairs : List ((Text → Script E R) × Nat)}
    (hpairs : ∀ o ∈ pairs, MirrorsFor members n o.1) (depth : Nat) :
    ∃ w', pairs.forM (World.callOne (Operation.run (depth + 1)) n t) w = (.ok (), w') ∧
      w'.notifications = w.notifications ++ pairs.map (fun o => ⟨n, o.2, t⟩) ∧
      Spread calm members (if pairs = [] then reached else members) t w' := by
  induction pairs generalizing reached w with
  | nil => exact ⟨w, rfl, (List.append_nil _).symm, h⟩
  | cons o pairs ih =>
    obtain ⟨ho, hpairs⟩ := List.forall_mem_cons.mp hpairs
    obtain ⟨w', hfirst, htold, hspread⟩ := h.callOne hcalm hverbatim hn ho depth
    obtain ⟨w'', hrest, htold', hspread'⟩ := ih hspread (h.known n hn) hpairs
    refine ⟨w'', ?_, ?_, ?_⟩
    · show (World.callOne (Operation.run (depth + 1)) n t o >>= fun _ =>
        pairs.forM (World.callOne (Operation.run (depth + 1)) n t)) w = _
      rw [Action.bind_apply, hfirst]
      exact hrest
    · rw [htold', htold, List.append_assoc]
      rfl
    · rwa [ite_self] at hspread'

/-- Every observer of a surface is told once, and the text reaches all. -/
theorem Spread.callEach (h : Spread calm members reached t w) (hcalm : NeverPanics calm)
    (hverbatim : Verbatim E) (hn : n ∈ reached) {observers : List (Text → Script E R)}
    (hsome : observers ≠ []) (hobservers : ∀ body ∈ observers, MirrorsFor members n body)
    (depth : Nat) :
    ∃ w', callEach (Operation.run (depth + 1)) n t observers w = (.ok (), w') ∧
      w'.notifications = w.notifications ++ observers.zipIdx.map (fun o => ⟨n, o.2, t⟩) ∧
      Spread calm members members t w' := by
  obtain ⟨w', hrun, htold, hspread⟩ := h.forM_callOne hcalm hverbatim hn
    (fun o ho => hobservers o.1 (List.fst_mem_of_mem_zipIdx ho)) depth
  rw [if_neg (by simpa using hsome)] at hspread
  exact ⟨w', hrun, htold, hspread⟩

/-- A text that is typed reaches all, and only the observers of the surface into which it is
typed are told. -/
theorem Spread.typeText (h : Spread calm members [] t w) (hcalm : NeverPanics calm)
    (hverbatim : Verbatim E) (hn : n ∈ members) (hidle : w.Idle n) (hs : w.live? n = some s)
    (hopen : s.state.layout.readOnly = false) (depth : Nat) :
    ∃ reply w', Operation.run (depth + 2) (.on n (.typeText t)) w = (.ok reply, w') ∧
      w'.notifications = w.notifications ++ s.observers.zipIdx.map (fun o => ⟨n, o.2, t⟩) ∧
      Spread calm members members t w' := by
  obtain ⟨_, hs₀, hsome, hobservers⟩ := (h.mirrored n hn).live
  rw [hs] at hs₀
  cases hs₀
  obtain ⟨reply, hrun⟩ := typed_makesEdit hcalm h.orderly hs (h.mirrored n hn).handles hidle hopen
    (depth + 1) t
  rw [hverbatim t s.editable] at hrun
  obtain ⟨w', hround, htold, hspread⟩ := (h.rewritten hcalm hverbatim hn).callEach hcalm hverbatim
    List.mem_cons_self hsome hobservers depth
  refine ⟨reply, w'.leave n, ?_, ?_, hspread.leave⟩
  · rw [hrun, Action.andFinally, Action.bind_apply, hround]
    rfl
  · rw [notifications, trace_leave, ← notifications_rewritten (w := w) n t t]
    exact htold

/-! ## Calls -/

/-- A group whose surfaces mirror each other, none of which is being written. -/
structure AtRest (calm : R → Prop) (members : List Nat) (w : World E R) : Prop where
  orderly : w.Orderly calm
  mirrored : ∀ n ∈ members, w.Mirrored members n
  idle : ∀ n, w.Idle n

omit [RenderLayer R] in
theorem AtRest.spread (h : w.AtRest calm members) (t : Text) : Spread calm members [] t w where
  orderly := h.orderly
  mirrored := h.mirrored
  known := nofun
  arrived := nofun

theorem AtRest.of_spread {depth : Nat} {op : Operation E R} {reply : Reply}
    (h : w.AtRest calm members) (hrun : Operation.run depth op w = (.ok reply, w'))
    (hspread : Spread calm members reached t w') : w'.AtRest calm members where
  orderly := hspread.orderly
  mirrored := hspread.mirrored
  idle n := by
    have hafter := (h.idle n).script depth (.perform op fun _ => .done)
    have hsame : ((Script.perform op fun _ => .done).run (Operation.run depth) w).2 = w' := by
      show ((Operation.run depth op >>= fun _ => pure ()) w).2 = w'
      rw [Action.bind_apply, hrun]
      rfl
    rwa [hsame] at hafter

/-- A call ends, and leaves the group at rest. -/
theorem AtRest.call (h : w.AtRest calm members) (hcalm : NeverPanics calm)
    (hverbatim : Verbatim E) {op : Operation E R} (hop : op.Enters members) (depth : Nat) :
    ∃ reply w', Operation.run (depth + 2) op w = (.ok reply, w') ∧ w'.AtRest calm members := by
  unfold Operation.Enters at hop
  split at hop
  · next n t =>
    obtain ⟨reply, w', hrun, -, hspread⟩ := (h.spread t).setText hcalm hverbatim hop (depth + 1)
    exact ⟨reply, w', hrun, h.of_spread hrun hspread⟩
  · next n t =>
    obtain ⟨s, hs, -⟩ := (h.mirrored n hop).live
    cases hclosed : s.state.layout.readOnly with
    | true =>
      have hignored :=
        run_typeText_readOnly hs (h.mirrored n hop).handles hclosed (depth + 1) t
      exact ⟨.done, w, hignored, h⟩
    | false =>
      obtain ⟨reply, w', hrun, -, hspread⟩ :=
        (h.spread t).typeText hcalm hverbatim hop (h.idle n) hs hclosed depth
      exact ⟨reply, w', hrun, h.of_spread hrun hspread⟩
  · exact hop.elim

theorem AtRest.calls (h : w.AtRest calm members) (hcalm : NeverPanics calm)
    (hverbatim : Verbatim E) (depth : Nat) {ops : List (Operation E R)}
    (hops : ∀ op ∈ ops, op.Enters members) :
    ∃ w', (Script.performAll ops).run (Operation.run (depth + 2)) w = (.ok (), w') ∧
      w'.AtRest calm members := by
  induction ops generalizing w with
  | nil => exact ⟨w, rfl, h⟩
  | cons op ops ih =>
    obtain ⟨hop, hops⟩ := List.forall_mem_cons.mp hops
    obtain ⟨reply, w', hrun, hrest⟩ := h.call hcalm hverbatim hop depth
    obtain ⟨w'', hruns, hrest'⟩ := ih hrest hops
    refine ⟨w'', ?_, hrest'⟩
    show (Operation.run (depth + 2) op >>= fun _ =>
      (Script.performAll ops).run (Operation.run (depth + 2))) w = _
    rw [Action.bind_apply, hrun]
    exact hruns

end World

open World

theorem mirrors_come_to_rest [EditableLayer E] [RenderLayer R] {calm : R → Prop}
    (hcalm : NeverPanics calm) (hverbatim : Verbatim E) (w : World E R) (hreachable : w.Reachable)
    (horderly : w.Orderly calm) (members : List Nat)
    (hmirrored : ∀ n ∈ members, w.Mirrored members n)
    (depth : Nat) (calls : List (Operation E R)) (hcalls : ∀ op ∈ calls, op.Enters members) :
    ∃ w', (Script.performAll calls).run (Operation.run (depth + 2)) w = (.ok (), w') ∧
      ∀ n ∈ members, ∃ s, w'.live? n = some s ∧ ∀ t,
        (∃ reply w'', Operation.run (depth + 2) (.on n (.setText t)) w' = (.ok reply, w'') ∧
          w''.notifications = w'.notifications) ∧
        (s.state.layout.readOnly = false →
          ∃ reply w'', Operation.run (depth + 2) (.on n (.typeText t)) w' = (.ok reply, w'') ∧
            (∀ k ∈ members, w''.HasText k t) ∧
            w''.notifications =
              w'.notifications ++ s.observers.zipIdx.map fun o => ⟨n, o.2, t⟩) := by
  have hstart : w.AtRest calm members := ⟨horderly, hmirrored, hreachable.idle⟩
  obtain ⟨w', hruns, hrest⟩ := hstart.calls hcalm hverbatim depth hcalls
  refine ⟨w', hruns, fun n hn => ?_⟩
  obtain ⟨s, hs, -⟩ := (hrest.mirrored n hn).live
  refine ⟨s, hs, fun t => ⟨?_, fun hopen => ?_⟩⟩
  · obtain ⟨reply, w'', hrun, hquiet, -⟩ :=
      (hrest.spread t).setText hcalm hverbatim hn (depth + 1)
    exact ⟨reply, w'', hrun, hquiet⟩
  · obtain ⟨reply, w'', hrun, htold, hspread⟩ :=
      (hrest.spread t).typeText hcalm hverbatim hn (hrest.idle n) hs hopen depth
    exact ⟨reply, w'', hrun, hspread.arrived, htold⟩

/-! ## Two mirrors that face each other

Both editable layers report every write to their surfaces, and one of the displays fails. -/

def connectMirror (n : Nat) (others : List Nat) : List (Operation Buffer Display) :=
  [.create {} {}, .on n (.connect (.edits n)), .on n (.observe (mirror others))]

def facing : Script Buffer Display :=
  .performAll (connectMirror 0 [1] ++ connectMirror 1 [0] ++
    [.on 1 (.renderLayer fun d =>
      ({ d with mode := .fails (.renderFailed "lost".toList) }, .ok ()))])

def facingWorld : World Buffer Display := (facing.run (Operation.run 2) (World.initial .light)).2

theorem exists_facingWorld_slots : ∃ s₀ s₁, facingWorld.slots =
      [{ live := some s₀, handles := 1, guests := 0, hook := some (.edits 0) },
        { live := some s₁, handles := 1, guests := 0, hook := some (.edits 1) }] ∧
    s₀.rendered.mode = .works ∧ s₁.rendered.mode = .fails (.renderFailed "lost".toList) ∧
    s₀.observers = [mirror [1]] ∧ s₁.observers = [mirror [0]] :=
  ⟨_, _, rfl, rfl, rfl, rfl, rfl⟩

theorem facingWorld_orderly : facingWorld.Orderly Display.Calm := by
  obtain ⟨s₀, s₁, hslots, hworks, hfails, -⟩ := exists_facingWorld_slots
  constructor
  · intro n handler hh
    rw [hook?, hslots] at hh
    rcases n with _ | _ | n
    · exact (Option.some.inj hh).symm
    · exact (Option.some.inj hh).symm
    · cases hh
  · intro n s hs
    rw [live?, hslots] at hs
    rcases n with _ | _ | n
    · cases hs
      exact Display.calm_of_mode hworks (by simp)
    · cases hs
      exact Display.calm_of_mode hfails (by simp)
    · cases hs

theorem facingWorld_mirrored : ∀ n ∈ [0, 1], facingWorld.Mirrored [0, 1] n := by
  obtain ⟨s₀, s₁, hslots, -, -, hobservers₀, hobservers₁⟩ := exists_facingWorld_slots
  have hs₀ : facingWorld.live? 0 = some s₀ := by rw [live?, hslots]; rfl
  have hs₁ : facingWorld.live? 1 = some s₁ := by rw [live?, hslots]; rfl
  simp only [List.forall_mem_cons]
  refine ⟨mirrored_of_observers (by decide +kernel) hs₀ hobservers₀ fun k => ?_,
    mirrored_of_observers (by decide +kernel) hs₁ hobservers₁ fun k => ?_,
    List.forall_mem_nil _⟩
  · simp
    omega
  · simp
    omega

def mirrorCalls : List (Operation Buffer Display) :=
  [.on 0 (.typeText "a".toList), .on 1 (.setText "b".toList)]

/-- One surface is typed into and the other one is set, and then that one is typed into. -/
theorem facing_mirrors_come_to_rest : ∃ w reply w',
    (Script.performAll mirrorCalls).run (Operation.run 2) facingWorld = (.ok (), w) ∧
      Operation.run 2 (.on 1 (.typeText "[1]".toList)) w = (.ok reply, w') ∧
      (∀ k ∈ [0, 1], w'.HasText k "[1]".toList) ∧
      w'.notifications = [⟨0, 0, "a".toList⟩, ⟨1, 0, "[1]".toList⟩] := by
  have hcalls : ∀ op ∈ mirrorCalls, op.Enters [0, 1] := by simp [mirrorCalls, Operation.Enters]
  obtain ⟨w, hruns, hgroup⟩ := mirrors_come_to_rest Display.neverPanics (fun _ _ => rfl)
    facingWorld ⟨.light, 2, facing, rfl⟩ facingWorld_orderly [0, 1] facingWorld_mirrored 0
    mirrorCalls hcalls
  have hw : w = ((Script.performAll mirrorCalls).run (Operation.run 2) facingWorld).2 := by
    rw [hruns]
  have hbefore : w.notifications = [⟨0, 0, "a".toList⟩] := by
    rw [hw]
    decide +kernel
  have hsecond : (w.live? 1).map (fun s => (s.state.layout.readOnly, s.observers.length)) =
      some (false, 1) := by
    rw [hw]
    decide +kernel
  obtain ⟨s, hs, htexts⟩ := hgroup 1 (by decide)
  rw [hs] at hsecond
  obtain ⟨hopen, hone⟩ := Prod.mk.inj (Option.some.inj hsecond)
  obtain ⟨body, hbody⟩ := List.length_eq_one_iff.mp hone
  obtain ⟨-, htyped⟩ := htexts "[1]".toList
  obtain ⟨reply, w', hrun, hall, htold⟩ := htyped hopen
  rw [hbefore, hbody] at htold
  exact ⟨w, reply, w', hruns, hrun, hall, htold⟩

end Surface
end QueryView
