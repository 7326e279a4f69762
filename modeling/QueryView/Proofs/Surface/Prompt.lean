/-
When a placeholder is seen.

A surface over a screen shows its placeholder, if it has one, when it has no text, and its text
otherwise.  What the screen decides by is whether the runs show anything.  They do unless the text
is empty, in every language (`Highlighter.text_highlight_eq_nil_iff`); and at the end of every
operation the frame of the screen is made of the runs and the layout of the state as they are then
(`Displays`), so that it does not lag behind any change of the text, the language or the
placeholder.  This holds whether or not the frame could be written out, since the frame is
replaced before that.

A text can look like the placeholder.  With escapes it does not: the placeholder is dim, and a
run begins with its color.  Without them the placeholder line is also the frame of a text that is
laid out as the placeholder reads, and of no other (`Terminal.frame_eq_placeholderLine_iff`).

What the embedder does to a screen behind the surface's back must leave its frame and its
settings (`Operation.LeavesScreens`); writing the frame out does.
-/
import QueryView.Proofs.Highlighter
import QueryView.Proofs.Surface.Lasting
import QueryView.Proofs.Terminal.Cutoff
import QueryView.Proofs.Terminal.Lines
import QueryView.Surface.Buffer
import QueryView.Surface.Screen

namespace QueryView

/-! ## Placeholders and texts -/

namespace Terminal

/-- The frame of runs that show something, without the margin of its first line. -/
def body (escapes : Bool) (r : Ruler) (runs : RunSequence) : Text :=
  (r.layOutRuns 0 runs).flatMap (paint escapes)

theorem frame_of_empty {runs : RunSequence} {layout : Layout} {placeholder : Text}
    (hempty : RunSequence.text runs = []) (hplaceholder : layout.placeholder = some placeholder)
    (escapes : Bool) (wrapWidth : Nat) :
    frame escapes wrapWidth layout runs =
      placeholderLine escapes (Ruler.ofLayout wrapWidth layout).margin placeholder := by
  rw [frame, if_pos ((RunSequence.showsNothing_iff runs).mpr hempty), hplaceholder]

/-- What is painted begins with the color of a run, and the placeholder is dim. -/
theorem margin_append_body_ne {runs : RunSequence} (hruns : runs ≠ []) (r : Ruler)
    (hmargin : ∃ n, r.margin = List.replicate n ' ') (placeholder : Text) :
    r.margin ++ body true r runs ≠ placeholderLine true r.margin placeholder := by
  obtain ⟨n, hn⟩ := hmargin
  intro heq
  cases n with
  | succ n =>
    rw [hn, List.replicate_succ, List.cons_append] at heq
    cases congrArg List.head? heq
  | zero =>
    obtain ⟨run, runs, rfl⟩ := List.exists_cons_of_ne_nil hruns
    rw [hn] at heq
    have hthird := congrArg (fun t : Text => t[2]?) heq
    cases hthird

theorem frame_eq_placeholderLine_iff {runs : RunSequence} {layout : Layout} {placeholder : Text}
    (hplaceholder : layout.placeholder = some placeholder) (escapes : Bool) (wrapWidth : Nat) :
    frame escapes wrapWidth layout runs =
        placeholderLine escapes (Ruler.ofLayout wrapWidth layout).margin placeholder ↔
      RunSequence.text runs = [] ∨ escapes = false ∧
        ((Ruler.ofLayout wrapWidth layout).layOut 0 (RunSequence.text runs)).1 = placeholder := by
  by_cases hshown : RunSequence.text runs = []
  · simp [hshown, frame_of_empty hshown hplaceholder]
  · rw [frame_of_shown hshown, or_iff_right hshown]
    cases escapes with
    | true =>
      have hruns : runs ≠ [] := by
        rintro rfl
        exact hshown rfl
      exact iff_of_false (margin_append_body_ne hruns _ ⟨layout.padding, rfl⟩ placeholder) nofun
    | false =>
      rw [flatMap_paint_plain]
      show _ ++ _ = _ ++ placeholder ↔ _
      rw [List.append_cancel_left_eq]
      simp

end Terminal

namespace Surface

open Terminal

variable {E : Type}

/-! ## Frames and states -/

/-- What is done to the screen behind the surface's back leaves its frame and its settings. -/
def Operation.LeavesScreens : Operation E Screen → Prop
  | .on _ (.renderLayer change) => ∀ screen, (change screen).1.frame = screen.frame ∧
      (change screen).1.layout = screen.layout ∧ (change screen).1.escapes = screen.escapes ∧
      (change screen).1.wrapWidth = screen.wrapWidth
  | _ => True

theorem present_leaves_screen (screen : Screen) : screen.present.2.frame = screen.frame ∧
    screen.present.2.layout = screen.layout ∧ screen.present.2.escapes = screen.escapes ∧
    screen.present.2.wrapWidth = screen.wrapWidth := by
  obtain ⟨sink, hsink⟩ := screen.present_keeps
  rw [hsink]
  exact ⟨rfl, rfl, rfl, rfl⟩

/-- The frame is that of the runs and the layout of the state. -/
structure Displays (s : Live E Screen) : Prop where
  layout : s.rendered.layout = s.state.layout
  frame : s.rendered.frame =
    Terminal.frame s.rendered.escapes s.rendered.wrapWidth s.state.layout s.state.runs

/-- The screen shows the placeholder if there is no text, and the text otherwise. -/
structure Prompts (s : Live E Screen) (placeholder : Text) : Prop where
  empty : s.state.text = [] → s.rendered.frame = placeholderLine s.rendered.escapes
    (Ruler.ofLayout s.rendered.wrapWidth s.state.layout).margin placeholder
  shown : s.state.text ≠ [] →
    let ruler := Ruler.ofLayout s.rendered.wrapWidth s.state.layout
    s.rendered.frame = ruler.margin ++ body s.rendered.escapes ruler s.state.runs
  only :
    let ruler := Ruler.ofLayout s.rendered.wrapWidth s.state.layout
    s.rendered.frame = placeholderLine s.rendered.escapes ruler.margin placeholder ↔
      s.state.text = [] ∨ s.rendered.escapes = false ∧
        (ruler.layOut 0 (Highlighter.shown s.state.text s.state.language)).1 = placeholder

/-- Every surface that has a placeholder shows it when it has no text, and its text otherwise. -/
def World.Prompting (w : World E Screen) : Prop :=
  ∀ n s placeholder, w.live? n = some s → s.state.layout.placeholder = some placeholder →
    Prompts s placeholder

theorem text_runs_eq_nil_iff (state : State) : RunSequence.text state.runs = [] ↔ state.text = [] :=
  Highlighter.text_highlight_eq_nil_iff state.highlighter

theorem Displays.prompts {s : Live E Screen} (h : Displays s) {placeholder : Text}
    (hplaceholder : s.state.layout.placeholder = some placeholder) : Prompts s placeholder where
  empty := fun hempty =>
    h.frame.trans (frame_of_empty ((text_runs_eq_nil_iff s.state).mpr hempty) hplaceholder _ _)
  shown := fun hsome =>
    h.frame.trans (frame_of_shown (mt (text_runs_eq_nil_iff s.state).mp hsome) _ _ _)
  only := by
    intro ruler
    have htext : RunSequence.text s.state.runs =
        Highlighter.shown s.state.text s.state.language := Highlighter.text_highlight ..
    rw [h.frame, frame_eq_placeholderLine_iff hplaceholder, text_runs_eq_nil_iff, htext]

theorem displays_rendering {s : Live E Screen} (hlayout : s.rendered.layout = s.state.layout) :
    Displays (World.rendering s) := by
  obtain ⟨sink, hsink⟩ := s.rendered.perform_keeps (.render s.state.runs)
  have hrendered : (World.rendering s).rendered = { s.rendered.showing s.state.runs with sink } :=
    hsink
  constructor
  · rw [hrendered]
    exact hlayout
  · rw [hrendered, ← show s.rendered.layout = (World.rendering s).state.layout from hlayout]
    rfl

variable [EditableLayer E]

theorem lasting_displays :
    Lasting (Operation.LeavesScreens (E := E)) 0 fun _ _ s => Displays s where
  aside := fun _ _ _ _ _ _ hs => ⟨hs.layout, hs.frame⟩
  written := fun _ _ _ _ _ hs => ⟨hs.layout, hs.frame⟩
  drawn := fun _ _ s change hleaves hs => by
    obtain ⟨hframe, hlayout, hescapes, hwidth⟩ := hleaves s.rendered
    exact ⟨hlayout.trans hs.layout, by rw [hframe, hescapes, hwidth]; exact hs.frame⟩
  shown := fun _ _ _ _ hlayout hs => displays_rendering (hs.layout.trans hlayout.symm)
  laidOut := fun _ _ _ _ _ _ _ _ => displays_rendering rfl
  created := fun _ _ _ _ _ => displays_rendering rfl

/-! ## Runs -/

omit [EditableLayer E] in
theorem prompting_of_every {w : World E Screen} (h : w.Every 0 fun _ _ s => Displays s) :
    w.Prompting :=
  fun n s _ hs hplaceholder => (h.surface n s hs).prompts hplaceholder

/-- In every world in which an operation of a run ends, a nested one or not, surfaces show their
placeholders if they have no text, and else their texts. -/
theorem prompting_of_lookedAt {theme : Theme} {depth : Nat} {program : Script E Screen}
    (hprogram : program.Throughout Operation.LeavesScreens) {w : World E Screen}
    (h : Action.LookedAt (fun watch => program.run (Operation.watched (watch ()) depth))
      (program.run (Operation.run depth)) (World.initial theme) () w) : w.Prompting :=
  h.holds (Q := fun _ => World.Prompting) fun watch hwatch =>
    Operation.run_watched_of_lasting lasting_displays theme depth program hprogram (watch ())
      fun w hw => hwatch () w (prompting_of_every hw)

/-- The runs of a text show nothing if and only if the text is empty, and of several runs none
shows nothing.  So a surface over a screen shows its placeholder whenever it has no text, and else
its text, at the end of every operation. -/
theorem placeholder_is_seen_without_text :
    (∀ (h : Highlighter) (t : Text) (l : Language),
      (RunSequence.text (h.highlight t l) = [] ↔ t = []) ∧
        ∀ run ∈ h.highlight t l, run.text = [] → t = [] ∧ l ≠ .query) ∧
    ∀ (theme : Theme) (depth : Nat) (program : Script E Screen),
      program.Throughout Operation.LeavesScreens →
      (∀ watch : World E Screen → World E Screen, (∀ w, w.Prompting → watch w = w) →
        program.run (Operation.watched watch depth) (World.initial theme) =
          program.run (Operation.run depth) (World.initial theme)) ∧
      (program.run (Operation.run depth) (World.initial theme)).2.Prompting := by
  constructor
  · exact fun h t l => ⟨h.text_highlight_eq_nil_iff, fun _ => Highlighter.eq_nil_of_empty_run⟩
  · intro theme depth program hprogram
    constructor
    · exact fun watch hwatch => Operation.run_watched_of_lasting lasting_displays
        theme depth program hprogram watch fun w hw => hwatch w (prompting_of_every hw)
    · exact prompting_of_every
        (Operation.every_of_program lasting_displays theme depth program hprogram)

/-- A text that reads like the placeholder, on a screen without escapes. -/
def lookalike : Script Buffer Screen :=
  .perform (.create {} { escapes := false }) fun _ =>
  .perform (.on 0 (.changeLayout (.placeholder (some "-".toList)))) fun _ =>
  .perform (.on 0 (.setText "-".toList)) fun _ => .done

/-- The text is shown, and its frame is that of the placeholder. -/
theorem text_is_seen_as_placeholder :
    let w := (lookalike.run (Operation.run 2) (World.initial .light)).2
    ∃ s, w.live? 0 = some s ∧ w.lastOutcome? 0 = some .shown ∧
      s.state.layout.placeholder = some "-".toList ∧ s.state.text ≠ [] ∧
      s.rendered.frame = placeholderLine s.rendered.escapes
        (Ruler.ofLayout s.rendered.wrapWidth s.state.layout).margin "-".toList := by
  intro w
  have hseen : (w.live? 0).map (fun s => (s.state.layout.placeholder, s.state.text,
      decide (s.rendered.frame = placeholderLine s.rendered.escapes
        (Ruler.ofLayout s.rendered.wrapWidth s.state.layout).margin "-".toList))) =
      some (some "-".toList, "-".toList, true) := by decide +kernel
  obtain ⟨s, hs, h⟩ := Option.map_eq_some_iff.mp hseen
  simp only [Prod.mk.injEq, decide_eq_true_eq] at h
  obtain ⟨hplaceholder, htext, hframe⟩ := h
  exact ⟨s, hs, by decide +kernel, hplaceholder, by rw [htext]; decide, hframe⟩

/-! ## A screen with a placeholder

A surface over a screen with escapes, whose sink is full from the start.  It gets a placeholder,
a text, no text, and another language. -/

def promptingScreen : Script Buffer Screen :=
  .perform (.create {} { autoPresent := false, sink := { limit := some 0 } }) fun _ =>
  .perform (.on 0 (.changeLayout (.placeholder (some "-".toList)))) fun _ =>
  .perform (.on 0 (.observe fun t =>
    .perform (.on 0 (.setLanguage (if t = [] then .json else .query))) fun _ => .done)) fun _ =>
  .perform (.on 0 (.typeText "1".toList)) fun _ =>
  .perform (.on 0 (.typeText [])) fun _ =>
  .perform (.on 0 (.renderLayer fun screen => (screen.present.2, screen.present.1))) fun _ => .done

def promptingWorld : World Buffer Screen :=
  (promptingScreen.run (Operation.run 3) (World.initial .light)).2

/-- Without a text the placeholder is on the screen, dim and after the margin. -/
theorem screen_without_text_prompts :
    promptingWorld.Prompting ∧
      (promptingWorld.live? 0).map (fun s => (s.state.text, s.state.language)) = some ([], .json) ∧
      (promptingWorld.live? 0).map (fun s => s.rendered.frame) =
        some "\x1b[2m    -\x1b[22m".toList := by
  have hprogram : promptingScreen.Throughout Operation.LeavesScreens := by
    simp [promptingScreen, Script.Throughout, Operation.Throughout, Request.Throughout,
      Operation.LeavesScreens, present_leaves_screen]
  obtain ⟨-, hruns⟩ := placeholder_is_seen_without_text (E := Buffer)
  exact ⟨(hruns .light 3 promptingScreen hprogram).2, by decide +kernel, by decide +kernel⟩

end Surface
end QueryView
