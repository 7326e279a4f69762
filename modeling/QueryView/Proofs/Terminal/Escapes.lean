/-
Frames without escapes and with them.

Without escapes a frame is what the runs show, laid out.  Since the column goes on from one
run to the next, nothing is left in it of how the text was cut into runs, nor of colors and
weights (`plain_frame_depends_on_text_only`).

With escapes a frame is meant for a terminal.  An `Emulator` reads a frame the way a terminal
does, character by character, and keeps what it shows and in which rendition.  The main
theorem, `escapes_add_only_rendition`, says that it shows the frame without escapes, that
every character laid out for a run has the color and weight of that run, the line ends and
margins put into it included, and that the margin in front and whatever comes after the frame
have no attributes at all.  Each run ends with all attributes off, so the rendition in which a
run starts is always the same, and the runs can be looked at one by one.

The text must not hold an escape character of its own, since a terminal would take it for the
start of a sequence.
-/
import QueryView.Proofs.Terminal.Wrap
import QueryView.Terminal.Screen

namespace QueryView
namespace Terminal

/-! ## Without escapes -/

theorem showsNothing_eq_of_text_eq {runs runs' : RunSequence}
    (h : RunSequence.text runs = RunSequence.text runs') :
    RunSequence.showsNothing runs = RunSequence.showsNothing runs' := by
  rw [Bool.eq_iff_iff, RunSequence.showsNothing_iff, RunSequence.showsNothing_iff, h]

theorem flatMap_paint_plain (r : Ruler) (column : Nat) (runs : RunSequence) :
    (r.layOutRuns column runs).flatMap (paint false) =
      (r.layOut column (RunSequence.text runs)).1 :=
  r.text_layOutRuns column runs

theorem frame_eq_of_text_eq {runs runs' : RunSequence}
    (h : RunSequence.text runs = RunSequence.text runs') (wrapWidth : Nat) (layout : Layout) :
    frame false wrapWidth layout runs = frame false wrapWidth layout runs' := by
  simp only [frame, showsNothing_eq_of_text_eq h, flatMap_paint_plain, h]

/-- Two sequences of runs with the same text are rendered alike: the frame, what reaches the
sink and the result are the same. -/
theorem plain_frame_depends_on_text_only (s : Screen) (hplain : s.escapes = false)
    (runs runs' : RunSequence) (h : RunSequence.text runs = RunSequence.text runs') :
    s.render runs = s.render runs' := by
  have hframe : frame s.escapes s.wrapWidth s.layout runs =
      frame s.escapes s.wrapWidth s.layout runs' := by
    rw [hplain, frame_eq_of_text_eq h]
  rw [Screen.render, Screen.render, hframe]

/-- Wide characters and a mark without a width, in one run and cut up with an empty run in
between, on a screen of four columns with a margin of one. -/
theorem wide_text_is_shown_alike_however_it_is_cut :
    let s : Screen :=
      { escapes := false, wrapWidth := 4, layout := { Layout.standard with padding := 1 } }
    let whole : RunSequence := [⟨"日本e\u0301!".toList, Color.black, false⟩]
    let cut : RunSequence := [⟨"日".toList, Color.white, true⟩, ⟨[], Color.black, false⟩,
      ⟨"本e".toList, Color.black, true⟩, ⟨"\u0301!".toList, Color.white, false⟩]
    whole ≠ cut ∧ s.render whole = s.render cut :=
  ⟨by decide, plain_frame_depends_on_text_only _ rfl _ _ (by decide)⟩

/-! ## A terminal that reads a frame -/

/-- How a terminal draws a character.  Without a color it is drawn in the terminal's own. -/
structure Rendition where
  color : Option Color
  bold : Bool
  dim : Bool
  deriving DecidableEq

namespace Rendition

/-- All attributes are off. -/
def off : Rendition := ⟨none, false, false⟩

/-- The color and the weight of a run. -/
def ofRun (run : Run) : Rendition := ⟨some run.color, run.bold, false⟩

/-- Carries out the parameters of a selection of attributes.  A terminal that meets a
parameter it does not know leaves the rest alone. -/
def select : List Nat → Rendition → Rendition
  | 0 :: ps, _ => select ps off
  | 1 :: ps, r => select ps { r with bold := true }
  | 2 :: ps, r => select ps { r with dim := true }
  | 22 :: ps, r => select ps { r with bold := false, dim := false }
  | 38 :: 2 :: red :: green :: blue :: ps, r =>
    select ps { r with color := some ⟨UInt8.ofNat red, UInt8.ofNat green, UInt8.ofNat blue⟩ }
  | _, r => r

end Rendition

/-- Where a terminal is in what it reads. -/
inductive Phase where
  | characters
  /-- An escape character was read. -/
  | escape
  /-- Within a sequence, with these parameters read, the last of them up to some digit. -/
  | parameters (before : List Nat) (last : Nat)
  deriving DecidableEq

structure Emulator where
  phase : Phase := .characters
  rendition : Rendition := .off
  /-- What is shown, each character in its rendition. -/
  shown : List (Char × Rendition) := []

namespace Emulator

/-- Reads one character.  A sequence that does not select attributes shows nothing. -/
def read (e : Emulator) (c : Char) : Emulator :=
  match e.phase with
  | .characters =>
    if c = '\x1b' then { e with phase := .escape }
    else { e with shown := e.shown ++ [(c, e.rendition)] }
  | .escape => { e with phase := if c = '[' then .parameters [] 0 else .characters }
  | .parameters before last =>
    if c.isDigit then { e with phase := .parameters before (10 * last + (c.toNat - '0'.toNat)) }
    else if c = ';' then { e with phase := .parameters (before ++ [last]) 0 }
    else if c = 'm' then
      { e with phase := .characters, rendition := e.rendition.select (before ++ [last]) }
    else { e with phase := .characters }

def readAll (e : Emulator) (t : Text) : Emulator := t.foldl read e

variable {r : Rendition} {shown : List (Char × Rendition)}

theorem readAll_append (e : Emulator) (t u : Text) :
    e.readAll (t ++ u) = (e.readAll t).readAll u := List.foldl_append

/-- Characters that are no escape are shown as they are. -/
theorem readAll_of_not_mem {t : Text} (ht : '\x1b' ∉ t) :
    readAll ⟨.characters, r, shown⟩ t =
      ⟨.characters, r, shown ++ t.map fun c => (c, r)⟩ := by
  induction t generalizing shown with
  | nil => rw [List.map_nil, List.append_nil, readAll, List.foldl_nil]
  | cons c t ih =>
    rw [List.mem_cons, not_or] at ht
    have hread : read ⟨.characters, r, shown⟩ c = ⟨.characters, r, shown ++ [(c, r)]⟩ :=
      if_neg (Ne.symm ht.1)
    show readAll (read ⟨.characters, r, shown⟩ c) t = _
    rw [hread, ih ht.2, List.append_assoc, List.singleton_append, List.map_cons]

/-! ## Selections of attributes -/

theorem readAll_digits {digits : Text} (hdigits : ∀ c ∈ digits, c.isDigit = true)
    (before : List Nat) (last : Nat) :
    readAll ⟨.parameters before last, r, shown⟩ digits =
      ⟨.parameters before (Nat.ofDigitChars 10 digits last), r, shown⟩ := by
  induction digits generalizing last with
  | nil => rfl
  | cons c digits ih =>
    have hread : read ⟨.parameters before last, r, shown⟩ c =
        ⟨.parameters before (10 * last + (c.toNat - '0'.toNat)), r, shown⟩ :=
      if_pos (hdigits c List.mem_cons_self)
    show readAll (read ⟨.parameters before last, r, shown⟩ c) digits = _
    rw [hread, ih fun d hd => hdigits d (List.mem_cons_of_mem c hd)]
    rfl

theorem readAll_ofNat (before : List Nat) (n : Nat) :
    readAll ⟨.parameters before 0, r, shown⟩ (Text.ofNat n) = ⟨.parameters before n, r, shown⟩ := by
  have hdigits : ∀ c ∈ Text.ofNat n, c.isDigit = true := fun c hc =>
    Nat.isDigit_of_mem_toDigits (by decide) (by decide) hc
  rw [readAll_digits hdigits, Text.ofNat, Nat.ofDigitChars_toDigits (by decide) (by decide)]

/-- Parameters are read up to the letter that ends them, and then carried out. -/
theorem readAll_parameters (before : List Nat) (p : Nat) (ps : List Nat) :
    readAll ⟨.parameters before 0, r, shown⟩
        ((((p :: ps).map Text.ofNat).intersperse [';']).flatten ++ ['m']) =
      ⟨.characters, r.select (before ++ p :: ps), shown⟩ := by
  induction ps generalizing before p with
  | nil =>
    show readAll _ ((Text.ofNat p ++ []) ++ ['m']) = _
    rw [List.append_nil, readAll_append, readAll_ofNat]
    rfl
  | cons q ps ih =>
    show readAll _ ((Text.ofNat p ++ ([';'] ++
      (((q :: ps).map Text.ofNat).intersperse [';']).flatten)) ++ ['m']) = _
    have hnext : readAll ⟨.parameters before p, r, shown⟩ [';'] =
        ⟨.parameters (before ++ [p]) 0, r, shown⟩ := rfl
    rw [List.append_assoc, List.append_assoc, readAll_append, readAll_ofNat, readAll_append,
      hnext, ih, List.append_assoc, List.singleton_append]

theorem readAll_selectAttributes (p : Nat) (ps : List Nat) :
    readAll ⟨.characters, r, shown⟩ (selectAttributes (p :: ps)) =
      ⟨.characters, r.select (p :: ps), shown⟩ :=
  readAll_parameters [] p ps

theorem readAll_selectColor (c : Color) :
    readAll ⟨.characters, r, shown⟩ (selectColor c) =
      ⟨.characters, { r with color := some c }, shown⟩ := by
  rw [selectColor, readAll_selectAttributes]
  simp only [Rendition.select, UInt8.ofNat_toNat]

theorem readAll_resetAttributes :
    readAll ⟨.characters, r, shown⟩ resetAttributes = ⟨.characters, .off, shown⟩ :=
  readAll_selectAttributes 0 []

/-! ## Painted runs -/

/-- A run leaves the attributes off, as it finds them. -/
theorem readAll_paint {run : Run} (hrun : '\x1b' ∉ run.text) :
    readAll ⟨.characters, .off, shown⟩ (paint true run) =
      ⟨.characters, .off, shown ++ run.text.map fun c => (c, .ofRun run)⟩ := by
  have hweight : readAll ⟨.characters, { Rendition.off with color := some run.color }, shown⟩
      (if run.bold then selectBold else []) = ⟨.characters, .ofRun run, shown⟩ := by
    rw [Rendition.ofRun]
    cases run.bold with
    | false => rfl
    | true => exact readAll_selectAttributes 1 []
  rw [paint, if_pos rfl, readAll_append, readAll_selectColor, readAll_append, hweight,
    readAll_append, readAll_of_not_mem hrun, readAll_append, readAll_resetAttributes,
    readAll_resetAttributes]

theorem readAll_runs {runs : RunSequence} (hruns : '\x1b' ∉ RunSequence.text runs) :
    readAll ⟨.characters, .off, shown⟩ (runs.flatMap (paint true)) =
      ⟨.characters, .off,
        shown ++ runs.flatMap fun run => run.text.map fun c => (c, .ofRun run)⟩ := by
  induction runs generalizing shown with
  | nil => rw [List.flatMap_nil, List.flatMap_nil, List.append_nil, readAll, List.foldl_nil]
  | cons run runs ih =>
    rw [RunSequence.text_cons, List.mem_append, not_or] at hruns
    rw [List.flatMap_cons, readAll_append, readAll_paint hruns.1, ih hruns.2,
      List.flatMap_cons, List.append_assoc]

end Emulator

/-! ## With escapes -/

/-- Laying out puts nothing but line ends and margins into a text. -/
theorem Ruler.not_mem_layOut {r : Ruler} {c : Char} {t : Text} (ht : c ∉ t) (hline : c ≠ '\n')
    (hmargin : c ∉ r.margin) (column : Nat) : c ∉ (r.layOut column t).1 := by
  induction t generalizing column with
  | nil => exact List.not_mem_nil
  | cons d t ih =>
    rw [List.mem_cons, not_or] at ht
    have hplace : c ∉ (r.place column d).1 := by
      rw [place]
      split
      · simp [newLine, hline, hmargin]
      · split <;> simp [newLine, hline, hmargin, ht.1]
    rw [layOut, List.mem_append, not_or]
    exact ⟨hplace, ih ht.2 _⟩

/-- Runs are laid out one by one, each in its own color and weight. -/
theorem Ruler.renditions_layOutRuns (r : Ruler) (column : Nat) (runs : RunSequence) :
    (r.layOutRuns column runs).map Rendition.ofRun = runs.map Rendition.ofRun := by
  induction runs generalizing column with
  | nil => rfl
  | cons run runs ih =>
    rw [layOutRuns, List.map_cons, List.map_cons, ih]
    rfl

theorem escape_not_mem_margin (wrapWidth : Nat) (layout : Layout) :
    '\x1b' ∉ (Ruler.ofLayout wrapWidth layout).margin := by
  intro hmem
  exact absurd (List.eq_of_mem_replicate hmem) (by decide)

theorem frame_of_shown {runs : RunSequence} (h : RunSequence.text runs ≠ []) (escapes : Bool)
    (wrapWidth : Nat) (layout : Layout) :
    frame escapes wrapWidth layout runs = (Ruler.ofLayout wrapWidth layout).margin ++
      ((Ruler.ofLayout wrapWidth layout).layOutRuns 0 runs).flatMap (paint escapes) := by
  rw [frame, if_neg (mt (RunSequence.showsNothing_iff runs).mp h)]

theorem Screen.frame_render (s : Screen) (runs : RunSequence) :
    (s.render runs).2.frame = Terminal.frame s.escapes s.wrapWidth s.layout runs := by
  rw [render]
  split
  · rw [present]
    split
    · rfl
    · split <;> rfl
  · rfl

theorem escapes_add_only_rendition (s : Screen) (runs : RunSequence)
    (hshown : RunSequence.text runs ≠ []) (hplain : '\x1b' ∉ RunSequence.text runs) :
    let ruler := Ruler.ofLayout s.wrapWidth s.layout
    let seen := Emulator.readAll {} ({ s with escapes := true }.render runs).2.frame
    seen.shown.map Prod.fst = ({ s with escapes := false }.render runs).2.frame ∧
      seen.shown = (ruler.margin.map fun c => (c, .off)) ++
        (ruler.layOutRuns 0 runs).flatMap (fun run => run.text.map fun c => (c, .ofRun run)) ∧
      (ruler.layOutRuns 0 runs).map Rendition.ofRun = runs.map Rendition.ofRun ∧
      seen.phase = .characters ∧ seen.rendition = .off := by
  intro ruler seen
  have hmargin : '\x1b' ∉ ruler.margin := escape_not_mem_margin _ _
  have hruns : '\x1b' ∉ RunSequence.text (ruler.layOutRuns 0 runs) := by
    rw [ruler.text_layOutRuns]
    exact Ruler.not_mem_layOut hplain (by decide) hmargin 0
  have hread : seen = { shown := (ruler.margin.map fun c => (c, .off)) ++
      (ruler.layOutRuns 0 runs).flatMap (fun run => run.text.map fun c => (c, .ofRun run)) } := by
    show Emulator.readAll {} ({ s with escapes := true }.render runs).2.frame = _
    rw [Screen.frame_render, frame_of_shown hshown, Emulator.readAll_append,
      Emulator.readAll_of_not_mem hmargin, Emulator.readAll_runs hruns]
    rfl
  refine ⟨?_, by rw [hread], ruler.renditions_layOutRuns 0 runs, by rw [hread], by rw [hread]⟩
  have hpaint : paint false = Run.text := funext fun _ => rfl
  rw [hread, Screen.frame_render, frame_of_shown hshown, hpaint]
  simp [ruler, List.map_flatMap, Function.comp_def]

/-- Two columns beside a margin of one: the second run does not fit, and the break and the
margin in front of it are drawn in its color. -/
theorem break_is_drawn_as_the_run_that_did_not_fit :
    let s : Screen := { wrapWidth := 3, layout := { Layout.standard with padding := 1 } }
    let runs : RunSequence := [⟨"if".toList, Color.white, true⟩, ⟨"1".toList, Color.black, false⟩]
    RunSequence.text runs ≠ [] ∧ '\x1b' ∉ RunSequence.text runs ∧
      (Emulator.readAll {} ({ s with escapes := true }.render runs).2.frame).shown =
        [(' ', ⟨none, false, false⟩), ('i', ⟨some Color.white, true, false⟩),
          ('f', ⟨some Color.white, true, false⟩), ('\n', ⟨some Color.black, false, false⟩),
          (' ', ⟨some Color.black, false, false⟩), ('1', ⟨some Color.black, false, false⟩)] := by
  intro s runs
  have hshown : RunSequence.text runs ≠ [] := by decide
  have hplain : '\x1b' ∉ RunSequence.text runs := by decide
  obtain ⟨-, hseen, -⟩ := escapes_add_only_rendition s runs hshown hplain
  exact ⟨hshown, hplain, hseen.trans (by decide)⟩

end Terminal
end QueryView
