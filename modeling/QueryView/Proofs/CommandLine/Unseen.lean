/-
Settings that are not seen in a pipe.

What comes out of a pipe is one line end after `pipedFrame`: the text that is shown of the input
in the chosen language, laid out without a margin for the chosen width, or the placeholder if
nothing is shown.  Nothing else of the options and the settings is in this description, so two
runs that agree in input, language, width and placeholder have the same outcome, byte for byte
(`pipe_shows_width_and_placeholder_only`).  Themes and colors are chosen, stored in the surface
and used to highlight the text, but only the runs know of them.  Padding is taken back before the
surface is laid out, and that the surface is read-only keeps its user from typing and nobody from
setting the text.

Settings that cannot be read are no settings, to a pipe and to a terminal.
-/
import QueryView.Proofs.CommandLine.Pipe
import QueryView.Proofs.CommandLine.Session

namespace QueryView
namespace CommandLine

open Highlighter (shown)
open Terminal (Ruler)

/-! ## Frames in a pipe -/

/-- What is seen in a pipe of a text that is shown, but for the line end after it. -/
def pipedFrame (width : Nat) (placeholder : Option Text) (t : Text) : Text :=
  if t = [] then placeholder.getD [] else (Ruler.layOut ⟨[], width⟩ 0 t).1

/-- Without anything to show, the frame is the placeholder. -/
theorem frame_of_nothing {width : Nat} {layout : Layout} {runs : RunSequence}
    (hpadding : layout.padding = 0) (hnothing : RunSequence.text runs = []) :
    Terminal.frame false width layout runs = layout.placeholder.getD [] := by
  have hmargin : (Ruler.ofLayout width layout).margin = [] := by rw [Ruler.ofLayout, hpadding]; rfl
  rw [Terminal.frame, if_pos ((RunSequence.showsNothing_iff runs).mpr hnothing)]
  cases layout.placeholder with
  | none => rfl
  | some placeholder =>
    show (Ruler.ofLayout width layout).margin ++ placeholder = placeholder
    rw [hmargin, List.nil_append]

theorem frameOf_eq_pipedFrame (s : Settings) (o : Options) (t : Text) :
    frameOf s o false t = pipedFrame (chosenWidth s o) s.layout.placeholder
      (shown (Text.dropFinalNewlines t) (chosenLanguage o)) := by
  by_cases hshown : shown (Text.dropFinalNewlines t) (chosenLanguage o) = []
  · have htext := Highlighter.text_highlight (chosenHighlighter s o) (Text.dropFinalNewlines t)
      (chosenLanguage o)
    rw [pipedFrame, if_pos hshown]
    exact frame_of_nothing rfl (htext.trans hshown)
  · rw [pipedFrame, if_neg hshown]
    exact frameOf_eq o (.inr hshown)

/-! ## Runs in a pipe -/

/-- Arguments that can be read ask for no information, since a request for it is no option. -/
theorem information?_of_read {args : List Text} {o : Options} (h : Options.read args = .ok o) :
    information? args = none := by
  cases args with
  | nil => rfl
  | cons arg rest =>
    have hknown : Argument.ofText arg ≠ .unknown := by
      intro hunknown
      rw [Options.read, Options.readFrom.eq_def] at h
      simp only [hunknown] at h
      cases h
    have hne (request : Text) (hrequest : Argument.ofText request = .unknown) : arg ≠ request := by
      rintro rfl
      exact hknown hrequest
    have hhelp : ¬ (arg = "--help".toList ∨ arg = "-h".toList) :=
      not_or.mpr ⟨hne _ (by decide), hne _ (by decide)⟩
    have hversion : ¬ (arg = "--version".toList ∨ arg = "-V".toList) :=
      not_or.mpr ⟨hne _ (by decide), hne _ (by decide)⟩
    rw [information?, if_neg hhelp, if_neg hversion]

/-- The outcome in a pipe, from what the options and the settings say of language, width and
placeholder. -/
theorem run_eq_pipedFrame {around : Surroundings} {args : List Text} {o : Options} {t : Text}
    (hpipe : around.onTerminal = false) (hargs : Options.read args = .ok o)
    (htext : inputText around o = .ok t) :
    let s := Settings.load around.settingsFile
    run around args = ⟨0, pipedFrame (chosenWidth s o) s.layout.placeholder
      (shown (Text.dropFinalNewlines t) (chosenLanguage o)) ++ ['\n'], none⟩ := by
  intro s
  rw [run, information?_of_read hargs]
  simp only [show?, hargs, htext, hpipe, frameOf_eq_pipedFrame]
  rfl

/-! ## Settings that cannot be read -/

/-- The surroundings without a settings file. -/
def Surroundings.withoutSettings (around : Surroundings) : Surroundings :=
  { around with settingsFile := .error .notFound }

theorem load_of_unreadable {file : Except DeviceFailure (List UInt8)} {failure : Failure}
    (h : Settings.ofFile file = .error failure) : Settings.load file = Settings.standard := by
  rw [Settings.load, Settings.loadWith, ← Settings.ofFile, h]

theorem run_withoutSettings {around : Surroundings} {failure : Failure}
    (h : Settings.ofFile around.settingsFile = .error failure) (args : List Text) :
    run around args = run around.withoutSettings args := by
  have hnone : Settings.ofFile around.withoutSettings.settingsFile =
      .error (.device .notFound) := rfl
  have hload : Settings.load around.settingsFile =
      Settings.load around.withoutSettings.settingsFile :=
    (load_of_unreadable h).trans (load_of_unreadable hnone).symm
  have hshow : show? around args = show? around.withoutSettings args := by
    rw [show?, show?, hload]
    rfl
  rw [run, run, hshow]

/-- In a pipe, two runs with the same text, language, width and placeholder have the same
outcome and put out the same bytes, whatever else their options and settings are.  With settings
that cannot be read the program does what it does without settings. -/
theorem pipe_shows_width_and_placeholder_only :
    (∀ (around around' : Surroundings) (args args' : List Text) (o o' : Options) (t : Text),
      around.onTerminal = false → around'.onTerminal = false →
      Options.read args = .ok o → Options.read args' = .ok o' →
      inputText around o = .ok t → inputText around' o' = .ok t →
      chosenLanguage o = chosenLanguage o' →
      chosenWidth (Settings.load around.settingsFile) o =
        chosenWidth (Settings.load around'.settingsFile) o' →
      (Settings.load around.settingsFile).layout.placeholder =
        (Settings.load around'.settingsFile).layout.placeholder →
      run around args = run around' args' ∧ perform around args = perform around' args') ∧
    ∀ (around : Surroundings) (args : List Text) (failure : Failure),
      Settings.ofFile around.settingsFile = .error failure →
      run around args = run around.withoutSettings args ∧
        perform around args = perform around.withoutSettings args := by
  constructor
  · intro around around' args args' o o' t hpipe hpipe' hargs hargs' htext htext' hlanguage hwidth
      hplaceholder
    have hrun : run around args = run around' args' := by
      rw [run_eq_pipedFrame hpipe hargs htext, run_eq_pipedFrame hpipe' hargs' htext', hlanguage,
        hwidth, hplaceholder]
    exact ⟨hrun, by rw [perform_eq_run, perform_eq_run, hrun]⟩
  · intro around args failure hsettings
    have hrun := run_withoutSettings hsettings args
    exact ⟨hrun, by rw [perform_eq_run, perform_eq_run, hrun]⟩

/-! ## Two pipes

One has its width from its settings and the other from its options.  Apart from that they have
only the placeholder in common, which is not shown. -/

def darkSettings : Text :=
  "theme = \"dark\"\nwrap-width = 4\n[editor]\npadding = 2\nplaceholder = \"-\"\n".toList

def plainSettings : Text := "[editor]\nplaceholder = \"-\"\n".toList

/-- A pipe with a text, if there is a settings file. -/
def pipeWith (settings : Option Text) : Surroundings where
  settingsFile := (settings.map Text.utf8).elim (.error .notFound) .ok
  files _ := .error .notFound
  standardInput := Text.utf8 "abcdef\n".toList
  onTerminal := false

/-- The text is broken after four columns by both, in no color, and settings that end in the
middle of a list break nothing. -/
theorem two_pipes_show_the_same :
    (let args := ["--plain".toList]
      let args' := ["--plain".toList, "-w".toList, "4".toList, "--light".toList]
      run (pipeWith (some darkSettings)) args = run (pipeWith (some plainSettings)) args' ∧
      perform (pipeWith (some darkSettings)) args =
        perform (pipeWith (some plainSettings)) args' ∧
      run (pipeWith (some darkSettings)) args = ⟨0, "abcd\nef\n".toList, none⟩) ∧
    perform (pipeWith (some "theme = [".toList)) [] = perform (pipeWith none) [] := by
  have hinput (settings : Option Text) (o : Options) (ho : o.file = none) :
      inputText (pipeWith settings) o = .ok "abcdef\n".toList := by
    rw [inputText]
    simp only [ho, pipeWith, Text.ofUtf8?_utf8]
  have hload : (Settings.load (pipeWith (some darkSettings)).settingsFile).wrapWidth = 4 ∧
      (Settings.load (pipeWith (some darkSettings)).settingsFile).layout.placeholder =
        (Settings.load (pipeWith (some plainSettings)).settingsFile).layout.placeholder := by
    decide +kernel
  have hwidth : chosenWidth (Settings.load (pipeWith (some darkSettings)).settingsFile)
        { language := some .plain } =
      chosenWidth (Settings.load (pipeWith (some plainSettings)).settingsFile)
        { language := some .plain, wrapWidth := some 4, theme := some .light } := by
    rw [chosenWidth, chosenWidth, Option.getD_none, hload.1, Option.getD_some]
  obtain ⟨hagree, hunreadable⟩ := pipe_shows_width_and_placeholder_only
  obtain ⟨hrun, hperform⟩ := hagree (pipeWith (some darkSettings))
    (pipeWith (some plainSettings)) ["--plain".toList]
    ["--plain".toList, "-w".toList, "4".toList, "--light".toList] { language := some .plain }
    { language := some .plain, wrapWidth := some 4, theme := some .light } "abcdef\n".toList rfl rfl
    rfl rfl (hinput _ _ rfl) (hinput _ _ rfl) rfl hwidth hload.2
  have houtput : run (pipeWith (some darkSettings)) ["--plain".toList] =
      ⟨0, "abcd\nef\n".toList, none⟩ := by
    rw [run_eq_pipedFrame (o := { language := some .plain }) rfl rfl (hinput _ _ rfl)]
    simp only [chosenWidth, Option.getD_none, hload.1]
    decide +kernel
  obtain ⟨-, hbroken⟩ := hunreadable (pipeWith (some "theme = [".toList)) [] .malformedSettings
    (by decide +kernel)
  exact ⟨⟨hrun, hperform, houtput⟩, hbroken⟩

end CommandLine
end QueryView
