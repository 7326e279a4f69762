/-
What comes out of a pipe that sets no width.

Without a margin and without a limit, laying out changes nothing, and a pipe has neither
escapes nor a margin.  So the output is the text that is shown, with one line end after it: the
text that came in, without the line ends that close it, or its layout if it is to be JSON and
is (`piped_output_is_verbatim`).  The settings may be anything: that a surface is read-only keeps
nobody but its user from changing the text, and colors are not written.

A placeholder would be shown in place of an empty text.  Where one is set the text must
therefore not be empty; what is shown of it is not empty then, since no JSON text is laid out as
nothing.
-/
import QueryView.Proofs.CommandLine.Pipe
import QueryView.Proofs.CommandLine.Session

namespace QueryView

/-! ## Texts that are shown as they are -/

namespace Text

theorem dropFinalNewlines_ne_nil {t : Text} (h : ∃ c ∈ t, c ≠ '\n') : dropFinalNewlines t ≠ [] := by
  obtain ⟨c, hc, hne⟩ := h
  intro hnil
  have hall := List.rdropWhile_eq_nil_iff.mp hnil c hc
  exact hne (by simpa using hall)

/-- The line ends that close a text are all that is dropped. -/
theorem exists_eq_dropFinalNewlines_append (t : Text) :
    ∃ k, t = dropFinalNewlines t ++ List.replicate k '\n' := by
  have hclosing : t.rtakeWhile (· == '\n') =
      List.replicate (t.rtakeWhile (· == '\n')).length '\n' :=
    List.eq_replicate_of_mem fun c hc => by simpa using List.mem_rtakeWhile_imp hc
  refine ⟨(t.rtakeWhile (· == '\n')).length, ?_⟩
  rw [← hclosing]
  exact List.rdropWhile_append_rtakeWhile.symm

end Text

/-- A ruler without a margin and without a limit leaves a text as it is. -/
theorem Terminal.Ruler.layOut_of_no_limit {r : Ruler} (hmargin : r.margin = [])
    (hlimit : r.limit = 0) (column : Nat) (t : Text) : (r.layOut column t).1 = t := by
  induction t generalizing column with
  | nil => rfl
  | cons c t ih =>
    have hplace : (r.place column c).1 = [c] := by
      have hfits : r.overflows column c = false := by simp [overflows, hlimit]
      rw [place, newLine_eq hmargin, hfits]
      split
      · next hc => rw [hc]
      · rfl
    rw [layOut, hplace, ih, List.singleton_append]

/-! ## Pipes -/

namespace CommandLine

open Highlighter (shown)

/-- What is put out in a pipe for a text, but for the line end after it. -/
def pipedText (body : Text) (l : Language) : Text :=
  if l = .json then ((Json.format? body).map Token.concat).getD body else body

theorem shown_eq_pipedText (body : Text) (l : Language) : shown body l = pipedText body l := by
  cases l with
  | query => rfl
  | plain => rfl
  | json =>
    rw [pipedText, if_pos rfl]
    cases hformat : Json.format? body with
    | none => exact Highlighter.shown_json_of_format?_eq_none hformat
    | some ps => exact Highlighter.shown_json_of_format? hformat

theorem frameOf_eq_pipedText {s : Settings} {o : Options} (hwidth : chosenWidth s o = 0) {t : Text}
    (hshown : Text.dropFinalNewlines t ≠ [] ∨ s.layout.placeholder = none) :
    frameOf s o false t = pipedText (Text.dropFinalNewlines t) (chosenLanguage o) := by
  have hlimit : (pipeRuler s o).limit = 0 := by
    show chosenWidth s o - 0 = 0
    rw [hwidth]
  rw [frameOf_eq o (hshown.symm.imp_right fun h => Highlighter.shown_ne_nil h _),
    Terminal.Ruler.layOut_of_no_limit (margin_pipeRuler s o) hlimit, shown_eq_pipedText]

/-- In a pipe without a width the output is the text without the line ends that close it, or
what its layout as JSON shows, and one line end. -/
theorem piped_output_is_verbatim (around : Surroundings) (args : List Text) {o : Options}
    {t : Text} (hpipe : around.onTerminal = false) (hframe : information? args = none)
    (hargs : Options.read args = .ok o) (htext : inputText around o = .ok t)
    (hwidth : chosenWidth (Settings.load around.settingsFile) o = 0)
    (hshown : (∃ c ∈ t, c ≠ '\n') ∨
      (Settings.load around.settingsFile).layout.placeholder = none) :
    let body := Text.dropFinalNewlines t
    let output := pipedText body (chosenLanguage o) ++ ['\n']
    (∃ k, t = body ++ List.replicate k '\n') ∧ body.getLast? ≠ some '\n' ∧
      run around args = ⟨0, output, none⟩ ∧
      perform around args = .ok ⟨0, Text.utf8 output, none⟩ := by
  intro body output
  have hrun : run around args = ⟨0, output, none⟩ := by
    have hframe' := frameOf_eq_pipedText hwidth (hshown.imp_left Text.dropFinalNewlines_ne_nil)
    simp only [run, show?, hframe, hargs, htext, hpipe, hframe']
    rfl
  refine ⟨Text.exists_eq_dropFinalNewlines_append t, Text.getLast?_dropFinalNewlines t, hrun, ?_⟩
  rw [perform_eq_run, hrun]
  rfl

/-! ## A pipe with the settings of a screen -/

def screenSettings : Text :=
  "[editor]\npadding = 2\nplaceholder = \"-\"\nread-only = true\n".toList

def settledPipe : Surroundings where
  settingsFile := .ok (Text.utf8 screenSettings)
  files _ := .error .notFound
  standardInput := Text.utf8 "[1, 2]\n\n".toList
  onTerminal := false

/-- Of the margin and the placeholder nothing is seen, and the surface takes the text. -/
theorem settled_pipe_is_verbatim :
    (Settings.load settledPipe.settingsFile).layout.readOnly = true ∧
      run settledPipe ["--json".toList, "--light".toList] =
        ⟨0, "[\n  1,\n  2\n]\n".toList, none⟩ ∧
      perform settledPipe ["--json".toList, "--light".toList] =
        .ok ⟨0, Text.utf8 "[\n  1,\n  2\n]\n".toList, none⟩ := by
  let o : Options := { language := some .json, theme := some .light }
  have htext : inputText settledPipe o = .ok "[1, 2]\n\n".toList := by
    rw [inputText]
    simp only [o, settledPipe, Text.ofUtf8?_utf8]
  have hsettings : chosenWidth (Settings.load settledPipe.settingsFile) o = 0 ∧
      (Settings.load settledPipe.settingsFile).layout.readOnly = true := by decide +kernel
  have houtput : pipedText (Text.dropFinalNewlines "[1, 2]\n\n".toList) .json ++ ['\n'] =
      "[\n  1,\n  2\n]\n".toList := by decide +kernel
  obtain ⟨-, -, hrun, hperform⟩ := piped_output_is_verbatim settledPipe
    ["--json".toList, "--light".toList] rfl rfl rfl htext hsettings.1
    (.inl ⟨'[', by decide, by decide⟩)
  rw [show chosenLanguage o = .json from rfl, houtput] at hrun hperform
  exact ⟨hsettings.2, hrun, hperform⟩

end CommandLine
end QueryView
