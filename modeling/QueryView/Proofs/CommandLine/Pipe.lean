/-
The program in a pipe, and its output as its input.

In a pipe there are no escapes and no margin, so the output is the text that is shown, laid
out for the width, with one line end after it.  Fed back, that line end goes, and what is
left is the laid out text `u` of the text `t` that was shown.

A query, or a text without a language, is shown as it is: `u` is laid out already, so it
comes out again.  For JSON there are two cases.  If the breaks spoiled the layout, or there
was none, `u` is shown as it is, too.  If `u` is JSON then so is `t`, which is then a layout,
and the layout of `u` is that of `t` since breaks do not make JSON of what is none
(`format?_of_broken`); so `t` is shown again, and laid out as before.

A placeholder has to be ruled out.  It is shown in place of an empty text, and as a text of
its own when it comes back; with `--json` a placeholder such as `[1]` comes back laid out.
-/
import Mathlib.Data.List.DropRight
import QueryView.CommandLine.Program
import QueryView.Proofs.Highlighter

namespace QueryView

open Terminal (Broken)

/-! ## The end of a text -/

namespace Text

theorem dropFinalNewlines_append {t : Text} (h : t.getLast? ≠ some '\n') :
    dropFinalNewlines (t ++ ['\n']) = t := by
  show List.rdropWhile _ _ = t
  rw [List.rdropWhile_concat_pos _ _ _ rfl, List.rdropWhile_eq_self_iff]
  intro hne hlast
  rw [List.getLast?_eq_some_getLast hne] at h
  exact h (congrArg some (by simpa using hlast))

theorem getLast?_dropFinalNewlines (t : Text) :
    (dropFinalNewlines t).getLast? ≠ some '\n' := by
  show (List.rdropWhile (· == '\n') t).getLast? ≠ some '\n'
  intro hlast
  have hne : List.rdropWhile (· == '\n') t ≠ [] := by
    intro hnil
    rw [hnil] at hlast
    cases hlast
  have hnot := List.rdropWhile_last_not (· == '\n') t hne
  rw [List.getLast?_eq_some_getLast hne] at hlast
  rw [Option.some.inj hlast] at hnot
  exact hnot rfl

end Text

/-! ## Frames in a pipe -/

namespace CommandLine

open Highlighter (shown)
open Terminal (Ruler)

/-- The ruler of a frame in a pipe. -/
def pipeRuler (s : Settings) (o : Options) : Ruler :=
  Ruler.ofLayout (chosenWidth s o) (outputLayout s false)

theorem margin_pipeRuler (s : Settings) (o : Options) : (pipeRuler s o).margin = [] := rfl

variable {s : Settings}

/-- In a pipe the frame is the shown text, laid out, unless the placeholder is shown. -/
theorem frameOf_eq (o : Options) {t : Text} (hshown : s.layout.placeholder = none ∨
      shown (Text.dropFinalNewlines t) (chosenLanguage o) ≠ []) :
    frameOf s o false t =
      ((pipeRuler s o).layOut 0 (shown (Text.dropFinalNewlines t) (chosenLanguage o))).1 := by
  have htext := Highlighter.text_highlight (chosenHighlighter s o) (Text.dropFinalNewlines t)
    (chosenLanguage o)
  rw [frameOf, Terminal.frame_of_no_margin rfl (by rwa [htext]), htext, pipeRuler]

variable (hplaceholder : s.layout.placeholder = none) (o : Options)

include hplaceholder

/-- The frame of a frame is that frame. -/
theorem frameOf_frameOf (t : Text) :
    frameOf s o false (frameOf s o false t ++ ['\n']) = frameOf s o false t := by
  have hmargin := margin_pipeRuler s o
  have hframe := frameOf_eq o (.inl hplaceholder) (t := t)
  have hend : (frameOf s o false t).getLast? ≠ some '\n' := by
    rw [hframe, Ruler.getLast?_layOut hmargin]
    exact Highlighter.getLast?_shown (Text.getLast?_dropFinalNewlines t) _
  have hbroken : Broken (shown (Text.dropFinalNewlines t) (chosenLanguage o))
      (frameOf s o false t) := by
    rw [hframe]
    exact Ruler.broken_layOut hmargin 0 _
  rw [frameOf_eq o (.inl hplaceholder), Text.dropFinalNewlines_append hend]
  rcases Highlighter.shown_of_broken hbroken with hshown | hshown
  · rw [hshown, hframe, Ruler.layOut_layOut hmargin]
  · rw [hshown, hframe]

omit hplaceholder

/-! ## Runs in a pipe -/

/-- The outcome of the program in a pipe, with a text as its standard input. -/
def piped (around : Surroundings) (args : List Text) (t : Text) : Outcome :=
  run { around with standardInput := Text.utf8 t, onTerminal := false } args

/-- What the program puts out in a pipe comes out again when it is put in. -/
theorem piped_output_comes_out_again (around : Surroundings) (args : List Text) (t : Text)
    (hplaceholder : (Settings.load around.settingsFile).layout.placeholder = none) :
    piped around args (piped around args t).output = piped around args t := by
  cases hinformation : information? args with
  | some information =>
    have hpiped (u : Text) : piped around args u = ⟨0, information, none⟩ := by
      rw [piped, run, hinformation]
    rw [hpiped, hpiped]
  | none =>
    cases hread : Options.read args with
    | error failure =>
      have hpiped (u : Text) : piped around args u = piped around args t := by
        simp only [piped, run, hinformation, show?, hread]
      exact hpiped _
    | ok o =>
      cases hfile : o.file with
      | some file =>
        have hpiped (u : Text) : piped around args u = piped around args t := by
          simp only [piped, run, hinformation, show?, hread, inputText, hfile]
        exact hpiped _
      | none =>
        have hpiped (u : Text) : piped around args u =
            ⟨0, frameOf (Settings.load around.settingsFile) o false u ++ ['\n'], none⟩ := by
          simp only [piped, run, hinformation, show?, hread, inputText, hfile, Text.ofUtf8?_utf8]
        rw [hpiped t, hpiped, frameOf_frameOf hplaceholder]

/-- At four columns a line of the layout breaks inside of a string, and what comes back is not
JSON any more. -/
theorem broken_layout_comes_out_again :
    (Settings.load (.error .notFound)).layout.placeholder = none ∧
      let around : Surroundings := ⟨.error .notFound, fun _ => .error .notFound, [], false⟩
      let args := ["--json".toList, "-w".toList, "4".toList]
      piped around args (piped around args "[\"abcd\"]".toList).output =
        piped around args "[\"abcd\"]".toList :=
  ⟨rfl, piped_output_comes_out_again _ _ _ rfl⟩

end CommandLine
end QueryView
