/-
What comes out of a pipe for nothing.

The line ends that close a text are dropped, so an input of line ends only is the empty text, in
every language.  The renderer puts the placeholder in place of the empty text, and it does so for
a pipe, too: the layout of a pipe differs from that of a terminal in its padding alone.  So the
output is the placeholder of the settings, which was in no input, and one line end; it is the line
end alone if there is no placeholder, or an empty one, and only then
(`nothing_is_piped_as_placeholder`).  For any other input the placeholder is not seen: the output
is the text that is shown of the input, laid out for the chosen width, and a line end.

It is asked that the arguments can be read and that there is an input, since the output is empty
otherwise; about the settings nothing is asked.
-/
import QueryView.Proofs.CommandLine.Unseen
import QueryView.Proofs.CommandLine.Verbatim

namespace QueryView

theorem Text.dropFinalNewlines_eq_nil {t : Text} (h : ∀ c ∈ t, c = '\n') :
    dropFinalNewlines t = [] :=
  List.rdropWhile_eq_nil_iff.mpr fun c hc => by rw [h c hc]; rfl

namespace CommandLine

open Highlighter (shown shown_ne_nil shown_nil)
open Terminal (Ruler)

theorem pipedFrame_nil (width : Nat) (placeholder : Option Text) :
    pipedFrame width placeholder [] = placeholder.getD [] := if_pos rfl

theorem pipedFrame_of_ne_nil {t : Text} (h : t ≠ []) (width : Nat) (placeholder : Option Text) :
    pipedFrame width placeholder t = (Ruler.layOut ⟨[], width⟩ 0 t).1 := if_neg h

theorem getD_nil_append_eq_iff {placeholder : Option Text} {t : Text} :
    placeholder.getD [] ++ t = t ↔ placeholder = none ∨ placeholder = some [] := by
  cases placeholder with
  | none => simp
  | some p => simp

/-- In a pipe an input of line ends only comes out as the placeholder and a line end, which is the
line end alone if and only if there is nothing in the placeholder.  Of any other input what is
shown comes out, laid out without a margin. -/
theorem nothing_is_piped_as_placeholder (around : Surroundings) (args : List Text) {o : Options}
    {t : Text} (hpipe : around.onTerminal = false) (hargs : Options.read args = .ok o)
    (htext : inputText around o = .ok t) :
    let s := Settings.load around.settingsFile
    let substitute := s.layout.placeholder.getD [] ++ ['\n']
    ((∀ c ∈ t, c = '\n') →
      run around args = ⟨0, substitute, none⟩ ∧
      perform around args = .ok ⟨0, Text.utf8 substitute, none⟩ ∧
      ((run around args).output = ['\n'] ↔
        s.layout.placeholder = none ∨ s.layout.placeholder = some [])) ∧
    ((∃ c ∈ t, c ≠ '\n') →
      let body := shown (Text.dropFinalNewlines t) (chosenLanguage o)
      let output := (Ruler.layOut ⟨[], chosenWidth s o⟩ 0 body).1 ++ ['\n']
      run around args = ⟨0, output, none⟩ ∧
      perform around args = .ok ⟨0, Text.utf8 output, none⟩) := by
  intro s substitute
  have hrun := run_eq_pipedFrame hpipe hargs htext
  constructor
  · intro hnothing
    have hsubstitute : run around args = ⟨0, substitute, none⟩ := by
      rw [hrun, Text.dropFinalNewlines_eq_nil hnothing, shown_nil, pipedFrame_nil]
    refine ⟨hsubstitute, ?_, ?_⟩
    · rw [perform_eq_run, hsubstitute]
      rfl
    · rw [hsubstitute]
      exact getD_nil_append_eq_iff
  · intro hsomething body output
    have hbody : body ≠ [] := shown_ne_nil (Text.dropFinalNewlines_ne_nil hsomething) _
    have hshown : run around args = ⟨0, output, none⟩ := by
      rw [hrun, pipedFrame_of_ne_nil hbody]
    refine ⟨hshown, ?_⟩
    rw [perform_eq_run, hshown]
    rfl

/-! ## A pipe with a placeholder -/

def promptSettings : Text := "[editor]\nplaceholder = \"Type a query\"\n".toList

/-- A pipe whose settings have a placeholder. -/
def promptingPipe (input : Text) : Surroundings where
  settingsFile := .ok (Text.utf8 promptSettings)
  files _ := .error .notFound
  standardInput := Text.utf8 input
  onTerminal := false

theorem inputText_promptingPipe (input : Text) {o : Options} (ho : o.file = none) :
    inputText (promptingPipe input) o = .ok input := by
  rw [inputText]
  simp only [ho, promptingPipe, Text.ofUtf8?_utf8]

theorem placeholder_promptSettings (input : Text) :
    (Settings.load (promptingPipe input).settingsFile).layout.placeholder =
      some "Type a query".toList := by
  show (Settings.load (.ok (Text.utf8 promptSettings))).layout.placeholder = _
  decide +kernel

/-- Two line ends come out as the placeholder, and a query as it is. -/
theorem prompt_comes_out_of_pipe :
    run (promptingPipe "\n\n".toList) ["--json".toList] =
        ⟨0, "Type a query\n".toList, none⟩ ∧
      run (promptingPipe "select\n".toList) ["--sql".toList, "-w".toList, "4".toList] =
        ⟨0, "sele\nct\n".toList, none⟩ := by
  obtain ⟨hnothing, -⟩ := nothing_is_piped_as_placeholder (promptingPipe "\n\n".toList)
    ["--json".toList] (o := { language := some .json }) rfl rfl
    (inputText_promptingPipe _ rfl)
  obtain ⟨-, hsomething⟩ := nothing_is_piped_as_placeholder (promptingPipe "select\n".toList)
    ["--sql".toList, "-w".toList, "4".toList]
    (o := { language := some .query, wrapWidth := some 4 }) rfl rfl
    (inputText_promptingPipe _ rfl)
  obtain ⟨hplaceholder, -⟩ := hnothing (by simp)
  obtain ⟨hquery, -⟩ := hsomething ⟨'s', by decide, by decide⟩
  rw [placeholder_promptSettings] at hplaceholder
  exact ⟨hplaceholder, hquery.trans (by decide +kernel)⟩

/-- Nothing comes in, the arguments ask for nothing, and yet more than a line end comes out. -/
theorem placeholder_comes_out_for_nothing :
    Options.read [] = .ok {} ∧ inputText (promptingPipe []) {} = .ok [] ∧
      (run (promptingPipe []) []).output = "Type a query\n".toList ∧
      (run (promptingPipe []) []).output ≠ ['\n'] := by
  have hinput : inputText (promptingPipe []) {} = .ok [] := inputText_promptingPipe [] rfl
  have houtput : (run (promptingPipe []) []).output = "Type a query\n".toList := by
    rw [run_eq_pipedFrame rfl (o := {}) rfl hinput, placeholder_promptSettings]
    rfl
  refine ⟨rfl, hinput, houtput, ?_⟩
  rw [houtput]
  decide

end CommandLine
end QueryView
