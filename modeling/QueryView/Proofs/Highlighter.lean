/-
What a highlighter shows of a text.

A query and a text without a language are shown as they are, and so is a text that was to be
JSON and is not; of JSON its layout is shown.  A layout is the layout of itself and the empty
text has none, so something is shown of a text if and only if it holds something
(`shown_eq_nil_iff`), in every language and in all colors.

The pieces of which a layout is made hold something each, like the tokens of a query.  So there
is one way only to come by a run that shows nothing: to highlight the empty text in a language
that leaves it in one piece.
-/
import QueryView.Proofs.Json.Pieces
import QueryView.Proofs.Query.Scanner

namespace QueryView

open Terminal (Broken)

namespace Json

theorem format?_nil : format? [] = none := by decide +kernel

end Json

/-! ## What is shown of a text -/

namespace Highlighter

/-- The text that highlighting a text in a language shows. -/
def shown (t : Text) : Language → Text
  | .query => t
  | .json => Token.concat (jsonTokens t)
  | .plain => t

theorem text_highlight (h : Highlighter) (t : Text) (l : Language) :
    RunSequence.text (h.highlight t l) = shown t l := by
  cases l with
  | query => rw [highlight, Query.text_map_run, Query.concat_tokens, shown]
  | json => rw [highlight, Query.text_map_run, shown]
  | plain => exact List.append_nil t

theorem shown_json_of_format? {t : Text} {ps : List Token} (h : Json.format? t = some ps) :
    shown t .json = Token.concat ps := by
  rw [shown, jsonTokens, h, Option.getD_some]

theorem shown_json_of_format?_eq_none {t : Text} (h : Json.format? t = none) :
    shown t .json = t := by
  rw [shown, jsonTokens, h, Option.getD_none]
  exact List.append_nil t

theorem getLast?_shown {t : Text} (h : t.getLast? ≠ some '\n') (l : Language) :
    (shown t l).getLast? ≠ some '\n' := by
  cases l with
  | query => exact h
  | plain => exact h
  | json =>
    cases hformat : Json.format? t with
    | none => rwa [shown_json_of_format?_eq_none hformat]
    | some ps =>
      obtain ⟨v, hv, rfl⟩ := Json.format?_eq_some_iff.mp hformat
      rw [shown_json_of_format? hformat]
      exact (Json.valueText_document 0 v hv.sound).getLast?_ne

/-- Of a shown text with line ends put into it, either all of them are shown or none is. -/
theorem shown_of_broken {t u : Text} {l : Language} (hbroken : Broken (shown t l) u) :
    shown u l = u ∨ shown u l = shown t l := by
  cases l with
  | query => exact .inl rfl
  | plain => exact .inl rfl
  | json =>
    cases hu : Json.format? u with
    | none => exact .inl (shown_json_of_format?_eq_none hu)
    | some us =>
      -- The breaks did not make JSON of `u`, so what they were put into is a layout.
      have ht := Json.format?_of_broken hbroken hu
      cases hformat : Json.format? t with
      | none =>
        rw [shown_json_of_format?_eq_none hformat, hformat] at ht
        cases ht
      | some ts =>
        rw [shown_json_of_format? hformat, Json.format?_concat hformat] at ht
        right
        rw [shown_json_of_format? hu, shown_json_of_format? hformat, Option.some.inj ht]

/-- Something is shown of a text that is not empty. -/
theorem shown_ne_nil {t : Text} (h : t ≠ []) (l : Language) : shown t l ≠ [] := by
  cases l with
  | query => exact h
  | plain => exact h
  | json =>
    cases hformat : Json.format? t with
    | none => rwa [shown_json_of_format?_eq_none hformat]
    | some ps =>
      rw [shown_json_of_format? hformat]
      intro hempty
      have hlayout := Json.format?_concat hformat
      rw [hempty, Json.format?_nil] at hlayout
      cases hlayout

theorem shown_nil (l : Language) : shown [] l = [] := by
  cases l with
  | query => rfl
  | plain => rfl
  | json => exact shown_json_of_format?_eq_none Json.format?_nil

theorem shown_eq_nil_iff {t : Text} {l : Language} : shown t l = [] ↔ t = [] := by
  refine ⟨fun hnothing => ?_, fun hempty => hempty ▸ shown_nil l⟩
  by_contra hsomething
  exact shown_ne_nil hsomething l hnothing

theorem text_highlight_eq_nil_iff (h : Highlighter) {t : Text} {l : Language} :
    RunSequence.text (h.highlight t l) = [] ↔ t = [] := by
  rw [text_highlight, shown_eq_nil_iff]

/-- A run shows nothing only if there is nothing to show, and no lexer to find that out. -/
theorem eq_nil_of_empty_run {h : Highlighter} {t : Text} {l : Language} {run : Run}
    (hrun : run ∈ h.highlight t l) (hempty : run.text = []) : t = [] ∧ l ≠ .query := by
  cases l with
  | query =>
    obtain ⟨token, htoken, rfl⟩ := List.mem_map.mp hrun
    exact absurd hempty (Query.text_ne_nil_of_mem_tokens t token htoken)
  | json =>
    obtain ⟨token, htoken, rfl⟩ := List.mem_map.mp hrun
    rw [jsonTokens] at htoken
    cases hformat : Json.format? t with
    | some ps =>
      rw [hformat] at htoken
      exact absurd hempty ((Json.piece_of_format? hformat token htoken).text_ne_nil)
    | none =>
      rw [hformat] at htoken
      rw [List.mem_singleton.mp htoken] at hempty
      exact ⟨hempty, by decide⟩
  | plain =>
    rw [List.mem_singleton.mp hrun] at hempty
    exact ⟨hempty, by decide⟩

end Highlighter
end QueryView
