/-
Appending to a query.

Where a token ends is seen from what follows it, and at most one character of that is
looked at.  So a rule that left something behind had seen all that it looks at, and takes
the same from a longer text; the text that is appended goes to what it leaves
(`cut_append`).  Only the last token of a text leaves nothing, and only that token can
change when text is appended: `append_changes_only_last` says that the tokens before it
stay, and that those after them are the tokens of the last one and the appended text
together.

An empty text has no last token, which is why the theorem asks for one that is not empty.
-/
import QueryView.Query.Lexer

namespace QueryView
namespace Query

/-! ## What a rule takes from a longer text -/

section Spans

variable {t : Text} (b : Text)

theorem spanWhile_append {p : Char → Bool} (h : (spanWhile p t).2 ≠ []) :
    spanWhile p (t ++ b) = ((spanWhile p t).1, (spanWhile p t).2 ++ b) := by
  have hdrop : t.dropWhile p ≠ [] := h
  have htake : (t.takeWhile p).length ≠ t.length := by
    intro hlength
    have happend := congrArg List.length (t.takeWhile_append_dropWhile (p := p))
    rw [List.length_append] at happend
    exact hdrop (List.length_eq_zero_iff.mp (by omega))
  simp only [spanWhile, List.takeWhile_append, List.dropWhile_append, if_neg htake,
    List.isEmpty_iff, if_neg hdrop]

/-- A closing quote that something follows is known not to be doubled. -/
theorem spanString_of_append {q : Char} (h : (spanString q t).2 ≠ []) :
    spanString q (t ++ b) = ((spanString q t).1, (spanString q t).2 ++ b) := by
  fun_induction spanString q t with
  | case1 => exact absurd rfl h
  | case2 c => exact absurd rfl h
  | case3 c d r hpair ih =>
    rw [List.cons_append, List.cons_append, spanString, if_pos hpair, ih h]
  | case4 d r hpair => rw [List.cons_append, List.cons_append, spanString, if_neg hpair, if_pos rfl]
  | case5 c d r hpair hc ih =>
    rw [List.cons_append, List.cons_append, spanString, if_neg hpair, if_neg hc,
      ← List.cons_append, ih h]

theorem spanBlock_of_append (h : (spanBlock t).2 ≠ []) :
    spanBlock (t ++ b) = ((spanBlock t).1, (spanBlock t).2 ++ b) := by
  fun_induction spanBlock t with
  | case1 => exact absurd rfl h
  | case2 c => exact absurd rfl h
  | case3 c d r hclose => rw [List.cons_append, List.cons_append, spanBlock, if_pos hclose]
  | case4 c d r hclose ih =>
    rw [List.cons_append, List.cons_append, spanBlock, if_neg hclose, ← List.cons_append, ih h]

end Spans

/-! ## One token -/

theorem ne_nil_of_rest_cut_ne_nil {c : Char} {r : Text} (h : (cut c r).2 ≠ []) : r ≠ [] := by
  rintro rfl
  have hlt := length_rest_cut_lt c []
  exact h (List.length_eq_zero_iff.mp (by simpa using hlt))

/-- A token that leaves something is cut from any longer text as well. -/
theorem cut_append {c : Char} {r : Text} (b : Text) (h : (cut c r).2 ≠ []) :
    cut c (r ++ b) = ((cut c r).1, (cut c r).2 ++ b) := by
  have hr : r ≠ [] := ne_nil_of_rest_cut_ne_nil h
  -- The rule that applied still does: each is chosen by `c` and by how `r` starts.
  obtain ⟨hhead, hdigit⟩ : (r ++ b).head? = r.head? ∧
      startsWithDigit (r ++ b) = startsWithDigit r := by
    obtain ⟨d, s, rfl⟩ := List.exists_cons_of_ne_nil hr
    exact ⟨rfl, rfl⟩
  unfold cut at h ⊢
  rw [hhead, hdigit]
  by_cases hblank : Text.isBlank c
  · simp only [if_pos hblank] at h ⊢
    rw [spanWhile_append b h]
  simp only [if_neg hblank] at h ⊢
  by_cases hquote : isQuote c
  · simp only [if_pos hquote] at h ⊢
    rw [spanString_of_append b h]
  simp only [if_neg hquote] at h ⊢
  by_cases hline : c = '-' ∧ r.head? = some '-'
  · simp only [if_pos hline] at h ⊢
    rw [spanWhile_append b h]
  simp only [if_neg hline] at h ⊢
  by_cases hblock : c = '/' ∧ r.head? = some '*'
  · simp only [if_pos hblock] at h ⊢
    rw [List.tail_append_of_ne_nil hr, spanBlock_of_append b h]
  simp only [if_neg hblock] at h ⊢
  by_cases hword : startsWord c
  · simp only [if_pos hword] at h ⊢
    rw [spanWhile_append b h]
  simp only [if_neg hword] at h ⊢
  by_cases hnumber : Text.isDigit c || (c == '-' && startsWithDigit r)
  · simp only [if_pos hnumber] at h ⊢
    rw [spanWhile_append b h]
  · simp only [if_neg hnumber]

/-- A token that leaves nothing is the whole text. -/
theorem text_cut_of_rest_eq_nil {c : Char} {r : Text} (h : (cut c r).2 = []) :
    (cut c r).1.text = c :: r := by
  have happend := text_append_rest_cut c r
  rwa [h, List.append_nil] at happend

/-! ## All tokens -/

/-- Appending text changes no token of a text but the last.  Those that come in its place
are the tokens of what it was cut from, with the text that was appended. -/
theorem append_changes_only_last (a b : Text) (ha : a ≠ []) :
    ∃ front last, tokens a = front ++ [last] ∧
      tokens (a ++ b) = front ++ tokens (last.text ++ b) := by
  fun_induction tokens a with
  | case1 => exact absurd rfl ha
  | case2 c r ih =>
    by_cases hrest : (cut c r).2 = []
    · refine ⟨[], (cut c r).1, ?_, ?_⟩
      · rw [hrest, tokens, List.nil_append]
      · rw [text_cut_of_rest_eq_nil hrest, List.nil_append]
    · obtain ⟨front, last, htokens, happend⟩ := ih hrest
      refine ⟨(cut c r).1 :: front, last, ?_, ?_⟩
      · rw [htokens, List.cons_append]
      · rw [List.cons_append, tokens, cut_append b hrest, happend, List.cons_append]

/-- A quote after a string that was closed doubles the closing one: of the three tokens
of `a 'it'` the first two stay. -/
theorem quote_reopens_last_string :
    "a 'it'".toList ≠ [] ∧ ∃ front last, tokens "a 'it'".toList = front ++ [last] ∧
      tokens ("a 'it'".toList ++ "'s' --b".toList) =
        front ++ tokens (last.text ++ "'s' --b".toList) :=
  ⟨by decide, append_changes_only_last _ _ (by decide)⟩

end Query
end QueryView
