/-
The lexer on UTF-8 finds the tokens of a text.

Every offset that the lexer comes to is the end of a front of the text: in `s ++ r`, at the
end of `s`, it has `r` still before it.  Each lemma below says of one rule that from such
an offset it comes to another one, past what the same rule of `cut` takes of `r`.  So no
offset is ever outside of the text or inside a character, and `reads_every_text` follows:
the lexer goes through any text to its end, and finds the tokens that `tokens` cuts it into.
-/
import QueryView.Highlighter
import QueryView.Query.Scanner

namespace QueryView
namespace Query
namespace Scanner

open Text
open String (utf8Len)

variable (s r : Text)

/-! ## The rules -/

theorem scanWhile?_append (p : Char → Bool) :
    scanWhile? (s ++ r) (utf8Len s) p = some (utf8Len s + utf8Len (r.takeWhile p)) := by
  have h := findChar?_not p r
  rw [scanWhile?, dropBytes?_append, ← h]
  cases hf : findChar? (fun c => !p c) r with
  | none => simp [hf]
  | some n => simp [hf]

theorem scanLineComment?_append :
    scanLineComment? (s ++ r) (utf8Len s) =
      some (utf8Len s + utf8Len (r.takeWhile (· != '\n'))) := by
  have h := scanWhile?_append s r (· != '\n')
  simpa [scanWhile?, scanLineComment?, bne] using h

theorem utf8Len_concat (c : Char) : utf8Len (s ++ [c]) = utf8Len s + c.utf8Size := by
  rw [String.utf8Len_append, String.utf8Len_cons, String.utf8Len_nil, Nat.zero_add]

theorem charAt?_past (c : Char) :
    charAt? (s ++ c :: r) (utf8Len s + c.utf8Size) = r.head? := by
  rw [List.append_cons, ← utf8Len_concat, charAt?_append]

theorem scanString_nil (q : Char) : scanString (s ++ []) q (utf8Len s) = utf8Len (s ++ []) := by
  rw [scanString]
  split
  · rfl
  · next c h =>
    rw [charAt?_append] at h
    cases h

theorem scanString_cons (q c : Char) :
    scanString (s ++ c :: r) q (utf8Len s) =
      if c = '\\' then
        match r.head? with
        | some d => scanString (s ++ c :: r) q (utf8Len s + c.utf8Size + d.utf8Size)
        | none => scanString (s ++ c :: r) q (utf8Len s + c.utf8Size)
      else if c = q then
        if r.head? = some q then
          scanString (s ++ c :: r) q (utf8Len s + c.utf8Size + q.utf8Size)
        else utf8Len s + c.utf8Size
      else scanString (s ++ c :: r) q (utf8Len s + c.utf8Size) := by
  rw [scanString]
  split
  · next h => simp [charAt?_append] at h
  · next d h =>
    rw [charAt?_append] at h
    cases h
    cases hr : r.head? <;> simp [charAt?_past, hr]

/-- The scan of a string takes the same steps as `spanString`, but for a backslash at the
end of the text, after which it looks once more. -/
theorem scanString_append (q : Char) :
    scanString (s ++ r) q (utf8Len s) = utf8Len s + utf8Len (spanString q r).1 := by
  fun_induction spanString q r generalizing s with
  | case1 => rw [scanString_nil, String.utf8Len_append]
  | case2 c =>
    have hend : scanString (s ++ [c]) q (utf8Len s + c.utf8Size) = utf8Len s + c.utf8Size := by
      have h := scanString_nil (s ++ [c]) q
      rwa [List.append_nil, utf8Len_concat] at h
    rw [scanString_cons]
    simp [hend]
  | case3 c d r h ih =>
    have hnext : scanString (s ++ c :: d :: r) q (utf8Len s + c.utf8Size + d.utf8Size) =
        utf8Len s + utf8Len (c :: d :: (spanString q r).1) := by
      have h := ih (s ++ [c] ++ [d])
      rw [← List.append_cons, ← List.append_cons, utf8Len_concat, utf8Len_concat] at h
      rw [h, String.utf8Len_cons, String.utf8Len_cons]
      omega
    rw [scanString_cons]
    by_cases hc : c = '\\'
    · rw [if_pos hc]
      exact hnext
    · obtain ⟨rfl, rfl⟩ := h.resolve_left hc
      rw [if_neg hc, if_pos rfl, if_pos List.head?_cons]
      exact hnext
  | case4 d r h =>
    obtain ⟨hc, hd⟩ := not_or.mp h
    rw [scanString_cons, if_neg hc, if_pos rfl, if_neg (by simpa using hd)]
    simp
  | case5 c d r h hc ih =>
    have hnext : scanString (s ++ c :: d :: r) q (utf8Len s + c.utf8Size) =
        utf8Len s + utf8Len (c :: (spanString q (d :: r)).1) := by
      have h := ih (s ++ [c])
      rw [← List.append_cons, utf8Len_concat] at h
      rw [h, String.utf8Len_cons]
      omega
    rw [scanString_cons, if_neg (fun hc => h (.inl hc)), if_neg hc]
    exact hnext

theorem findWord?_close :
    ((findWord? ['*', '/'] r).map (· + 2)).getD (utf8Len r) = utf8Len (spanBlock r).1 := by
  fun_induction spanBlock r with
  | case1 => rfl
  | case2 c =>
    have hword : ¬ List.isPrefixOf ['*', '/'] [c] = true := by simp
    rw [findWord?, if_neg hword]
    rfl
  | case3 c d r h =>
    obtain ⟨rfl, rfl⟩ := h
    rfl
  | case4 c d r h ih =>
    have hword : ¬ List.isPrefixOf ['*', '/'] (c :: d :: r) = true := by
      rw [List.isPrefixOf_iff_prefix, pair_isPrefix_iff, List.head?_cons]
      simpa using h
    rw [findWord?, if_neg hword, String.utf8Len_cons, String.utf8Len_cons c, ← ih]
    cases findWord? ['*', '/'] (d :: r) with
    | none => rfl
    | some n =>
      simp only [Option.map_some, Option.getD_some]
      omega

theorem scanBlockComment?_append :
    scanBlockComment? (s ++ '/' :: '*' :: r) (utf8Len s) =
      some (utf8Len s + utf8Len ('/' :: '*' :: (spanBlock r).1)) := by
  have hsize (t : Text) : utf8Len ('/' :: '*' :: t) = utf8Len t + 2 := rfl
  have hmark : dropBytes? (s ++ '/' :: '*' :: r) (utf8Len s + 2) = some r := by
    have h := dropBytes?_append (s ++ ['/', '*']) r
    rwa [List.append_assoc, String.utf8Len_append] at h
  have h := findWord?_close r
  rw [scanBlockComment?, hmark, String.utf8Len_append, hsize, hsize, ← h]
  cases hword : findWord? ['*', '/'] r with
  | none => simp [hword]
  | some n =>
    simp only [hword, Option.map_some, Option.getD_some, Option.bind_eq_bind, Option.bind_some,
      Option.pure_def]
    congr 1
    omega

theorem any_charAt?_minus :
    (charAt? (s ++ '-' :: r) (utf8Len s + 1)).any isDigit = startsWithDigit r := by
  have h := charAt?_past s r '-'
  rw [show '-'.utf8Size = 1 from rfl] at h
  rw [h]
  cases r <;> rfl

/-- The rules apply in the same order, and each ends its token where that of `cut` does. -/
theorem classify?_append (c : Char) :
    classify? (s ++ c :: r) (utf8Len s) c =
      some ((cut c r).1.kind, utf8Len s + utf8Len (cut c r).1.text) := by
  unfold classify? cut
  rw [dropBytes?_append]
  simp only [Option.bind_eq_bind, Option.bind_some, List.isPrefixOf_iff_prefix, pair_isPrefix_iff]
  by_cases hblank : isBlank c
  · rw [if_pos hblank, if_pos hblank, scanWhile?_append, List.takeWhile_cons_of_pos hblank]
    rfl
  rw [if_neg hblank, if_neg hblank]
  by_cases hquote : isQuote c
  · rw [if_pos hquote, if_pos hquote, List.append_cons, ← utf8Len_concat, scanString_append,
      utf8Len_concat, Nat.add_assoc, Nat.add_comm c.utf8Size]
    rfl
  rw [if_neg hquote, if_neg hquote]
  by_cases hline : c = '-' ∧ r.head? = some '-'
  · rw [if_pos hline, if_pos hline, scanLineComment?_append]
    obtain ⟨rfl, -⟩ := hline
    rfl
  rw [if_neg hline, if_neg hline]
  by_cases hblock : c = '/' ∧ r.head? = some '*'
  · rw [if_pos hblock, if_pos hblock]
    obtain ⟨rfl, hstar⟩ := hblock
    obtain ⟨r, rfl⟩ := List.head?_eq_some_iff.mp hstar
    rw [scanBlockComment?_append]
    rfl
  rw [if_neg hblock, if_neg hblock]
  by_cases hword : startsWord c
  · have htake : (c :: r).takeWhile continuesWord ++ (c :: r).dropWhile continuesWord = c :: r :=
      List.takeWhile_append_dropWhile
    have hslice := slice?_append s ((c :: r).takeWhile continuesWord)
      ((c :: r).dropWhile continuesWord)
    rw [htake] at hslice
    rw [if_pos hword, if_pos hword, scanWhile?_append, Option.bind_some, hslice,
      Option.bind_some, List.takeWhile_cons_of_pos (continuesWord_of_startsWord hword)]
    rfl
  rw [if_neg hword, if_neg hword]
  have hdigit : (c == '-' && (charAt? (s ++ c :: r) (utf8Len s + 1)).any isDigit) =
      (c == '-' && startsWithDigit r) := by
    by_cases hc : c = '-'
    · rw [hc, any_charAt?_minus]
    · rw [beq_false_of_ne hc, Bool.false_and, Bool.false_and]
  rw [hdigit]
  by_cases hnumber : isDigit c || (c == '-' && startsWithDigit r)
  · rw [if_pos hnumber, if_pos hnumber, List.append_cons, ← utf8Len_concat, scanWhile?_append,
      utf8Len_concat, Nat.add_assoc, Nat.add_comm c.utf8Size]
    rfl
  · rw [if_neg hnumber, if_neg hnumber]
    simp

/-! ## Reading on -/

theorem step_nil : step ⟨s, utf8Len s⟩ = .ended := by
  have h := charAt?_append s []
  rw [List.append_nil] at h
  rw [step, h]
  rfl

theorem step_append (c : Char) :
    step ⟨s ++ c :: r, utf8Len s⟩ =
      .found (cut c r).1 ⟨s ++ c :: r, utf8Len (s ++ (cut c r).1.text)⟩ := by
  have hslice := slice?_append s (cut c r).1.text (cut c r).2
  rw [text_append_rest_cut] at hslice
  simp only [step, charAt?_append, List.head?_cons, classify?_append, hslice,
    String.utf8Len_append]

/-- From a place in a text the scanner finds the tokens of what is left, if it is given one
step more than there are tokens. -/
theorem run_append (n : Nat) (h : (tokens r).length < n) :
    run n ⟨s ++ r, utf8Len s⟩ = (tokens r, .ended) := by
  induction n generalizing s r with
  | zero => omega
  | succ n ih =>
    cases r with
    | nil =>
      rw [List.append_nil, run, step_nil, tokens]
    | cons c r =>
      rw [tokens] at h ⊢
      rw [List.length_cons] at h
      have hrest := ih (s ++ (cut c r).1.text) (cut c r).2 (by omega)
      rw [List.append_assoc, text_append_rest_cut] at hrest
      rw [run, step_append]
      simp only [hrest]

end Scanner

theorem length_tokens_le (t : Text) : (tokens t).length ≤ t.length := by
  fun_induction tokens t with
  | case1 => exact Nat.le_refl _
  | case2 c r ih =>
    have hlt := length_rest_cut_lt c r
    rw [List.length_cons]
    omega

theorem text_ne_nil_of_mem_tokens (t : Text) : ∀ token ∈ tokens t, token.text ≠ [] := by
  fun_induction tokens t with
  | case1 => simp
  | case2 c r ih =>
    intro token htoken
    rcases List.mem_cons.mp htoken with rfl | hrest
    · exact text_cut_ne_nil c r
    · exact ih token hrest

/-- Coloring tokens leaves their texts as they are. -/
theorem text_map_run (h : Highlighter) (ts : List Token) :
    RunSequence.text (ts.map h.run) = Token.concat ts := by
  rw [RunSequence.text, List.flatMap_map]
  rfl

/-- The lexer never leaves the places of a text.  It comes to the end of it, after no more
steps than the text has characters, and what it found makes up the text, whatever the
colors in which the text is shown then. -/
theorem reads_every_text (t : Text) :
    (∀ n, (tokens t).length < n → (Scanner.start t).run n = (tokens t, .ended)) ∧
      (tokens t).length ≤ t.length ∧ (∀ token ∈ tokens t, token.text ≠ []) ∧
      Token.concat (tokens t) = t ∧
      ∀ p : Palette, (highlight p t .query).text = t := by
  refine ⟨?_, length_tokens_le t, text_ne_nil_of_mem_tokens t, concat_tokens t, ?_⟩
  · exact fun n hn => Scanner.run_append [] t n hn
  · intro p
    show RunSequence.text ((tokens t).map (Highlighter.ofPalette p).run) = t
    rw [text_map_run, concat_tokens]

end Query
end QueryView
