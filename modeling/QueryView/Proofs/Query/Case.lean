/-
The case of the letters in a query.

No rule of the lexer asks whether a letter is a capital: it asks for classes that hold all letters
or none, for marks that are no letters, and for words that are reserved in any case.  So cutting a
text into tokens and making its capitals small can be done in either order (`tokens_lower`), as
each rule takes as much of a text as of the text in small letters.

Two texts that differ in the case of their letters only are the same text in small letters, and
`letter_case_makes_no_difference` compares their tokens by way of it.  Only ASCII letters have a
case here; a small letter takes as many bytes as its capital, so that tokens start and end at the
same offsets, too.
-/
import Mathlib.Data.List.Forall2
import Mathlib.Data.String.Basic
import QueryView.Highlighter

namespace QueryView

/-! ## Small letters -/

namespace Text

/-- What is the same for each letter and its capital is the same for all characters in small
letters. -/
theorem apply_toLower {α : Type} {f : Char → α}
    (h : ∀ i < 26, f (Char.ofNat ('a'.toNat + i)) = f (Char.ofNat ('A'.toNat + i))) (c : Char) :
    f c.toLower = f c := by
  have hsmall : ∀ i < 26,
      (Char.ofNat ('A'.toNat + i)).toLower = Char.ofNat ('a'.toNat + i) := by decide
  by_cases hc : 'A' ≤ c ∧ c ≤ 'Z'
  · exact between_induction c hc fun i hi => by rw [hsmall i hi, h i hi]
  · exact congrArg f (dif_neg hc)

theorem isBlank_toLower (c : Char) : isBlank c.toLower = isBlank c := apply_toLower (by decide) c

theorem isDigit_toLower (c : Char) : isDigit c.toLower = isDigit c := apply_toLower (by decide) c

theorem utf8Size_toLower (c : Char) : c.toLower.utf8Size = c.utf8Size :=
  apply_toLower (f := Char.utf8Size) (by decide) c

/-- A character that is no letter is not made of another one. -/
theorem toLower_eq_iff {c d : Char} (hd : isLetter d = false) : c.toLower = d ↔ c = d := by
  have hletters : ∀ i < 26, isLetter (Char.ofNat ('a'.toNat + i)) = true ∧
      isLetter (Char.ofNat ('A'.toNat + i)) = true := by decide
  have hne {e : Char} (he : isLetter e = true) : decide (e = d) = false := by
    rw [decide_eq_false_iff_not]
    rintro rfl
    exact Bool.false_ne_true (hd.symm.trans he)
  have hsame := apply_toLower (f := fun e => decide (e = d))
    (fun i hi => (hne (hletters i hi).1).trans (hne (hletters i hi).2).symm) c
  rwa [Bool.eq_iff_iff, decide_eq_true_iff, decide_eq_true_iff] at hsame

theorem toLower_beq {d : Char} (hd : isLetter d = false) (c : Char) :
    (c.toLower == d) = (c == d) := by
  rw [Bool.eq_iff_iff, beq_iff_eq, beq_iff_eq, toLower_eq_iff hd]

@[simp] theorem lower_nil : lower [] = [] := rfl

@[simp] theorem lower_cons (c : Char) (t : Text) : lower (c :: t) = c.toLower :: lower t := rfl

theorem lower_lower (t : Text) : lower (lower t) = lower t := by
  rw [lower, lower, List.map_map]
  exact List.map_congr_left fun c _ => apply_toLower (f := Char.toLower) (by decide) c

theorem length_lower (t : Text) : (lower t).length = t.length := List.length_map _

theorem utf8Len_lower (t : Text) : String.utf8Len (lower t) = String.utf8Len t := by
  induction t with
  | nil => rfl
  | cons c t ih => rw [lower_cons, String.utf8Len_cons, String.utf8Len_cons, ih, utf8Size_toLower]

theorem head?_lower_eq_iff {t : Text} {c : Char} (hc : isLetter c = false) :
    (lower t).head? = some c ↔ t.head? = some c := by
  cases t with
  | nil => exact Iff.rfl
  | cons d t => simp [toLower_eq_iff hc]

end Text

namespace Query

open Text (lower toLower_eq_iff)

def lowerToken (token : Token) : Token := { token with text := lower token.text }

/-! ## One token -/

theorem isQuote_toLower (c : Char) : isQuote c.toLower = isQuote c :=
  Text.apply_toLower (by decide) c

theorem startsWord_toLower (c : Char) : startsWord c.toLower = startsWord c :=
  Text.apply_toLower (by decide) c

theorem continuesWord_toLower (c : Char) : continuesWord c.toLower = continuesWord c :=
  Text.apply_toLower (by decide) c

theorem continuesNumber_toLower (c : Char) : continuesNumber c.toLower = continuesNumber c :=
  Text.apply_toLower (by decide) c

theorem startsWithDigit_lower (t : Text) : startsWithDigit (lower t) = startsWithDigit t := by
  cases t with
  | nil => rfl
  | cons c t => exact Text.isDigit_toLower c

theorem isLetter_of_isQuote {q : Char} (h : isQuote q = true) : Text.isLetter q = false := by
  simp only [isQuote, Bool.or_eq_true, beq_iff_eq] at h
  rcases h with rfl | rfl <;> rfl

theorem isKeyword_lower (word : Text) : isKeyword (lower word) = isKeyword word := by
  simp only [isKeyword, Text.sameLetters, Text.lower_lower]

theorem spanWhile_lower {p : Char → Bool} (hp : ∀ c, p c.toLower = p c) (t : Text) :
    spanWhile p (lower t) = (lower (spanWhile p t).1, lower (spanWhile p t).2) := by
  have hcomp : p ∘ Char.toLower = p := funext hp
  simp only [spanWhile, lower, List.takeWhile_map, List.dropWhile_map, hcomp]

theorem spanString_lower {q : Char} (hq : Text.isLetter q = false) (t : Text) :
    spanString q (lower t) = (lower (spanString q t).1, lower (spanString q t).2) := by
  have hbackslash {c : Char} : c.toLower = '\\' ↔ c = '\\' := toLower_eq_iff rfl
  fun_induction spanString q t with
  | case1 => rfl
  | case2 c => rfl
  | case3 c d r hpair ih =>
    rw [Text.lower_cons, Text.lower_cons, spanString]
    simp only [hbackslash, toLower_eq_iff hq, if_pos hpair, ih, Text.lower_cons]
  | case4 d r hpair =>
    have hself : q.toLower = q := (toLower_eq_iff hq).mpr rfl
    have hopen : ¬ (q = '\\' ∨ q = q ∧ d.toLower = q) := by rwa [toLower_eq_iff hq]
    rw [Text.lower_cons, Text.lower_cons, hself, spanString, if_neg hopen, if_pos rfl,
      Text.lower_cons, hself, Text.lower_nil]
  | case5 c d r hpair hc ih =>
    rw [Text.lower_cons, Text.lower_cons, spanString, ← Text.lower_cons, ih]
    simp only [hbackslash, toLower_eq_iff hq, if_neg hpair, if_neg hc, Text.lower_cons]

theorem spanBlock_lower (t : Text) :
    spanBlock (lower t) = (lower (spanBlock t).1, lower (spanBlock t).2) := by
  have hstar {c : Char} : c.toLower = '*' ↔ c = '*' := toLower_eq_iff rfl
  have hslash {c : Char} : c.toLower = '/' ↔ c = '/' := toLower_eq_iff rfl
  fun_induction spanBlock t with
  | case1 => rfl
  | case2 c => rfl
  | case3 c d r hclose =>
    rw [Text.lower_cons, Text.lower_cons, spanBlock]
    simp only [hstar, hslash, if_pos hclose, Text.lower_cons, Text.lower_nil]
  | case4 c d r hclose ih =>
    rw [Text.lower_cons, Text.lower_cons, spanBlock, ← Text.lower_cons, ih]
    simp only [hstar, hslash, if_neg hclose, Text.lower_cons]

/-- Of a text in small letters the same rule takes the same part. -/
theorem cut_lower (c : Char) (r : Text) :
    cut c.toLower (lower r) = (lowerToken (cut c r).1, lower (cut c r).2) := by
  have hminus : c.toLower = '-' ↔ c = '-' := toLower_eq_iff rfl
  have hslash : c.toLower = '/' ↔ c = '/' := toLower_eq_iff rfl
  have hsign : (c.toLower == '-') = (c == '-') := Text.toLower_beq rfl c
  have hdash : (lower r).head? = some '-' ↔ r.head? = some '-' := Text.head?_lower_eq_iff rfl
  have hstar : (lower r).head? = some '*' ↔ r.head? = some '*' := Text.head?_lower_eq_iff rfl
  unfold cut
  simp only [Text.isBlank_toLower, isQuote_toLower, hminus, hslash, hdash, hstar,
    startsWord_toLower, Text.isDigit_toLower, hsign, startsWithDigit_lower]
  by_cases hblank : Text.isBlank c
  · simp only [if_pos hblank, spanWhile_lower Text.isBlank_toLower]
    rfl
  simp only [if_neg hblank]
  by_cases hquote : isQuote c
  · have hc := isLetter_of_isQuote hquote
    have hself : c.toLower = c := (toLower_eq_iff hc).mpr rfl
    simp only [if_pos hquote, hself, spanString_lower hc, lowerToken, Text.lower_cons]
  simp only [if_neg hquote]
  by_cases hline : c = '-' ∧ r.head? = some '-'
  · have hnewline := spanWhile_lower (p := (· != '\n'))
      (fun d => congrArg not (Text.toLower_beq rfl d)) r
    simp only [if_pos hline, hnewline]
    rfl
  simp only [if_neg hline]
  by_cases hblock : c = '/' ∧ r.head? = some '*'
  · have htail : (lower r).tail = lower r.tail := List.map_tail.symm
    simp only [if_pos hblock, htail, spanBlock_lower]
    rfl
  simp only [if_neg hblock]
  by_cases hword : startsWord c
  · simp only [if_pos hword, spanWhile_lower continuesWord_toLower, ← Text.lower_cons,
      isKeyword_lower]
    rfl
  simp only [if_neg hword]
  by_cases hnumber : Text.isDigit c || (c == '-' && startsWithDigit r)
  · simp only [if_pos hnumber, spanWhile_lower continuesNumber_toLower]
    rfl
  · simp only [if_neg hnumber]
    rfl

/-! ## All tokens -/

/-- The tokens of a text in small letters are its tokens in small letters. -/
theorem tokens_lower (t : Text) : tokens (lower t) = (tokens t).map lowerToken := by
  fun_induction tokens t with
  | case1 => rw [Text.lower_nil, tokens, List.map_nil]
  | case2 c r ih => rw [Text.lower_cons, tokens, cut_lower, ih, List.map_cons]

theorem lower_concat (ts : List Token) :
    lower (Token.concat ts) = Token.concat (ts.map lowerToken) := by
  rw [Token.concat, lower, List.map_flatMap, Token.concat, List.flatMap_map]
  rfl

/-- Two texts are as long as each other, in characters and in bytes. -/
def SameExtent (s t : Text) : Prop :=
  s.length = t.length ∧ String.utf8Len s = String.utf8Len t

theorem sameExtent_of_lower_eq {s t : Text} (h : lower s = lower t) : SameExtent s t := by
  constructor
  · rw [← Text.length_lower s, h, Text.length_lower]
  · rw [← Text.utf8Len_lower s, h, Text.utf8Len_lower]

/-- What is seen of a run whatever its letters are. -/
def outline (run : Run) : Nat × Color × Bool := (run.text.length, run.color, run.bold)

theorem outline_run_lowerToken (h : Highlighter) (token : Token) :
    outline (h.run (lowerToken token)) = outline (h.run token) := by
  show (((lower token.text).length, _, _) : Nat × Color × Bool) = _
  rw [Text.length_lower]
  rfl

/-- Texts that differ in the case of ASCII letters only have as many tokens.  The tokens at the same
place in both lists are of one class, are as long, and start as far from the front; and the runs
of both texts are as long and drawn alike. -/
theorem letter_case_makes_no_difference {s t : Text}
    (hletters : List.Forall₂ (fun c d => c.toLower = d.toLower) s t) :
    (tokens s).length = (tokens t).length ∧
      (∀ i (hs : i < (tokens s).length) (ht : i < (tokens t).length),
        (tokens s)[i].kind = (tokens t)[i].kind ∧
          SameExtent (tokens s)[i].text (tokens t)[i].text ∧
          SameExtent (Token.concat ((tokens s).take i)) (Token.concat ((tokens t).take i))) ∧
      ∀ h : Highlighter,
        (h.highlight s .query).map outline = (h.highlight t .query).map outline := by
  have hlower : lower s = lower t := by
    rw [← List.forall₂_eq_eq_eq, lower, lower, List.forall₂_map_left_iff,
      List.forall₂_map_right_iff]
    exact hletters
  have htokens : (tokens s).map lowerToken = (tokens t).map lowerToken := by
    rw [← tokens_lower, hlower, tokens_lower]
  refine ⟨by simpa using congrArg List.length htokens, fun i hs ht => ?_, fun h => ?_⟩
  · have htoken : lowerToken (tokens s)[i] = lowerToken (tokens t)[i] := by
      have hget := congrArg (fun ts => ts[i]?) htokens
      simpa [hs, ht] using hget
    have hfront : lower (Token.concat ((tokens s).take i)) =
        lower (Token.concat ((tokens t).take i)) := by
      rw [lower_concat, lower_concat, List.map_take, List.map_take, htokens]
    have hkind : (lowerToken (tokens s)[i]).kind = (lowerToken (tokens t)[i]).kind := by
      rw [htoken]
    have htext : (lowerToken (tokens s)[i]).text = (lowerToken (tokens t)[i]).text := by
      rw [htoken]
    exact ⟨hkind, sameExtent_of_lower_eq htext, sameExtent_of_lower_eq hfront⟩
  · have houtlines (u : Text) : (h.highlight u .query).map outline =
        ((tokens u).map lowerToken).map fun token => outline (h.run token) := by
      rw [Highlighter.highlight, List.map_map, List.map_map]
      exact List.map_congr_left fun token _ => (outline_run_lowerToken h token).symm
    rw [houtlines, houtlines, htokens]

/-- A reserved word, a string with an escaped letter and a doubled quote, a comment, and a letter
that has a case elsewhere. -/
theorem mixed_case_is_cut_alike :
    let s := "SeLecT \"A\\B\"\"c\" /*X*/ É1e5".toList
    let t := "sElEct \"a\\b\"\"C\" /*x*/ É1E5".toList
    List.Forall₂ (fun c d => c.toLower = d.toLower) s t ∧
      (tokens s).length = (tokens t).length ∧ (tokens t).map Token.kind =
        [.keyword, .plain, .string, .plain, .comment, .plain, .plain, .number, .plain] := by
  intro s t
  have hletters : List.Forall₂ (fun c d => c.toLower = d.toLower) s t := by decide
  exact ⟨hletters, (letter_case_makes_no_difference hletters).1, by decide +kernel⟩

end Query
end QueryView
