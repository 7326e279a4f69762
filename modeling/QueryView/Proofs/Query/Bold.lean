/-
Bold runs.

A run of a query is bold if and only if its text is a reserved word.  This is not how the lexer
goes about it, which asks for reserved words only where one of its rules has found a word.  But a
reserved word starts like any other (`exists_cons_of_reserved`), and what the other rules take
does not, so no string, comment or number and no single character can spell one.

Nor is a reserved word ever missed.  A block is a part of a text that consists of letters, digits
and underscores and has none of these next to it (`Block`).  The token in which it starts takes it
as a whole and nothing else, if it is not a string, a comment or a number (`Block.cut_eq`).  The
rest is an induction along the tokens before the block.

A bold run is not always a block.  A number does not go on with letters, so a word may follow it
at once.
-/
import QueryView.Proofs.Json.Pieces
import QueryView.Proofs.Query.Case
import QueryView.Proofs.Query.Grammar
import QueryView.Proofs.Query.Scanner

namespace QueryView

/-! ## Languages without keywords -/

namespace Highlighter

theorem isBold_jsonTokens (t : Text) :
    ∀ token ∈ jsonTokens t, token.kind.isBold = false := by
  intro token htoken
  rw [jsonTokens] at htoken
  cases hformat : Json.format? t with
  | none =>
    rw [hformat, Option.getD_none, List.mem_singleton] at htoken
    rw [htoken]
    rfl
  | some ps =>
    rw [hformat, Option.getD_some] at htoken
    cases Json.piece_of_format? hformat token htoken <;> rfl

theorem not_bold_of_ne_query (h : Highlighter) (t : Text) {l : Language} (hl : l ≠ .query) :
    ∀ run ∈ h.highlight t l, run.bold = false := by
  intro run hrun
  cases l with
  | query => exact absurd rfl hl
  | json =>
    obtain ⟨token, htoken, rfl⟩ := List.mem_map.mp hrun
    exact isBold_jsonTokens t token htoken
  | plain =>
    rw [List.mem_singleton.mp hrun]

end Highlighter

namespace Query

open Grammar (Reserved isKeyword_iff)
open Json.Grammar (takeWhile_append_of_startsOutside)

/-! ## Characters of words -/

/-- What starts the other rules is no part of a word. -/
theorem apart_of_continuesWord {c : Char} (h : continuesWord c = true) :
    Text.isBlank c = false ∧ isQuote c = false ∧ c ≠ '-' ∧ c ≠ '/' := by
  simp only [continuesWord, Text.isLetter, Text.isDigit, Bool.or_eq_true, decide_eq_true_eq,
    beq_iff_eq] at h
  rcases h with ((hsmall | hcapital) | hdigit) | rfl
  · exact Text.between_induction c hsmall (by decide)
  · exact Text.between_induction c hcapital (by decide)
  · exact Text.between_induction c hdigit (by decide)
  · decide

theorem continuesWord_of_isBlank {c : Char} (h : Text.isBlank c = true) :
    continuesWord c = false := by
  rw [← Bool.not_eq_true]
  intro hword
  exact Bool.false_ne_true ((apart_of_continuesWord hword).1.symm.trans h)

theorem continuesWord_eq (c : Char) : continuesWord c = (startsWord c || Text.isDigit c) :=
  Bool.or_right_comm _ _ _

/-- A reserved word starts like any word, in any case. -/
theorem exists_cons_of_reserved {word : Text} (h : Reserved word) :
    ∃ c r, word = c :: r ∧ startsWord c = true := by
  have hkeywords : ∀ k ∈ keywords, k.head?.any startsWord = true := by decide +kernel
  obtain ⟨k, hk, hletters⟩ := h
  have hlower : Text.lower k = Text.lower word := beq_iff_eq.mp hletters
  cases k with
  | nil => exact absurd (hkeywords [] hk) Bool.false_ne_true
  | cons d s =>
    have hstarts : startsWord d = true := hkeywords (d :: s) hk
    cases word with
    | nil => cases hlower
    | cons c r =>
      have hsame : d.toLower = c.toLower := (List.cons.inj hlower).1
      exact ⟨c, r, rfl, by rw [← startsWord_toLower, ← hsame, startsWord_toLower, hstarts]⟩

/-! ## One token -/

/-- Where a word starts, the token is all of that word. -/
theorem cut_of_startsWord {c : Char} {r : Text} (hc : startsWord c = true) :
    (cut c r).1 = ⟨if isKeyword ((c :: r).takeWhile continuesWord) then .keyword else .plain,
      (c :: r).takeWhile continuesWord⟩ := by
  have hword := continuesWord_of_startsWord hc
  obtain ⟨hblank, hquote, hminus, hslash⟩ := apart_of_continuesWord hword
  have hline : ¬ (c = '-' ∧ r.head? = some '-') := fun h => hminus h.1
  have hblock : ¬ (c = '/' ∧ r.head? = some '*') := fun h => hslash h.1
  rw [cut, if_neg (Bool.not_eq_true _ ▸ hblank), if_neg (Bool.not_eq_true _ ▸ hquote),
    if_neg hline, if_neg hblock, if_pos hc, List.takeWhile_cons_of_pos hword]
  rfl

theorem exists_text_cut_eq_cons (c : Char) (r : Text) : ∃ s, (cut c r).1.text = c :: s := by
  obtain ⟨d, s, hds⟩ := List.exists_cons_of_ne_nil (text_cut_ne_nil c r)
  have hparts := text_append_rest_cut c r
  rw [hds, List.cons_append] at hparts
  exact ⟨s, (List.cons.inj hparts).1 ▸ hds⟩

/-- A token that goes beyond a place takes what is before it and the character there. -/
theorem prefix_text_cut {c d : Char} {r front rest : Text} (hparts : c :: r = front ++ d :: rest)
    (hlength : front.length < (cut c r).1.text.length) : front ++ [d] <+: (cut c r).1.text := by
  have htext : (cut c r).1.text <+: c :: r := ⟨_, text_append_rest_cut c r⟩
  have hfront : front ++ [d] <+: c :: r :=
    ⟨rest, by rw [hparts, List.append_assoc, List.singleton_append]⟩
  exact List.prefix_of_prefix_length_le hfront htext (by rw [List.length_append]; exact hlength)

/-- The classes of tokens that may hold anything. -/
def enclosing : List TokenClass := [.string, .comment, .number]

/-- Where no word starts, no character of a word is taken, but by strings, comments and
numbers. -/
theorem cut_of_not_startsWord {c : Char} {r : Text} (hc : startsWord c = false) :
    (cut c r).1.kind ∈ enclosing ∨
      (cut c r).1.kind = .plain ∧ ∀ d ∈ (cut c r).1.text, continuesWord d = false := by
  unfold cut
  split
  · next hblank =>
    refine .inr ⟨rfl, fun d hd => continuesWord_of_isBlank ?_⟩
    rcases List.mem_cons.mp hd with rfl | hd
    · exact hblank
    · exact List.mem_takeWhile_imp hd
  split
  · exact .inl (by simp [enclosing])
  split
  · exact .inl (by simp [enclosing])
  split
  · exact .inl (by simp [enclosing])
  rw [if_neg (Bool.not_eq_true _ ▸ hc)]
  split
  · exact .inl (by simp [enclosing])
  · next hnumber =>
    simp only [Bool.or_eq_true, not_or, Bool.not_eq_true] at hnumber
    refine .inr ⟨rfl, fun d hd => ?_⟩
    rw [List.mem_singleton.mp hd, continuesWord_eq, hc, hnumber.1, Bool.or_false]

/-! ## Blocks -/

/-- Between `front` and `rest` there stand in the text letters, digits and underscores, and
neither of the characters next to them is one. -/
structure Block (t front word rest : Text) : Prop where
  parts : t = front ++ word ++ rest
  inside : ∀ c ∈ word, continuesWord c = true
  before : ∀ c ∈ front.getLast?, continuesWord c = false
  after : ∀ c ∈ rest.head?, continuesWord c = false

/-- The number of characters before the token of that number. -/
def offset (ts : List Token) (i : Nat) : Nat := (Token.concat (ts.take i)).length

/-- No string, comment or number takes a character between two places in the text. -/
def Outside (ts : List Token) (start stop : Nat) : Prop :=
  ∀ i (hi : i < ts.length), ts[i].kind ∈ enclosing → offset ts (i + 1) ≤ start ∨ stop ≤ offset ts i

instance (ts : List Token) (start stop : Nat) : Decidable (Outside ts start stop) :=
  inferInstanceAs (Decidable (∀ i (hi : i < ts.length), ts[i].kind ∈ enclosing →
    offset ts (i + 1) ≤ start ∨ stop ≤ offset ts i))

theorem offset_zero (ts : List Token) : offset ts 0 = 0 := rfl

theorem offset_cons_succ (token : Token) (ts : List Token) (i : Nat) :
    offset (token :: ts) (i + 1) = token.text.length + offset ts i := by
  rw [offset, List.take_succ_cons, Token.concat, List.flatMap_cons, List.length_append]
  rfl

theorem Outside.of_cons {token : Token} {ts : List Token} {start stop : Nat}
    (h : Outside (token :: ts) (token.text.length + start) (token.text.length + stop)) :
    Outside ts start stop := by
  intro i hi hkind
  have hplace := h (i + 1) (Nat.succ_lt_succ hi) hkind
  rw [offset_cons_succ, offset_cons_succ] at hplace
  omega

/-- A token that takes the first of these characters is no string, comment or number. -/
theorem Outside.head {token : Token} {ts : List Token} {start stop : Nat}
    (h : Outside (token :: ts) start stop) (hstart : start < token.text.length)
    (hstop : start < stop) : token.kind ∉ enclosing := by
  intro hkind
  have hplace := h 0 (Nat.succ_pos _) hkind
  rw [offset_cons_succ, offset_zero, offset_zero] at hplace
  omega

/-- The token in which a block starts takes it as a whole and nothing else, if it is of a class
that may not hold anything. -/
theorem Block.cut_eq {c : Char} {r front word rest : Text} (h : Block (c :: r) front word rest)
    (hword : word ≠ []) (hstart : front.length < (cut c r).1.text.length)
    (hkind : (cut c r).1.kind ∉ enclosing) :
    front = [] ∧ (cut c r).1 = ⟨if isKeyword word then .keyword else .plain, word⟩ := by
  obtain ⟨w, ws, rfl⟩ := List.exists_cons_of_ne_nil hword
  have hparts : c :: r = front ++ w :: (ws ++ rest) := by
    rw [h.parts, List.append_assoc, List.cons_append]
  obtain ⟨a, htext⟩ := prefix_text_cut hparts hstart
  have hw : continuesWord w = true := h.inside w List.mem_cons_self
  cases hc : startsWord c with
  | false =>
    obtain ⟨-, hnone⟩ := (cut_of_not_startsWord hc).resolve_left hkind
    have hmem : w ∈ (cut c r).1.text := by simp [← htext]
    exact absurd (hnone w hmem) (by simp [hw])
  | true =>
    have hfront : front = [] := by
      rw [← List.getLast?_eq_none_iff, Option.eq_none_iff_forall_ne_some]
      intro d hd
      have hmem : d ∈ (cut c r).1.text := by simp [← htext, List.mem_of_getLast? hd]
      rw [cut_of_startsWord hc] at hmem
      have hinside := List.mem_takeWhile_imp hmem
      rw [h.before d hd] at hinside
      exact Bool.false_ne_true hinside
    subst hfront
    rw [cut_of_startsWord hc, h.parts, List.nil_append,
      takeWhile_append_of_startsOutside h.inside h.after]
    exact ⟨rfl, rfl⟩

/-- What a block lies behind can be taken away from the text. -/
theorem Block.of_append {s b t word rest : Text} (h : Block (s ++ t) (s ++ b) word rest) :
    Block t b word rest := by
  refine ⟨?_, h.inside, fun c hc => h.before c ?_, h.after⟩
  · have hparts := h.parts
    rw [List.append_assoc, List.append_assoc] at hparts
    rw [List.append_assoc, List.append_cancel_left hparts]
  · rw [Option.mem_def, List.getLast?_append, Option.mem_def.mp hc, Option.some_or]

/-- A block outside of strings, comments and numbers is a token. -/
theorem exists_token_of_block {t front word rest : Text} (h : Block t front word rest)
    (hword : word ≠ []) (hout : Outside (tokens t) front.length (front ++ word).length) :
    ∃ before after, tokens t =
        before ++ ⟨if isKeyword word then .keyword else .plain, word⟩ :: after ∧
      Token.concat before = front ∧ Token.concat after = rest := by
  fun_induction tokens t generalizing front with
  | case1 =>
    have hnil := h.parts
    simp [hword] at hnil
  | case2 c r ih =>
    by_cases hstart : front.length < (cut c r).1.text.length
    · have hstop : front.length < (front ++ word).length := by
        rw [List.length_append]
        have hpos := List.length_pos_iff.mpr hword
        omega
      obtain ⟨rfl, htoken⟩ := h.cut_eq hword hstart (hout.head hstart hstop)
      refine ⟨[], tokens (cut c r).2, by rw [htoken]; rfl, rfl, ?_⟩
      have hparts := (text_append_rest_cut c r).trans h.parts
      rw [htoken] at hparts
      rw [concat_tokens, List.append_cancel_left hparts]
    · have htext : (cut c r).1.text <+: c :: r := ⟨_, text_append_rest_cut c r⟩
      have hfront : front <+: c :: r := ⟨word ++ rest, by rw [h.parts, List.append_assoc]⟩
      obtain ⟨b, rfl⟩ : (cut c r).1.text <+: front :=
        List.prefix_of_prefix_length_le htext hfront (by omega)
      rw [← text_append_rest_cut c r] at h
      rw [List.length_append, List.append_assoc, List.length_append] at hout
      obtain ⟨before, after, htokens, hbefore, hafter⟩ := ih h.of_append hout.of_cons
      refine ⟨(cut c r).1 :: before, after, by rw [htokens, List.cons_append], ?_, hafter⟩
      rw [← hbefore]
      rfl

/-! ## Reserved words -/

/-- A token is taken for a keyword if its text is a reserved word, whatever rule took it. -/
theorem kind_eq_keyword_iff (t : Text) :
    ∀ token ∈ tokens t, token.kind = .keyword ↔ Reserved token.text := by
  fun_induction tokens t with
  | case1 => exact fun _ hnone => absurd hnone List.not_mem_nil
  | case2 c r ih =>
    rw [List.forall_mem_cons]
    refine ⟨?_, ih⟩
    cases hc : startsWord c with
    | true =>
      rw [cut_of_startsWord hc, ← isKeyword_iff]
      cases isKeyword _ <;> simp
    | false =>
      have hkind : (cut c r).1.kind ≠ .keyword := by
        intro hkeyword
        have hcases := cut_of_not_startsWord (r := r) hc
        simp [hkeyword, enclosing] at hcases
      refine iff_of_false hkind fun hreserved => ?_
      obtain ⟨s, hs⟩ := exists_text_cut_eq_cons c r
      obtain ⟨d, u, hdu, hd⟩ := exists_cons_of_reserved hreserved
      obtain rfl : d = c := (List.cons.inj (hdu.symm.trans hs)).1
      exact Bool.false_ne_true (hc.symm.trans hd)

/-- A word may follow a number at once, and then it is no block. -/
example : tokens "1SELECT".toList = [⟨.number, "1".toList⟩, ⟨.keyword, "SELECT".toList⟩] := by
  decide +kernel

/-! ## Runs -/

/-- Of the runs of a query just those are bold whose texts are reserved words, and they have the
color of keywords.  Each block that is reserved and lies outside of strings, comments and numbers
is one bold run.  In other languages nothing is bold. -/
theorem bold_runs_are_the_reserved_words (p : Palette) (t : Text) :
    (∀ run ∈ highlight p t .query, (run.bold = true ↔ Reserved run.text) ∧
        (run.bold = true → run.color = p.keyword)) ∧
      (∀ front word rest, Block t front word rest → Reserved word →
        Outside (tokens t) front.length (front ++ word).length →
        ∃ before after : RunSequence,
          highlight p t .query = before ++ ⟨word, p.keyword, true⟩ :: after ∧
            before.text = front ∧ after.text = rest) ∧
      ∀ l, l ≠ .query → ∀ run ∈ highlight p t l, run.bold = false := by
  refine ⟨?_, ?_, fun l hl => Highlighter.not_bold_of_ne_query _ t hl⟩
  · intro run hrun
    obtain ⟨token, htoken, rfl⟩ := List.mem_map.mp hrun
    refine ⟨token.kind.isBold_iff.trans (kind_eq_keyword_iff t token htoken), fun hbold => ?_⟩
    have hkind : token.kind = .keyword := token.kind.isBold_iff.mp hbold
    rw [Highlighter.run, hkind]
    rfl
  · intro front word rest hblock hreserved hout
    have hword : word ≠ [] := by
      obtain ⟨c, r, rfl, -⟩ := exists_cons_of_reserved hreserved
      exact List.cons_ne_nil c r
    obtain ⟨before, after, htokens, hbefore, hafter⟩ := exists_token_of_block hblock hword hout
    rw [if_pos (isKeyword_iff.mpr hreserved)] at htokens
    let h := Highlighter.ofPalette p
    refine ⟨before.map h.run, after.map h.run, ?_, ?_, ?_⟩
    · show (tokens t).map h.run = _
      rw [htokens, List.map_append, List.map_cons]
      rfl
    · rw [text_map_run, hbefore]
    · rw [text_map_run, hafter]

/-- A block between a number and a comment. -/
theorem reserved_word_after_number_is_bold :
    let t := "'in' 1.By/*or*/".toList
    let p := Theme.palette .light
    let run : Run := ⟨"By".toList, p.keyword, true⟩
    (run ∈ highlight p t .query ∧ (run.bold = true ↔ Reserved run.text) ∧
        (run.bold = true → run.color = p.keyword)) ∧
      (Block t "'in' 1.".toList "By".toList "/*or*/".toList ∧ Reserved "By".toList ∧
        Outside (tokens t) 7 9 ∧
        ∃ before after : RunSequence, highlight p t .query = before ++ run :: after ∧
          before.text = "'in' 1.".toList ∧ after.text = "/*or*/".toList) ∧
      Language.json ≠ .query ∧ ∀ other ∈ highlight p t .json, other.bold = false := by
  intro t p run
  obtain ⟨hbold, hblocks, hothers⟩ := bold_runs_are_the_reserved_words p t
  have hmem : run ∈ highlight p t .query := by decide +kernel
  have hblock : Block t "'in' 1.".toList "By".toList "/*or*/".toList :=
    ⟨rfl, List.all_eq_true.mp (by decide), fun c hc => by cases hc; decide,
      fun c hc => by cases hc; decide⟩
  have hreserved : Reserved "By".toList := isKeyword_iff.mp (by decide)
  have hout : Outside (tokens t) 7 9 := by decide +kernel
  exact ⟨⟨hmem, hbold run hmem⟩, ⟨hblock, hreserved, hout, hblocks _ _ _ hblock hreserved hout⟩,
    by decide, hothers .json (by decide)⟩

end Query
end QueryView
