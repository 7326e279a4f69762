/-
The grammar of tokens, and why the lexer follows it.

The grammar says which token stands at the front of a text, without saying how to find it.
It has seven rules in a fixed order.  A rule applies to a text because of how the text
starts, and the first rule that applies decides; what it takes is described by what is
taken, as the longest run of some characters, or as the part up to the first mark of some
kind.

The grammar prescribes one token for every text that is not empty, and the lexer, which
never looks back, cuts a text into just the tokens that are prescribed for what is left of
it (`lexes_iff_and_prescribes_one`).
-/
import Mathlib.Data.List.TakeWhile
import Mathlib.Data.Nat.Find
import QueryView.Query.Lexer

namespace QueryView
namespace Query
namespace Grammar

open Text

/-! ## Rules -/

inductive Rule where
  | blanks
  | string
  | lineComment
  | blockComment
  | word
  | number
  | single

/-- The rules in the order in which they are tried. -/
def Rule.order : List Rule :=
  [.blanks, .string, .lineComment, .blockComment, .word, .number, .single]

/-- The text starts in a way that the rule is about. -/
def Rule.Applies (t : Text) : Rule → Prop
  | .blanks => ∃ c r, t = c :: r ∧ isBlank c
  | .string => ∃ q r, t = q :: r ∧ isQuote q
  | .lineComment => ['-', '-'] <+: t
  | .blockComment => ['/', '*'] <+: t
  | .word => ∃ c r, t = c :: r ∧ startsWord c
  | .number => ∃ c r, t = c :: r ∧ (isDigit c ∨ c = '-' ∧ ∃ d s, r = d :: s ∧ isDigit d)
  | .single => t ≠ []

/-- The rule applies to the text, and no rule before it does. -/
def Rule.First (t : Text) (rule : Rule) : Prop :=
  ∃ before after, Rule.order = before ++ rule :: after ∧ rule.Applies t ∧
    ∀ earlier ∈ before, ¬ earlier.Applies t

/-! ## What a rule takes -/

/-- The longest front of a text whose characters all satisfy `p`. -/
structure LongestRun (p : Char → Bool) (t run : Text) : Prop where
  front : run <+: t
  inside : ∀ c ∈ run, p c
  longest : ∀ other, other <+: t → (∀ c ∈ other, p c) → other.length ≤ run.length

/-- A sequence of what may stand between two quotation marks `q`: a backslash with the
character after it, a doubled mark, or any other character. -/
inductive Items (q : Char) : Text → Prop where
  | nil : Items q []
  | escaped (c : Char) {s : Text} : Items q s → Items q ('\\' :: c :: s)
  | doubled {s : Text} : Items q s → Items q (q :: q :: s)
  | other {c : Char} {s : Text} : c ≠ q → c ≠ '\\' → Items q s → Items q (c :: s)

/-- The front of the text is a string that is closed, and not by the half of a doubled
mark. -/
def ClosedString (q : Char) (t word : Text) : Prop :=
  ∃ items rest, Items q items ∧ word = q :: (items ++ [q]) ∧ t = word ++ rest ∧
    rest.head? ≠ some q

/-- The mark that closes a block comment stands in the text after `k` characters. -/
def ClosesAt (t : Text) (k : Nat) : Prop := ['*', '/'] <+: t.drop k

/-- The word is reserved, whatever the case of its letters. -/
def Reserved (word : Text) : Prop := ∃ k ∈ keywords, sameLetters k word

/-- The rule takes the token from the front of the text. -/
def Rule.Takes (t : Text) (token : Token) : Rule → Prop
  | .blanks => token.kind = .plain ∧ LongestRun isBlank t token.text
  | .string => token.kind = .string ∧ ∃ q, t.head? = some q ∧
      (ClosedString q t token.text ∨
        (∀ word, ¬ ClosedString q t word) ∧ token.text = t)
  | .lineComment => token.kind = .comment ∧ ∃ rest, t = token.text ++ rest ∧
      '\n' ∉ token.text ∧ (rest = [] ∨ rest.head? = some '\n')
  | .blockComment => token.kind = .comment ∧
      ((∃ k, 2 ≤ k ∧ ClosesAt t k ∧ (∀ j, 2 ≤ j → j < k → ¬ ClosesAt t j) ∧
          token.text = t.take (k + 2)) ∨
        (∀ k, 2 ≤ k → ¬ ClosesAt t k) ∧ token.text = t)
  | .word => LongestRun continuesWord t token.text ∧
      (token.kind = .keyword ∧ Reserved token.text ∨
        token.kind = .plain ∧ ¬ Reserved token.text)
  | .number => token.kind = .number ∧ ∃ c r, t = c :: r ∧
      ∃ run, LongestRun continuesNumber r run ∧ token.text = c :: run
  | .single => token.kind = .plain ∧ ∃ c r, t = c :: r ∧ token.text = [c]

/-- The token that the grammar prescribes for the front of a text. -/
def Prescribes (t : Text) (token : Token) : Prop :=
  ∃ rule : Rule, rule.First t ∧ rule.Takes t token

/-- The tokens of a whole text: each is prescribed for what the ones before it leave. -/
inductive Lexes : Text → List Token → Prop where
  | nil : Lexes [] []
  | cons {rest : Text} {token : Token} {ts : List Token} :
      Prescribes (token.text ++ rest) token → Lexes rest ts →
      Lexes (token.text ++ rest) (token :: ts)

/-! ## One rule decides -/

theorem first_unique {t : Text} {rule rule' : Rule} (h : rule.First t) (h' : rule'.First t) :
    rule = rule' := by
  classical
  have hfind (rule : Rule) (h : rule.First t) :
      Rule.order.find? (fun rule => decide (rule.Applies t)) = some rule := by
    obtain ⟨before, after, horder, happlies, hbefore⟩ := h
    rw [List.find?_eq_some_iff_append]
    refine ⟨by simpa using happlies, before, after, horder, ?_⟩
    intro earlier he
    simpa using hbefore earlier he
  exact Option.some.inj ((hfind rule h).symm.trans (hfind rule' h'))

theorem prescribes_iff {t : Text} {token : Token} {rule : Rule} (h : rule.First t) :
    Prescribes t token ↔ rule.Takes t token := by
  constructor
  · intro hex
    obtain ⟨rule', h', htakes⟩ := hex
    rwa [first_unique h h']
  · exact fun htakes => ⟨rule, h, htakes⟩

/-! ## Runs -/

theorem longestRun_iff {p : Char → Bool} {t run : Text} :
    LongestRun p t run ↔ run = t.takeWhile p := by
  have hlongest (other : Text) (hfront : other <+: t) (hinside : ∀ c ∈ other, p c) :
      other <+: t.takeWhile p := by
    obtain ⟨s, rfl⟩ := hfront
    rw [List.takeWhile_append_of_pos hinside]
    exact List.prefix_append _ _
  constructor
  · intro h
    have hle := h.longest _ (List.takeWhile_prefix p) fun c hc => List.mem_takeWhile_imp hc
    exact (hlongest run h.front h.inside).eq_of_length_le hle
  · intro heq
    subst heq
    exact ⟨List.takeWhile_prefix p, fun c hc => List.mem_takeWhile_imp hc,
      fun other hfront hinside => (hlongest other hfront hinside).length_le⟩

theorem lineComment_iff {t word : Text} :
    (∃ rest, t = word ++ rest ∧ '\n' ∉ word ∧ (rest = [] ∨ rest.head? = some '\n')) ↔
      word = t.takeWhile (· != '\n') := by
  constructor
  · intro hex
    obtain ⟨rest, rfl, hword, hrest⟩ := hex
    have hinside : ∀ c ∈ word, (c != '\n') = true := by
      intro c hc
      have hne : c ≠ '\n' := fun h => hword (h ▸ hc)
      simpa using hne
    rw [List.takeWhile_append_of_pos hinside]
    rcases hrest with rfl | hrest
    · simp
    · obtain ⟨rest, rfl⟩ := List.head?_eq_some_iff.mp hrest
      simp
  · intro heq
    subst heq
    refine ⟨t.dropWhile (· != '\n'), List.takeWhile_append_dropWhile.symm, ?_, ?_⟩
    · intro h
      simpa using List.mem_takeWhile_imp h
    · cases h : t.dropWhile (· != '\n') with
      | nil => exact .inl rfl
      | cons c r =>
        have hc := List.head?_dropWhile_not (· != '\n') t
        rw [h] at hc
        simpa using hc

/-! ## Strings -/

theorem spanString_items {q : Char} {items rest : Text} (hq : q ≠ '\\') (h : Items q items)
    (hrest : rest.head? ≠ some q) :
    spanString q (items ++ q :: rest) = (items ++ [q], rest) := by
  induction h with
  | nil =>
    cases rest with
    | nil => rfl
    | cons d rest =>
      have hd : d ≠ q := by simpa using hrest
      rw [List.nil_append, spanString, if_neg (by simp [hq, hd]), if_pos rfl]
      rfl
  | escaped c _ ih =>
    rw [List.cons_append, List.cons_append, spanString, if_pos (.inl rfl), ih]
    rfl
  | doubled _ ih =>
    rw [List.cons_append, List.cons_append, spanString, if_pos (.inr ⟨rfl, rfl⟩), ih]
    rfl
  | @other c s hc hb _ ih =>
    -- What follows is not empty, since the closing mark is in it.
    obtain ⟨d, r, hdr⟩ : ∃ d r, s ++ q :: rest = d :: r := by
      cases s with
      | nil => exact ⟨q, rest, rfl⟩
      | cons d s => exact ⟨d, s ++ q :: rest, rfl⟩
    rw [List.cons_append, hdr, spanString, if_neg (by simp [hc, hb]), if_neg hc, ← hdr, ih]
    rfl

/-- A string that the lexer does not find closed is taken as a whole. -/
theorem exists_items_or_spanString (q : Char) (r : Text) :
    (∃ items rest, Items q items ∧ r = items ++ q :: rest ∧ rest.head? ≠ some q) ∨
      (spanString q r).1 = r := by
  fun_induction spanString q r with
  | case1 => exact .inr rfl
  | case2 c => exact .inr rfl
  | case3 c d r h ih =>
    rcases ih with ⟨items, rest, hitems, rfl, hrest⟩ | ih
    · refine .inl ⟨c :: d :: items, rest, ?_, rfl, hrest⟩
      rcases h with rfl | ⟨rfl, rfl⟩
      · exact .escaped d hitems
      · exact .doubled hitems
    · exact .inr (by rw [ih])
  | case4 d r h =>
    have hd : d ≠ q := fun hd => h (.inr ⟨rfl, hd⟩)
    exact .inl ⟨[], d :: r, .nil, rfl, by simpa using hd⟩
  | case5 c d r h hc ih =>
    rcases ih with ⟨items, rest, hitems, hr, hrest⟩ | ih
    · refine .inl ⟨c :: items, rest, .other hc (fun hb => h (.inl hb)) hitems, ?_, hrest⟩
      rw [hr, List.cons_append]
    · exact .inr (by rw [ih])

theorem closedString_iff {q : Char} {r word : Text} :
    ClosedString q (q :: r) word ↔ ∃ items rest, Items q items ∧ word = q :: (items ++ [q]) ∧
      r = items ++ q :: rest ∧ rest.head? ≠ some q := by
  constructor
  · intro h
    obtain ⟨items, rest, hitems, rfl, hr, hrest⟩ := h
    exact ⟨items, rest, hitems, rfl, by simpa using hr, hrest⟩
  · intro hex
    obtain ⟨items, rest, hitems, rfl, rfl, hrest⟩ := hex
    exact ⟨items, rest, hitems, rfl, by simp, hrest⟩

theorem string_iff {q : Char} {r word : Text} (hq : q ≠ '\\') :
    (ClosedString q (q :: r) word ∨ (∀ word, ¬ ClosedString q (q :: r) word) ∧ word = q :: r) ↔
      word = q :: (spanString q r).1 := by
  simp only [closedString_iff]
  by_cases hclosed : ∃ items rest, Items q items ∧ r = items ++ q :: rest ∧ rest.head? ≠ some q
  · obtain ⟨items, rest, hitems, rfl, hrest⟩ := hclosed
    have hspan := spanString_items hq hitems hrest
    rw [hspan]
    constructor
    · intro h
      rcases h with ⟨items', rest', hitems', rfl, hr', hrest'⟩ | ⟨hnone, -⟩
      · have hspan' := spanString_items hq hitems' hrest'
        rw [← hr', hspan] at hspan'
        rw [congrArg Prod.fst hspan']
      · exact absurd ⟨items, rest, hitems, rfl, rfl, hrest⟩ (hnone (q :: (items ++ [q])))
    · intro heq
      subst heq
      exact .inl ⟨items, rest, hitems, rfl, rfl, hrest⟩
  · have hspan := (exists_items_or_spanString q r).resolve_left hclosed
    rw [hspan]
    constructor
    · intro hor
      rcases hor with ⟨items, rest, hitems, -, hr, hrest⟩ | ⟨-, hword⟩
      · exact absurd ⟨items, rest, hitems, hr, hrest⟩ hclosed
      · exact hword
    · intro heq
      subst heq
      refine .inr ⟨?_, rfl⟩
      intro word hex
      obtain ⟨items, rest, hitems, -, hr, hrest⟩ := hex
      exact hclosed ⟨items, rest, hitems, hr, hrest⟩

/-! ## Block comments -/

theorem not_closesAt_nil {k : Nat} : ¬ ClosesAt [] k := by
  simp [ClosesAt]

theorem closesAt_succ {c : Char} {r : Text} {k : Nat} :
    ClosesAt (c :: r) (k + 1) ↔ ClosesAt r k := by
  rw [ClosesAt, List.drop_succ_cons, ClosesAt]

theorem spanBlock_of_closesAt {r : Text} {k : Nat} (h : ClosesAt r k)
    (hfirst : ∀ j < k, ¬ ClosesAt r j) : (spanBlock r).1 = r.take (k + 2) := by
  fun_induction spanBlock r generalizing k with
  | case1 => exact absurd h not_closesAt_nil
  | case2 c =>
    cases k with
    | zero => simp [ClosesAt] at h
    | succ k => exact absurd (closesAt_succ.mp h) not_closesAt_nil
  | case3 c d r hcd =>
    obtain ⟨rfl, rfl⟩ := hcd
    have hk : k = 0 := by
      by_contra hne
      exact hfirst 0 (by omega) (List.prefix_append ['*', '/'] r)
    rw [hk]
    rfl
  | case4 c d r hcd ih =>
    cases k with
    | zero =>
      obtain ⟨s, hs⟩ := h
      cases hs
      exact absurd ⟨rfl, rfl⟩ hcd
    | succ k =>
      rw [ih (closesAt_succ.mp h) fun j hj hclose =>
        hfirst (j + 1) (by omega) (closesAt_succ.mpr hclose)]
      rfl

theorem spanBlock_of_not_closesAt {r : Text} (h : ∀ k, ¬ ClosesAt r k) :
    (spanBlock r).1 = r := by
  fun_induction spanBlock r with
  | case1 => rfl
  | case2 c => rfl
  | case3 c d r hcd =>
    obtain ⟨rfl, rfl⟩ := hcd
    exact absurd (List.prefix_append _ _) (h 0)
  | case4 c d r hcd ih =>
    rw [ih fun k hk => h (k + 1) (closesAt_succ.mpr hk)]

/-- The two characters that open a comment do not help to close it. -/
theorem blockComment_iff {b word : Text} :
    ((∃ k, 2 ≤ k ∧ ClosesAt ('/' :: '*' :: b) k ∧
        (∀ j, 2 ≤ j → j < k → ¬ ClosesAt ('/' :: '*' :: b) j) ∧
        word = ('/' :: '*' :: b).take (k + 2)) ∨
      (∀ k, 2 ≤ k → ¬ ClosesAt ('/' :: '*' :: b) k) ∧ word = '/' :: '*' :: b) ↔
    word = '/' :: '*' :: (spanBlock b).1 := by
  have hmark (k : Nat) : ClosesAt ('/' :: '*' :: b) (k + 2) ↔ ClosesAt b k :=
    closesAt_succ.trans closesAt_succ
  constructor
  · intro h
    rcases h with ⟨k, hk, hclose, hfirst, rfl⟩ | ⟨hnone, rfl⟩
    · obtain ⟨k, rfl⟩ := Nat.exists_eq_add_of_le' hk
      rw [spanBlock_of_closesAt ((hmark k).mp hclose) fun j hj hclose =>
        hfirst (j + 2) (by omega) (by omega) ((hmark j).mpr hclose)]
      rfl
    · rw [spanBlock_of_not_closesAt fun k hclose => hnone (k + 2) (by omega) ((hmark k).mpr hclose)]
  · intro heq
    subst heq
    by_cases hclose : ∃ k, ClosesAt b k
    · classical
      obtain ⟨k, hk, hfirst⟩ : ∃ k, ClosesAt b k ∧ ∀ j < k, ¬ ClosesAt b j :=
        ⟨Nat.find hclose, Nat.find_spec hclose, fun j => Nat.find_min hclose⟩
      refine .inl ⟨k + 2, by omega, (hmark k).mpr hk, ?_, ?_⟩
      · intro j hj hjk hclose
        obtain ⟨j, rfl⟩ := Nat.exists_eq_add_of_le' hj
        exact hfirst j (by omega) ((hmark j).mp hclose)
      · rw [spanBlock_of_closesAt hk hfirst]
        rfl
    · rw [not_exists] at hclose
      refine .inr ⟨?_, by rw [spanBlock_of_not_closesAt hclose]⟩
      intro k hk hk'
      obtain ⟨k, rfl⟩ := Nat.exists_eq_add_of_le' hk
      exact hclose k ((hmark k).mp hk')

/-! ## When a rule applies -/

theorem exists_cons_iff {c : Char} {r : Text} {P : Char → Text → Prop} :
    (∃ c' r', c :: r = c' :: r' ∧ P c' r') ↔ P c r := by
  constructor
  · intro hex
    obtain ⟨_, _, ⟨rfl, rfl⟩, h⟩ := hex
    exact h
  · exact fun h => ⟨c, r, rfl, h⟩

theorem applies_number_iff {c : Char} {r : Text} :
    Rule.number.Applies (c :: r) ↔ (isDigit c || (c == '-' && startsWithDigit r)) = true := by
  rw [Rule.Applies, exists_cons_iff]
  cases r with
  | nil => simp [startsWithDigit]
  | cons d r => simp only [exists_cons_iff, startsWithDigit, Bool.or_eq_true, Bool.and_eq_true,
      beq_iff_eq]

theorem ne_backslash_of_isQuote {q : Char} (h : isQuote q = true) : q ≠ '\\' := by
  intro heq
  subst heq
  revert h
  decide

theorem isKeyword_iff {word : Text} : isKeyword word = true ↔ Reserved word := by
  rw [isKeyword, List.any_eq_true, Reserved]

/-- A token is known by its class and its text. -/
theorem token_eq_iff {token : Token} {kind : TokenClass} {text : Text} :
    token = ⟨kind, text⟩ ↔ token.kind = kind ∧ token.text = text := by
  cases token
  simp

/-! ## What each rule takes, found by the lexer -/

theorem takes_blanks_iff {c : Char} {r : Text} {token : Token} (hblank : isBlank c = true) :
    Rule.blanks.Takes (c :: r) token ↔ token = ⟨.plain, c :: r.takeWhile isBlank⟩ := by
  rw [Rule.Takes, longestRun_iff, List.takeWhile_cons_of_pos hblank, token_eq_iff]

theorem takes_string_iff {q : Char} {r : Text} {token : Token} (hquote : isQuote q = true) :
    Rule.string.Takes (q :: r) token ↔ token = ⟨.string, q :: (spanString q r).1⟩ := by
  simp only [Rule.Takes, List.head?_cons, Option.some.injEq, exists_eq_left',
    string_iff (ne_backslash_of_isQuote hquote), token_eq_iff]

theorem takes_lineComment_iff {t : Text} {token : Token} :
    Rule.lineComment.Takes t token ↔ token = ⟨.comment, t.takeWhile (· != '\n')⟩ := by
  rw [Rule.Takes, lineComment_iff, token_eq_iff]

theorem takes_blockComment_iff {b : Text} {token : Token} :
    Rule.blockComment.Takes ('/' :: '*' :: b) token ↔
      token = ⟨.comment, '/' :: '*' :: (spanBlock b).1⟩ := by
  rw [Rule.Takes, blockComment_iff, token_eq_iff]

theorem takes_word_iff {c : Char} {r : Text} {token : Token} (hword : startsWord c = true) :
    Rule.word.Takes (c :: r) token ↔
      token = ⟨if isKeyword (c :: r.takeWhile continuesWord) then .keyword else .plain,
        c :: r.takeWhile continuesWord⟩ := by
  rw [Rule.Takes, longestRun_iff, token_eq_iff,
    List.takeWhile_cons_of_pos (continuesWord_of_startsWord hword), and_comm]
  refine and_congr_left fun htext => ?_
  rw [htext]
  by_cases hreserved : Reserved (c :: r.takeWhile continuesWord)
  · rw [if_pos (isKeyword_iff.mpr hreserved)]
    simp [hreserved]
  · rw [if_neg (fun h => hreserved (isKeyword_iff.mp h))]
    simp [hreserved]

theorem takes_number_iff {c : Char} {r : Text} {token : Token} :
    Rule.number.Takes (c :: r) token ↔ token = ⟨.number, c :: r.takeWhile continuesNumber⟩ := by
  rw [Rule.Takes, exists_cons_iff, token_eq_iff]
  simp only [longestRun_iff, exists_eq_left]

theorem takes_single_iff {c : Char} {r : Text} {token : Token} :
    Rule.single.Takes (c :: r) token ↔ token = ⟨.plain, [c]⟩ := by
  rw [Rule.Takes, exists_cons_iff, token_eq_iff]

/-! ## The lexer follows the grammar -/

/-- One rule after the other: the first that applies is the one by which the lexer cuts. -/
theorem prescribes_cons_iff (c : Char) (r : Text) (token : Token) :
    Prescribes (c :: r) token ↔ token = (cut c r).1 := by
  unfold cut
  by_cases hblank : isBlank c
  · have hfirst : Rule.blanks.First (c :: r) := ⟨[], _, rfl, ⟨c, r, rfl, hblank⟩, by simp⟩
    rw [prescribes_iff hfirst, if_pos hblank]
    exact takes_blanks_iff hblank
  have hblank' : ¬ Rule.blanks.Applies (c :: r) := by rwa [Rule.Applies, exists_cons_iff]
  by_cases hquote : isQuote c
  · have hfirst : Rule.string.First (c :: r) :=
      ⟨[.blanks], _, rfl, ⟨c, r, rfl, hquote⟩, by simpa using hblank'⟩
    rw [prescribes_iff hfirst, if_neg hblank, if_pos hquote]
    exact takes_string_iff hquote
  have hquote' : ¬ Rule.string.Applies (c :: r) := by rwa [Rule.Applies, exists_cons_iff]
  by_cases hline : c = '-' ∧ r.head? = some '-'
  · have hfirst : Rule.lineComment.First (c :: r) :=
      ⟨[.blanks, .string], _, rfl, pair_isPrefix_iff.mpr hline, by simpa using ⟨hblank', hquote'⟩⟩
    rw [prescribes_iff hfirst, if_neg hblank, if_neg hquote, if_pos hline]
    obtain ⟨rfl, -⟩ := hline
    exact takes_lineComment_iff
  have hline' : ¬ Rule.lineComment.Applies (c :: r) := by rwa [Rule.Applies, pair_isPrefix_iff]
  by_cases hblock : c = '/' ∧ r.head? = some '*'
  · have hfirst : Rule.blockComment.First (c :: r) :=
      ⟨[.blanks, .string, .lineComment], _, rfl, pair_isPrefix_iff.mpr hblock,
        by simpa using ⟨hblank', hquote', hline'⟩⟩
    rw [prescribes_iff hfirst, if_neg hblank, if_neg hquote, if_neg hline, if_pos hblock]
    obtain ⟨rfl, hstar⟩ := hblock
    obtain ⟨r, rfl⟩ := List.head?_eq_some_iff.mp hstar
    exact takes_blockComment_iff
  have hblock' : ¬ Rule.blockComment.Applies (c :: r) := by rwa [Rule.Applies, pair_isPrefix_iff]
  rw [if_neg hblank, if_neg hquote, if_neg hline, if_neg hblock]
  by_cases hword : startsWord c
  · have hfirst : Rule.word.First (c :: r) :=
      ⟨[.blanks, .string, .lineComment, .blockComment], _, rfl, ⟨c, r, rfl, hword⟩,
        by simpa using ⟨hblank', hquote', hline', hblock'⟩⟩
    rw [prescribes_iff hfirst, if_pos hword]
    exact takes_word_iff hword
  have hword' : ¬ Rule.word.Applies (c :: r) := by rwa [Rule.Applies, exists_cons_iff]
  by_cases hnumber : isDigit c || (c == '-' && startsWithDigit r)
  · have hfirst : Rule.number.First (c :: r) :=
      ⟨[.blanks, .string, .lineComment, .blockComment, .word], _, rfl,
        applies_number_iff.mpr hnumber, by simpa using ⟨hblank', hquote', hline', hblock', hword'⟩⟩
    rw [prescribes_iff hfirst, if_neg hword, if_pos hnumber]
    exact takes_number_iff
  have hnumber' : ¬ Rule.number.Applies (c :: r) := by rwa [applies_number_iff]
  have hfirst : Rule.single.First (c :: r) :=
    ⟨[.blanks, .string, .lineComment, .blockComment, .word, .number], [], rfl,
      List.cons_ne_nil c r,
      by simpa using ⟨hblank', hquote', hline', hblock', hword', hnumber'⟩⟩
  rw [prescribes_iff hfirst, if_neg hword, if_neg hnumber]
  exact takes_single_iff

theorem not_applies_nil (rule : Rule) : ¬ rule.Applies [] := by
  cases rule <;> simp [Rule.Applies]

theorem lexes_tokens (t : Text) : Lexes t (tokens t) := by
  fun_induction tokens t with
  | case1 => exact .nil
  | case2 c r ih =>
    have h := (prescribes_cons_iff c r _).mpr rfl
    rw [← text_append_rest_cut] at h ⊢
    exact .cons h ih

/-- What is prescribed at each place fixes the rest, and so the tokens that follow. -/
theorem eq_tokens_of_lexes {t : Text} {ts : List Token} (h : Lexes t ts) : ts = tokens t := by
  induction h with
  | nil => rw [tokens]
  | @cons rest token ts hprescribed _ ih =>
    cases hcons : token.text ++ rest with
    | nil =>
      obtain ⟨rule, ⟨-, -, -, happlies, -⟩, -⟩ := hprescribed
      exact absurd happlies (hcons ▸ not_applies_nil rule)
    | cons c r =>
      rw [hcons, prescribes_cons_iff] at hprescribed
      have hrest : rest = (cut c r).2 := by
        rw [← text_append_rest_cut, hprescribed] at hcons
        exact List.append_cancel_left hcons
      rw [tokens, ih, hprescribed, hrest]

/-- Every token is the one that is prescribed for the text that remains where it starts, and
for no text but the empty one does the grammar leave the choice open. -/
theorem lexes_iff_and_prescribes_one :
    (∀ t ts, Lexes t ts ↔ ts = tokens t) ∧ ∀ t, t ≠ [] → ∃! token, Prescribes t token := by
  refine ⟨fun t ts => ⟨eq_tokens_of_lexes, ?_⟩, ?_⟩
  · intro heq
    subst heq
    exact lexes_tokens t
  · intro t ht
    obtain ⟨c, r, rfl⟩ := List.exists_cons_of_ne_nil ht
    refine ⟨(cut c r).1, (prescribes_cons_iff c r _).mpr rfl, ?_⟩
    exact fun token h => (prescribes_cons_iff c r token).mp h

end Grammar
end Query
end QueryView
