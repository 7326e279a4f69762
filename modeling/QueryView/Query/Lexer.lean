/-
Cutting a query into tokens.

The lexer reads from left to right and never goes back.  At each position the
first rule that applies takes the front of the text: a run of blanks, a quoted
string, a comment, a word, a number, or a single character.  Each rule answers
with what it takes and what it leaves, and the two make up the text again
(`text_append_rest_cut`); since a rule takes at least one character, cutting ends
(`length_rest_cut_lt`), and the tokens of a text concatenate to that text
(`concat_tokens`).
-/
import QueryView.Query.Keyword
import QueryView.Style.TokenClass

namespace QueryView
namespace Query

/-! ## Character classes -/

def startsWord (c : Char) : Bool := Text.isLetter c || c == '_'

/-- A word goes on with ASCII letters, digits and underscores. -/
def continuesWord (c : Char) : Bool := Text.isLetter c || Text.isDigit c || c == '_'

theorem continuesWord_of_startsWord {c : Char} (h : startsWord c = true) :
    continuesWord c = true := by
  simp only [startsWord, continuesWord, Bool.or_eq_true] at h ⊢
  rcases h with h | h
  · exact .inl (.inl h)
  · exact .inr h

def continuesNumber (c : Char) : Bool := Text.isDigit c || c == '.' || c == '_'

def isQuote (c : Char) : Bool := c == '\'' || c == '"'

def startsWithDigit : Text → Bool
  | c :: _ => Text.isDigit c
  | [] => false

/-! ## What a rule takes

Each function below takes the front of a text that follows the characters which
selected the rule, and returns it with the rest. -/

/-- The longest front of a text whose characters all satisfy `p`, and the rest. -/
def spanWhile (p : Char → Bool) (t : Text) : Text × Text := (t.takeWhile p, t.dropWhile p)

/-- The part of a string after its opening quote `q`, up to and with the closing
one.  A backslash takes the next character with it whatever it is, and a doubled
quote stands for one quote inside the string.  A string that is never closed
takes everything. -/
def spanString (q : Char) : Text → Text × Text
  | [] => ([], [])
  | [c] => ([c], [])
  | c :: d :: r =>
    if c = '\\' ∨ (c = q ∧ d = q) then
      (c :: d :: (spanString q r).1, (spanString q r).2)
    else if c = q then ([c], d :: r)
    else (c :: (spanString q (d :: r)).1, (spanString q (d :: r)).2)

/-- The part of a block comment after its opening mark, up to and with the first
closing mark, or everything if there is none. -/
def spanBlock : Text → Text × Text
  | [] => ([], [])
  | [c] => ([c], [])
  | c :: d :: r =>
    if c = '*' ∧ d = '/' then ([c, d], r)
    else (c :: (spanBlock (d :: r)).1, (spanBlock (d :: r)).2)

/-! ## One token -/

/-- The first token of the text `c :: r`, and what it leaves. -/
def cut (c : Char) (r : Text) : Token × Text :=
  if Text.isBlank c then
    let (word, rest) := spanWhile Text.isBlank r
    (⟨.plain, c :: word⟩, rest)
  else if isQuote c then
    let (body, rest) := spanString c r
    (⟨.string, c :: body⟩, rest)
  else if c = '-' ∧ r.head? = some '-' then
    let (body, rest) := spanWhile (· != '\n') r
    (⟨.comment, c :: body⟩, rest)
  else if c = '/' ∧ r.head? = some '*' then
    let (body, rest) := spanBlock r.tail
    (⟨.comment, '/' :: '*' :: body⟩, rest)
  else if startsWord c then
    let (word, rest) := spanWhile continuesWord r
    (⟨if isKeyword (c :: word) then .keyword else .plain, c :: word⟩, rest)
  else if Text.isDigit c || (c == '-' && startsWithDigit r) then
    let (digits, rest) := spanWhile continuesNumber r
    (⟨.number, c :: digits⟩, rest)
  else (⟨.plain, [c]⟩, r)

theorem pair_isPrefix_iff {a b c : Char} {r : Text} :
    [a, b] <+: c :: r ↔ c = a ∧ r.head? = some b := by
  rw [List.cons_prefix_cons]
  constructor
  · intro hex
    obtain ⟨rfl, s, rfl⟩ := hex
    exact ⟨rfl, rfl⟩
  · intro hex
    obtain ⟨rfl, h⟩ := hex
    obtain ⟨s, rfl⟩ := List.head?_eq_some_iff.mp h
    exact ⟨rfl, s, rfl⟩

/-! ## Nothing is lost -/

theorem spanString_append (q : Char) (t : Text) :
    (spanString q t).1 ++ (spanString q t).2 = t := by
  fun_induction spanString q t <;> simp_all

theorem spanBlock_append (t : Text) : (spanBlock t).1 ++ (spanBlock t).2 = t := by
  fun_induction spanBlock t <;> simp_all

/-- A token and what it leaves make up the text it was cut from. -/
theorem text_append_rest_cut (c : Char) (r : Text) :
    (cut c r).1.text ++ (cut c r).2 = c :: r := by
  unfold cut
  split
  · simp [spanWhile]
  split
  · simp [spanString_append]
  split
  · simp [spanWhile]
  split
  · next h =>
    obtain ⟨rfl, h⟩ := h
    match r, h with
    | d :: r, h =>
      obtain rfl : d = '*' := by simpa using h
      simp [spanBlock_append]
  split
  · simp [spanWhile]
  split
  · simp [spanWhile]
  · simp

theorem text_cut_ne_nil (c : Char) (r : Text) : (cut c r).1.text ≠ [] := by
  unfold cut
  repeat' split
  all_goals simp

/-- What a token leaves is shorter than what it was cut from. -/
theorem length_rest_cut_lt (c : Char) (r : Text) : (cut c r).2.length < (c :: r).length := by
  have h := congrArg List.length (text_append_rest_cut c r)
  have hne := List.length_pos_iff.mpr (text_cut_ne_nil c r)
  simp only [List.length_append] at h
  omega

/-! ## All tokens -/

def tokens : Text → List Token
  | [] => []
  | c :: r => (cut c r).1 :: tokens (cut c r).2
termination_by t => t.length
decreasing_by exact length_rest_cut_lt c r

theorem concat_tokens (t : Text) : Token.concat (tokens t) = t := by
  fun_induction tokens t with
  | case1 => rfl
  | case2 c r ih =>
    show (cut c r).1.text ++ Token.concat (tokens (cut c r).2) = c :: r
    rw [ih, text_append_rest_cut]

end Query
end QueryView
