/-
The lexical elements of JSON.

A JSON source is a sequence of lexemes with blanks between them: six marks, three
literals, numbers and strings.  `Lexeme.cut?` takes the first one from a text that
starts with it, and `lexemes?` takes them all; both answer `none` at a place where
no lexeme stands.  The grammar is that of RFC 8259: four blanks, no character
below U+0020 inside a string, and any four hexadecimal digits after `\u`.
-/
import QueryView.Json.Value

namespace QueryView
namespace Json

inductive Lexeme where
  | openArray
  | closeArray
  | openObject
  | closeObject
  | comma
  | colon
  | null
  | bool (b : Bool)
  | number (source : Text)
  | string (s : Spelling)
  deriving DecidableEq

/-- The characters that may stand between lexemes. -/
def isSpace (c : Char) : Bool := c == ' ' || c == '\t' || c == '\n' || c == '\r'

/-! ## Strings -/

/-- The character that a short escape stands for, by the letter after the backslash. -/
def shortEscape? : Char → Option Char
  | '"' => some '"'
  | '\\' => some '\\'
  | '/' => some '/'
  | 'b' => some '\x08'
  | 'f' => some '\x0c'
  | 'n' => some '\n'
  | 'r' => some '\r'
  | 't' => some '\t'
  | _ => none

def fourDigits? (a b c d : Char) : Option Nat :=
  match Text.hexValue? a, Text.hexValue? b, Text.hexValue? c, Text.hexValue? d with
  | some w, some x, some y, some z => some (((w * 16 + x) * 16 + y) * 16 + z)
  | _, _, _, _ => none

/-- The first unit of a string, and what follows it. -/
def cutUnit? : Text → Option (StringUnit × Text)
  | '\\' :: 'u' :: a :: b :: c :: d :: r => (fourDigits? a b c d).map fun n => (.code n, r)
  | '\\' :: e :: r => (shortEscape? e).map fun c => (.scalar c, r)
  | c :: r => if c = '\\' ∨ c = '"' ∨ c.toNat < 0x20 then none else some (.scalar c, r)
  | [] => none

theorem length_cutUnit? {t r : Text} {u : StringUnit} (h : cutUnit? t = some (u, r)) :
    r.length < t.length := by
  unfold cutUnit? at h
  split at h
  · obtain ⟨_, _, h⟩ := Option.map_eq_some_iff.mp h
    obtain ⟨-, rfl⟩ := Prod.mk.injEq _ _ _ _ ▸ h
    simp only [List.length_cons]; omega
  · obtain ⟨_, _, h⟩ := Option.map_eq_some_iff.mp h
    obtain ⟨-, rfl⟩ := Prod.mk.injEq _ _ _ _ ▸ h
    simp only [List.length_cons]; omega
  · split at h
    · cases h
    · cases h; simp
  · cases h

/-- The units of a string after its opening quote, and what follows its closing one. -/
def cutString? (t : Text) : Option (Spelling × Text) :=
  if t.head? = some '"' then some ([], t.tail)
  else
    match _h : cutUnit? t with
    | none => none
    | some (u, r) => (cutString? r).map fun s => (u :: s.1, s.2)
termination_by t.length
decreasing_by exact length_cutUnit? _h

/-! ## Numbers -/

/-- The whole part of a number: a zero, or digits that do not start with one. -/
def cutWhole? : Text → Option (Text × Text)
  | [] => none
  | c :: r =>
    if c = '0' then some ([c], r)
    else if Text.isDigit c then some (c :: r.takeWhile Text.isDigit, r.dropWhile Text.isDigit)
    else none

def cutDigits? (t : Text) : Option (Text × Text) :=
  if (t.takeWhile Text.isDigit).isEmpty then none
  else some (t.takeWhile Text.isDigit, t.dropWhile Text.isDigit)

def cutFraction? : Text → Option (Text × Text)
  | '.' :: r => (cutDigits? r).map fun d => ('.' :: d.1, d.2)
  | t => some ([], t)

/-- The sign of an exponent, which may be absent. -/
def cutSign : Text → Text × Text
  | '+' :: r => (['+'], r)
  | '-' :: r => (['-'], r)
  | t => ([], t)

/-- The exponent of a number, which may be absent: a letter, a sign, and digits. -/
def cutExponent? : Text → Option (Text × Text)
  | [] => some ([], [])
  | c :: r =>
    if c = 'e' ∨ c = 'E' then
      (cutDigits? (cutSign r).2).map fun d => (c :: ((cutSign r).1 ++ d.1), d.2)
    else some ([], c :: r)

def cutUnsigned? (t : Text) : Option (Text × Text) := do
  let (whole, t) ← cutWhole? t
  let (fraction, t) ← cutFraction? t
  let (exponent, t) ← cutExponent? t
  return (whole ++ (fraction ++ exponent), t)

def cutNumber? : Text → Option (Text × Text)
  | '-' :: r => (cutUnsigned? r).map fun n => ('-' :: n.1, n.2)
  | t => cutUnsigned? t

/-! A number is taken as it stands: its parts and what follows them make up the
text they were cut from. -/

theorem cutDigits?_append {t a r : Text} (h : cutDigits? t = some (a, r)) : a ++ r = t := by
  unfold cutDigits? at h
  split at h
  · cases h
  · cases h; exact List.takeWhile_append_dropWhile

theorem cutWhole?_append {t a r : Text} (h : cutWhole? t = some (a, r)) :
    a ++ r = t ∧ a ≠ [] := by
  unfold cutWhole? at h
  split at h
  · cases h
  · split at h
    · cases h; simp
    · split at h
      · cases h; simp
      · cases h

theorem cutFraction?_append {t a r : Text} (h : cutFraction? t = some (a, r)) : a ++ r = t := by
  unfold cutFraction? at h
  split at h
  · obtain ⟨d, hd, h⟩ := Option.map_eq_some_iff.mp h
    cases h
    simp [cutDigits?_append hd]
  · cases h; rfl

theorem cutSign_append (t : Text) : (cutSign t).1 ++ (cutSign t).2 = t := by
  unfold cutSign
  split <;> rfl

theorem cutExponent?_append {t a r : Text} (h : cutExponent? t = some (a, r)) : a ++ r = t := by
  unfold cutExponent? at h
  split at h
  · cases h; rfl
  · split at h
    · obtain ⟨d, hd, h⟩ := Option.map_eq_some_iff.mp h
      cases h
      simp [cutDigits?_append hd, cutSign_append]
    · cases h; rfl

theorem cutUnsigned?_append {t a r : Text} (h : cutUnsigned? t = some (a, r)) :
    a ++ r = t ∧ a ≠ [] := by
  simp only [cutUnsigned?, bind, Option.bind_eq_some_iff, pure, Option.some.injEq,
    Prod.mk.injEq] at h
  obtain ⟨⟨whole, t₁⟩, hw, ⟨fraction, t₂⟩, hf, ⟨exponent, t₃⟩, he, rfl, rfl⟩ := h
  obtain ⟨rfl, hne⟩ := cutWhole?_append hw
  obtain rfl := cutFraction?_append hf
  obtain rfl := cutExponent?_append he
  simp [hne]

theorem cutNumber?_append {t a r : Text} (h : cutNumber? t = some (a, r)) :
    a ++ r = t ∧ a ≠ [] := by
  unfold cutNumber? at h
  split at h
  · obtain ⟨n, hn, h⟩ := Option.map_eq_some_iff.mp h
    cases h
    simp [(cutUnsigned?_append hn).1]
  · exact cutUnsigned?_append h

/-! ## Lexemes -/

/-- The rest of a text that starts with `word`. -/
def dropWord? : Text → Text → Option Text
  | [], t => some t
  | c :: word, d :: t => if c = d then dropWord? word t else none
  | _ :: _, [] => none

def Lexeme.cut? : Text → Option (Lexeme × Text)
  | [] => none
  | '[' :: r => some (.openArray, r)
  | ']' :: r => some (.closeArray, r)
  | '{' :: r => some (.openObject, r)
  | '}' :: r => some (.closeObject, r)
  | ',' :: r => some (.comma, r)
  | ':' :: r => some (.colon, r)
  | '"' :: r => (cutString? r).map fun s => (.string s.1, s.2)
  | 'n' :: r => (dropWord? "ull".toList r).map fun rest => (.null, rest)
  | 't' :: r => (dropWord? "rue".toList r).map fun rest => (.bool true, rest)
  | 'f' :: r => (dropWord? "alse".toList r).map fun rest => (.bool false, rest)
  | t => (cutNumber? t).map fun n => (.number n.1, n.2)

theorem length_cutString? {t r : Text} {s : Spelling} (h : cutString? t = some (s, r)) :
    r.length ≤ t.length := by
  fun_induction cutString? t generalizing s with
  | case1 => cases h; simp
  | case2 => cases h
  | case3 t _ u rest hu ih =>
    obtain ⟨⟨s', r'⟩, hs, h⟩ := Option.map_eq_some_iff.mp h
    cases h
    have := ih hs
    have := length_cutUnit? hu
    omega

theorem dropWord?_append {word t r : Text} (h : dropWord? word t = some r) : word ++ r = t := by
  fun_induction dropWord? word t with
  | case1 => cases h; rfl
  | case2 => simp_all
  | case3 => cases h
  | case4 => cases h

theorem Lexeme.length_cut? {t r : Text} {l : Lexeme} (h : Lexeme.cut? t = some (l, r)) :
    r.length < t.length := by
  unfold Lexeme.cut? at h
  split at h
  case h_1 => cases h
  case h_8 =>
    obtain ⟨⟨s, r'⟩, hs, h⟩ := Option.map_eq_some_iff.mp h
    cases h
    have := length_cutString? hs
    simp only [List.length_cons]; omega
  case h_12 =>
    obtain ⟨⟨a, r'⟩, hn, h⟩ := Option.map_eq_some_iff.mp h
    cases h
    obtain ⟨rfl, hne⟩ := cutNumber?_append hn
    have := List.length_pos_iff.mpr hne
    simp only [List.length_append]; omega
  case h_9 | h_10 | h_11 =>
    obtain ⟨r', hw, h⟩ := Option.map_eq_some_iff.mp h
    cases h
    simp only [← dropWord?_append hw, List.length_cons, List.length_append]; omega
  all_goals cases h; simp

/-- The lexemes of a text, or nothing if a part of it belongs to none. -/
def lexemes? : Text → Option (List Lexeme)
  | [] => some []
  | c :: r =>
    if isSpace c then lexemes? r
    else
      match _h : Lexeme.cut? (c :: r) with
      | none => none
      | some (l, rest) => (lexemes? rest).map (l :: ·)
termination_by t => t.length
decreasing_by
  · simp
  · exact Lexeme.length_cut? _h

end Json
end QueryView
