/-
TOML strings.

There are four kinds: on one line or on several, and with escapes or without.  Strings
with escapes stand between quotation marks, literal ones between apostrophes; three
marks open and close a string on several lines.  Such a string may hold one or two of
its marks anywhere, also just before the three that close it.  A line end after the
opening marks is not part of the string, and every other line end in it is a line feed.

Each function below reads from just after the opening marks and returns the string with
what follows the closing ones.
-/
import QueryView.Toml.Blank

namespace QueryView
namespace Toml

/-! ## Escapes -/

def scalar? (n : Nat) : Option Char :=
  if n < 0xD800 ∨ (0xDFFF < n ∧ n < 0x110000) then some (Char.ofNat n) else none

/-- The number of a fixed count of hexadecimal digits, read on from `value`. -/
def hexNumber? : Nat → Nat → Text → Option (Nat × Text)
  | 0, value, t => some (value, t)
  | _ + 1, _, [] => none
  | count + 1, value, c :: r =>
    match Text.hexValue? c with
    | some digit => hexNumber? count (16 * value + digit) r
    | none => none

/-- The character that a short escape stands for, by the letter after the backslash. -/
def shortEscape? : Char → Option Char
  | 'b' => some '\x08'
  | 't' => some '\t'
  | 'n' => some '\n'
  | 'f' => some '\x0c'
  | 'r' => some '\r'
  | '"' => some '"'
  | '\\' => some '\\'
  | _ => none

def hexScalar? (count : Nat) (t : Text) : Option (Char × Text) :=
  match hexNumber? count 0 t with
  | some (n, r) => (scalar? n).map fun c => (c, r)
  | none => none

/-- The character that an escape stands for, after its backslash. -/
def escape? : Text → Option (Char × Text)
  | [] => none
  | c :: r =>
    if c = 'u' then hexScalar? 4 r
    else if c = 'U' then hexScalar? 8 r
    else (shortEscape? c).map fun e => (e, r)

theorem length_hexNumber? {count value : Nat} {t : Text} {n : Nat} {r : Text}
    (h : hexNumber? count value t = some (n, r)) : r.length ≤ t.length := by
  fun_induction hexNumber? count value t with
  | case1 => cases h; exact Nat.le_refl _
  | case2 => cases h
  | case3 _ _ _ _ _ _ ih => exact Nat.le_succ_of_le (ih h)
  | case4 => cases h

theorem length_hexScalar? {count : Nat} {t r : Text} {c : Char}
    (h : hexScalar? count t = some (c, r)) : r.length ≤ t.length := by
  unfold hexScalar? at h
  split at h
  · next hn =>
    obtain ⟨_, _, h⟩ := Option.map_eq_some_iff.mp h
    cases h
    exact length_hexNumber? hn
  · cases h

theorem length_escape? {t r : Text} {c : Char} (h : escape? t = some (c, r)) :
    r.length < t.length := by
  unfold escape? at h
  split at h
  · cases h
  · split at h
    · exact Nat.lt_succ_of_le (length_hexScalar? h)
    · split at h
      · exact Nat.lt_succ_of_le (length_hexScalar? h)
      · obtain ⟨_, _, h⟩ := Option.map_eq_some_iff.mp h
        cases h
        simp

/-! ## Strings on one line -/

def basic? : Text → Option (Text × Text)
  | [] => none
  | c :: r =>
    if c = '"' then some ([], r)
    else if c = '\\' then
      match _h : escape? r with
      | some (e, r') => (basic? r').map fun s => (e :: s.1, s.2)
      | none => none
    else if isVisible c then (basic? r).map fun s => (c :: s.1, s.2)
    else none
termination_by t => t.length
decreasing_by
  · exact Nat.lt_succ_of_lt (length_escape? _h)
  · simp

def literal? : Text → Option (Text × Text)
  | [] => none
  | c :: r =>
    if c = '\'' then some ([], r)
    else if isVisible c then (literal? r).map fun s => (c :: s.1, s.2)
    else none

/-! ## Strings on several lines -/

/-- What follows two of the marks `q`, if a text starts with them. -/
def pair? (q : Char) : Text → Option Text
  | c :: d :: r => if c = q ∧ d = q then some r else none
  | _ => none

/-- What a string ends with that is closed by three of the marks `q`, given what follows
the first three: up to two marks more belong to the string. -/
def closing (q : Char) : Text → Text × Text
  | c :: d :: r => if c = q then if d = q then ([q, q], r) else ([q], d :: r) else ([], c :: d :: r)
  | [c] => if c = q then ([q], []) else ([], [c])
  | [] => ([], [])

/-- The text without blanks and line ends at its start. -/
def skipLines : Text → Text
  | [] => []
  | c :: r =>
    if isSpace c || c == '\n' then skipLines r
    else if c = '\r' then
      match r with
      | '\n' :: r' => skipLines r'
      | _ => c :: r
    else c :: r

/-- What follows a line end that a backslash takes out of a string, with all blanks
and line ends after it. -/
def joined? (t : Text) : Option Text := (afterNewline? (skipSpaces t)).map skipLines

theorem length_skipLines (t : Text) : (skipLines t).length ≤ t.length := by
  fun_induction skipLines t <;> (try simp only [List.length_cons]) <;> omega

theorem length_afterNewline? {t r : Text} (h : afterNewline? t = some r) :
    r.length < t.length := by
  unfold afterNewline? at h
  split at h
  · cases h; simp
  · cases h; simp only [List.length_cons]; omega
  · cases h

theorem length_joined? {t r : Text} (h : joined? t = some r) : r.length < t.length := by
  obtain ⟨s, hs, rfl⟩ := Option.map_eq_some_iff.mp h
  have h₁ := length_skipLines s
  have h₂ := length_afterNewline? hs
  have h₃ : (skipSpaces t).length ≤ t.length := (List.dropWhile_sublist _).length_le
  omega

def multilineBasic? : Text → Option (Text × Text)
  | [] => none
  | c :: r =>
    if c = '"' then
      match pair? '"' r with
      | some r' => some (closing '"' r')
      | none => (multilineBasic? r).map fun s => (c :: s.1, s.2)
    else if c = '\\' then
      match _h : joined? r with
      | some r' => multilineBasic? r'
      | none =>
        match _h' : escape? r with
        | some (e, r') => (multilineBasic? r').map fun s => (e :: s.1, s.2)
        | none => none
    else if c = '\r' ∧ r.head? = some '\n' then
      (multilineBasic? r.tail).map fun s => ('\n' :: s.1, s.2)
    else if c = '\n' ∨ isVisible c then (multilineBasic? r).map fun s => (c :: s.1, s.2)
    else none
termination_by t => t.length
decreasing_by
  · simp
  · exact Nat.lt_succ_of_lt (length_joined? _h)
  · exact Nat.lt_succ_of_lt (length_escape? _h')
  · simp only [List.length_tail, List.length_cons]; omega
  · simp

def multilineLiteral? : Text → Option (Text × Text)
  | [] => none
  | c :: r =>
    if c = '\'' then
      match pair? '\'' r with
      | some r' => some (closing '\'' r')
      | none => (multilineLiteral? r).map fun s => (c :: s.1, s.2)
    else if c = '\r' then
      match r with
      | '\n' :: r' => (multilineLiteral? r').map fun s => ('\n' :: s.1, s.2)
      | _ => none
    else if c = '\n' ∨ isVisible c then (multilineLiteral? r).map fun s => (c :: s.1, s.2)
    else none

/-- The text without the line end that it may start with. -/
def dropNewline (t : Text) : Text := (afterNewline? t).getD t

/-- A string of any kind, from its opening marks on. -/
def string? : Text → Option (Text × Text)
  | '"' :: '"' :: '"' :: r => multilineBasic? (dropNewline r)
  | '\'' :: '\'' :: '\'' :: r => multilineLiteral? (dropNewline r)
  | '"' :: r => basic? r
  | '\'' :: r => literal? r
  | _ => none

end Toml
end QueryView
