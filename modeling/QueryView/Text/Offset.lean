/-
Places in a text, given by the number of bytes before them.

Where text is kept as UTF-8, a place in it is a byte offset.  Not every offset is a place:
one that lies beyond the end or inside a character is none, and to cut the text there is an
error.  The functions below answer with `none` in that case, so whoever uses them has to
show that it does not occur.
-/
import Mathlib.Data.String.Basic
import QueryView.Text.Basic

namespace QueryView
namespace Text

open String (utf8Len)

def dropBytes? : Text → Nat → Option Text
  | t, 0 => some t
  | [], _ + 1 => none
  | c :: t, n + 1 =>
    if c.utf8Size ≤ n + 1 then dropBytes? t (n + 1 - c.utf8Size) else none

def takeBytes? : Text → Nat → Option Text
  | _, 0 => some []
  | [], _ + 1 => none
  | c :: t, n + 1 =>
    if c.utf8Size ≤ n + 1 then (takeBytes? t (n + 1 - c.utf8Size)).map (c :: ·) else none

def slice? (t : Text) (start stop : Nat) : Option Text :=
  if start ≤ stop then (t.dropBytes? start).bind fun r => r.takeBytes? (stop - start) else none

/-- The character at an offset.  There is none at the end, nor where there is no place. -/
def charAt? (t : Text) (n : Nat) : Option Char := (t.dropBytes? n).bind List.head?

def findChar? (p : Char → Bool) : Text → Option Nat
  | [] => none
  | c :: t => if p c then some 0 else (findChar? p t).map (· + c.utf8Size)

/-- The offset at which a word occurs first. -/
def findWord? (word : Text) : Text → Option Nat
  | [] => if word.isEmpty then some 0 else none
  | c :: t =>
    if word.isPrefixOf (c :: t) then some 0 else (findWord? word t).map (· + c.utf8Size)

/-! ## Cutting at places -/

theorem dropBytes?_zero (t : Text) : dropBytes? t 0 = some t := by cases t <;> rfl

theorem takeBytes?_zero (t : Text) : takeBytes? t 0 = some [] := by cases t <;> rfl

/-- A character is passed as a whole or not at all. -/
theorem dropBytes?_cons (c : Char) (t : Text) (n : Nat) :
    dropBytes? (c :: t) (n + c.utf8Size) = dropBytes? t n := by
  have hc := c.utf8Size_pos
  obtain ⟨m, hm⟩ : ∃ m, n + c.utf8Size = m + 1 := ⟨n + c.utf8Size - 1, by omega⟩
  rw [hm, dropBytes?, if_pos (by omega)]
  congr 1
  omega

theorem takeBytes?_cons (c : Char) (t : Text) (n : Nat) :
    takeBytes? (c :: t) (n + c.utf8Size) = (takeBytes? t n).map (c :: ·) := by
  have hc := c.utf8Size_pos
  obtain ⟨m, hm⟩ : ∃ m, n + c.utf8Size = m + 1 := ⟨n + c.utf8Size - 1, by omega⟩
  rw [hm, takeBytes?, if_pos (by omega)]
  congr 2
  omega

/-- The end of every front of a text is a place. -/
@[simp] theorem dropBytes?_append (s t : Text) : dropBytes? (s ++ t) (utf8Len s) = some t := by
  induction s with
  | nil => exact dropBytes?_zero t
  | cons c s ih => rw [List.cons_append, String.utf8Len_cons, dropBytes?_cons, ih]

theorem takeBytes?_append (s t : Text) : takeBytes? (s ++ t) (utf8Len s) = some s := by
  induction s with
  | nil => exact takeBytes?_zero t
  | cons c s ih =>
    rw [List.cons_append, String.utf8Len_cons, takeBytes?_cons, ih]
    rfl

@[simp] theorem slice?_append (s t r : Text) :
    slice? (s ++ (t ++ r)) (utf8Len s) (utf8Len s + utf8Len t) = some t := by
  rw [slice?, if_pos (by omega), dropBytes?_append, Option.bind_some, Nat.add_sub_cancel_left,
    takeBytes?_append]

@[simp] theorem charAt?_append (s t : Text) : charAt? (s ++ t) (utf8Len s) = t.head? := by
  rw [charAt?, dropBytes?_append, Option.bind_some]

/-- Conversely, a place at which something is left ends a front of the text. -/
theorem eq_append_of_dropBytes? {t r : Text} {n : Nat} (h : dropBytes? t n = some r) :
    ∃ s, t = s ++ r ∧ utf8Len s = n := by
  induction t generalizing n with
  | nil =>
    cases n with
    | zero =>
      cases h
      exact ⟨[], rfl, rfl⟩
    | succ n => cases h
  | cons c t ih =>
    cases n with
    | zero =>
      cases h
      exact ⟨[], rfl, rfl⟩
    | succ n =>
      rw [dropBytes?] at h
      split at h
      · next hc =>
        obtain ⟨s, hs, hn⟩ := ih h
        refine ⟨c :: s, by rw [hs, List.cons_append], ?_⟩
        rw [String.utf8Len_cons]
        omega
      · cases h

theorem add_utf8Size_le_of_charAt? {t : Text} {n : Nat} {c : Char} (h : charAt? t n = some c) :
    n + c.utf8Size ≤ utf8Len t := by
  obtain ⟨r, hr, hc⟩ := Option.bind_eq_some_iff.mp h
  obtain ⟨s, rfl, rfl⟩ := eq_append_of_dropBytes? hr
  cases r with
  | nil => cases hc
  | cons d r =>
    cases hc
    rw [String.utf8Len_append, String.utf8Len_cons]
    omega

/-! ## Searching -/

/-- The first character that is not in a class ends the longest front of the text in it. -/
theorem findChar?_not (p : Char → Bool) (t : Text) :
    (findChar? (fun c => !p c) t).getD (utf8Len t) = utf8Len (t.takeWhile p) := by
  induction t with
  | nil => rfl
  | cons c t ih =>
    cases hp : p c with
    | false => simp [findChar?, hp]
    | true =>
      rw [findChar?, List.takeWhile_cons_of_pos hp, String.utf8Len_cons, String.utf8Len_cons, ← ih]
      cases h : findChar? (fun c => !p c) t <;> simp [hp]

end Text
end QueryView
