/-
Marks and the characters that they belong to.

A mark takes no column, so it fits wherever the character before it did, and one would expect
that it is never put on another line.  There is one exception.  A character that is wider than
all the columns there are is placed at the start of a line and goes past the limit; so does
whatever comes next, even if it takes no column itself.  A column past the limit tells that the
character before it was of this kind and nothing else (`limit_lt_column_iff`), since everything
else that goes past the limit starts a new line first.

The main theorem, `mark_is_torn_off_iff_base_fits_no_line`, says what is laid out around a mark,
for every place in every text.  As no character takes more than three columns, three columns
beside the margin are enough for marks to be safe.
-/
import Mathlib.Data.List.Basic
import QueryView.Proofs.Terminal.Lines

namespace QueryView
namespace Terminal

open Text (width)

namespace Ruler

/-- The character goes past the limit at the start of a line. -/
def FitsNoLine (r : Ruler) (c : Char) : Prop := 0 < r.limit ∧ r.limit < width c

/-- The last character of the text fits on no line. -/
def EndsTooWide (r : Ruler) (t : Text) : Prop := ∃ c, t.getLast? = some c ∧ r.FitsNoLine c

variable {r : Ruler} {mark : Char}

theorem layOut_concat (r : Ruler) (column : Nat) (t : Text) (c : Char) :
    r.layOut column (t ++ [c]) = ((r.layOut column t).1 ++ (r.place (r.layOut column t).2 c).1,
      (r.place (r.layOut column t).2 c).2) := by
  rw [layOut_append, layOut_singleton]

/-- A line goes past the limit only by a character that fits on no line. -/
theorem limit_lt_column_iff (hlimit : 0 < r.limit) (t : Text) :
    r.limit < (r.layOut 0 t).2 ↔ r.EndsTooWide t := by
  rcases List.eq_nil_or_concat' t with rfl | ⟨s, c, rfl⟩
  · constructor
    · intro h
      exact absurd h (Nat.not_lt_zero _)
    · rintro ⟨c, hc, -⟩
      cases hc
  rw [EndsTooWide, List.getLast?_concat]
  simp only [Option.some.injEq, exists_eq_left', FitsNoLine, hlimit, true_and]
  rw [layOut_concat]
  by_cases hc : c = '\n'
  · subst hc
    have hone : width '\n' = 1 := by decide
    rw [place_newline, hone]
    show r.limit < 0 ↔ r.limit < 1
    omega
  · cases hover : r.overflows (r.layOut 0 s).2 c
    · rw [place_of_fits hc hover]
      -- At the start of a line anything is placed, and elsewhere only what fits.
      rw [← Bool.not_eq_true, overflows_iff hlimit] at hover
      show r.limit < (r.layOut 0 s).2 + width c ↔ r.limit < width c
      omega
    · rw [place_of_overflows hc hover]

theorem ne_newline_of_width (hmark : width mark = 0) : mark ≠ '\n' := by
  rintro rfl
  exact absurd hmark (by decide)

/-- A mark goes past the limit if the line did before it. -/
theorem overflows_mark_iff (hmark : width mark = 0) (t : Text) :
    r.overflows (r.layOut 0 t).2 mark = true ↔ r.EndsTooWide t := by
  by_cases hlimit : 0 < r.limit
  · rw [overflows_iff hlimit, hmark, ← limit_lt_column_iff hlimit]
    omega
  · constructor
    · intro hover
      exact absurd (of_decide_eq_true hover).1 hlimit
    · rintro ⟨c, -, hpos, -⟩
      exact absurd hpos hlimit

variable {s t : Text}

/-- What is laid out around a mark of a text. -/
theorem layOut_around (r : Ruler) (s t : Text) (mark : Char) :
    (r.layOut 0 (s ++ mark :: t)).1 = (r.layOut 0 s).1 ++
      ((r.place (r.layOut 0 s).2 mark).1 ++ (r.layOut (r.layOut 0 (s ++ [mark])).2 t).1) := by
  rw [List.append_cons, layOut_append, layOut_concat, List.append_assoc]

theorem layOut_around_torn (hmark : width mark = 0) (htorn : r.EndsTooWide s) :
    (r.layOut 0 (s ++ mark :: t)).1 = (r.layOut 0 s).1 ++
      (r.newLine ++ mark :: (r.layOut (r.layOut 0 (s ++ [mark])).2 t).1) := by
  rw [layOut_around, place_of_overflows (ne_newline_of_width hmark)
    ((overflows_mark_iff hmark s).mpr htorn), List.append_assoc]
  rfl

theorem layOut_around_whole (hmark : width mark = 0) (hwhole : ¬ r.EndsTooWide s) :
    (r.layOut 0 (s ++ mark :: t)).1 = (r.layOut 0 s).1 ++
      mark :: (r.layOut (r.layOut 0 (s ++ [mark])).2 t).1 := by
  have hfits := Bool.eq_false_iff.mpr (mt (overflows_mark_iff hmark s).mp hwhole)
  rw [layOut_around, place_of_fits (ne_newline_of_width hmark) hfits]
  rfl

/-- It can be seen whether there is a line end and a margin in front of a mark. -/
theorem append_newLine_ne (r : Ruler) (before after : Text) :
    before ++ (r.newLine ++ after) ≠ before ++ after := by
  intro h
  have hlength := congrArg List.length (List.append_cancel_left h)
  simp only [newLine, List.length_append, List.length_cons] at hlength
  omega

/-- Three columns are enough for every character. -/
theorem not_endsTooWide (hroom : r.limit = 0 ∨ 3 ≤ r.limit) : ¬ r.EndsTooWide s := by
  rintro ⟨c, -, hpos, hwide⟩
  have hthree := Text.width_le_three c
  omega

end Ruler

/-- A line end is put in front of a mark if and only if the character before it is wider than
the limit; then and only then a margin stands there as well, and otherwise the mark stands where
it stood.  This is so in every run of a frame, with escapes or without, and it does not happen if
there is no limit or one of three columns or more. -/
theorem mark_is_torn_off_iff_base_fits_no_line {runs : RunSequence} {s t : Text} {mark : Char}
    (htext : RunSequence.text runs = s ++ mark :: t) (hmark : width mark = 0) (wrapWidth : Nat)
    (layout : Layout) :
    let r := Ruler.ofLayout wrapWidth layout
    let before := (r.layOut 0 s).1
    let after := (r.layOut (r.layOut 0 (s ++ [mark])).2 t).1
    (∀ escapes, frame escapes wrapWidth layout runs =
      r.margin ++ (r.layOutRuns 0 runs).flatMap (paint escapes)) ∧
    (RunSequence.text (r.layOutRuns 0 runs) = before ++ (r.newLine ++ mark :: after) ↔
      r.EndsTooWide s) ∧
    (RunSequence.text (r.layOutRuns 0 runs) = before ++ mark :: after ↔ ¬ r.EndsTooWide s) ∧
    (r.limit = 0 ∨ 3 ≤ r.limit → ¬ r.EndsTooWide s) := by
  intro r before after
  have hshown : RunSequence.text runs ≠ [] := by
    rw [htext]
    exact List.append_ne_nil_of_right_ne_nil _ (List.cons_ne_nil _ _)
  have hne := r.append_newLine_ne before (mark :: after)
  rw [r.text_layOutRuns, htext]
  refine ⟨fun escapes => frame_of_shown hshown escapes wrapWidth layout, ⟨fun htorn => ?_, fun h =>
    Ruler.layOut_around_torn hmark h⟩, ⟨fun hwhole h => ?_, fun h =>
    Ruler.layOut_around_whole hmark h⟩, Ruler.not_endsTooWide⟩
  · refine Classical.byContradiction fun h => hne ?_
    rw [← htorn]
    exact Ruler.layOut_around_whole hmark h
  · refine hne ?_
    rw [← hwhole]
    exact (Ruler.layOut_around_torn hmark h).symm

/-- One column beside a margin of one: the mark is the first character of its run, and the base
the last of the run before. -/
theorem mark_of_the_next_run_is_torn_off :
    let layout : Layout := { Layout.standard with padding := 1 }
    let runs : RunSequence :=
      [⟨"x日".toList, Color.black, true⟩, ⟨"\u0301y".toList, Color.white, false⟩]
    let r := Ruler.ofLayout 2 layout
    RunSequence.text runs = "x日".toList ++ '\u0301' :: "y".toList ∧ width '\u0301' = 0 ∧
      r.EndsTooWide "x日".toList ∧
      RunSequence.text (r.layOutRuns 0 runs) = "x\n 日\n \u0301y".toList := by
  intro layout runs r
  have htext : RunSequence.text runs = "x日".toList ++ '\u0301' :: "y".toList := by decide
  have hmark : width '\u0301' = 0 := by decide +kernel
  have htorn : r.EndsTooWide "x日".toList := ⟨'日', by decide, by decide, by decide +kernel⟩
  obtain ⟨-, hbroken, -⟩ := mark_is_torn_off_iff_base_fits_no_line htext hmark 2 layout
  exact ⟨htext, hmark, htorn, (hbroken.mpr htorn).trans (by decide +kernel)⟩

/-- One column and no margin: the base takes two columns, and the mark starts a line. -/
theorem mark_starts_a_line :
    let layout : Layout := { Layout.standard with padding := 0 }
    width '\u0301' = 0 ∧
      frame false 1 layout [⟨"日\u0301a".toList, Color.black, false⟩] = "日\n\u0301a".toList := by
  decide +kernel

end Terminal
end QueryView
