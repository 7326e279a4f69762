/-
How wide a line can get.

A terminal of some columns, of which the margin leaves some, has no line wider than itself,
except that a single character may need more columns than are left.  No character needs more
than three, so the widest line there can be is as wide as the terminal, or as a margin and three
columns if that is more.  Both happen, so no smaller bound would do.

If the margin leaves no column the lines are not wrapped at all: the limit is what is left, and
a limit of zero means that there is none.  Then a line is as wide as its text, and nothing
bounds it (`lines_are_bounded_iff_columns_are_left`).
-/
import Mathlib.Data.Set.Basic
import QueryView.Proofs.Terminal.Lines

namespace QueryView

namespace Text

theorem lineWidth_replicate (n : Nat) {c : Char} (hc : width c = 1) :
    lineWidth (List.replicate n c) = n := by
  induction n with
  | zero => rfl
  | succ n ih =>
    show width c + lineWidth (List.replicate n c) = n + 1
    rw [ih, hc, Nat.add_comm]

/-- Marks without a width take no columns. -/
theorem lineWidth_filter (t : Text) : lineWidth (t.filter fun c => 0 < width c) = lineWidth t := by
  induction t with
  | nil => rfl
  | cons c t ih =>
    show _ = width c + lineWidth t
    by_cases hc : 0 < width c
    · rw [List.filter_cons_of_pos (by simpa using hc), ← ih]
      rfl
    · rw [List.filter_cons_of_neg (by simpa using hc), ih, Nat.eq_zero_of_not_pos hc, Nat.zero_add]

end Text

namespace Terminal

open Text (lines lineWidth width)

theorem FitsOrCannot.lineWidth_le {limit : Nat} {line : Text} (h : FitsOrCannot limit line) :
    lineWidth line ≤ max limit 3 := by
  rcases h with hfits | ⟨c, hc, -⟩
  · exact Nat.le_trans hfits (Nat.le_max_left _ _)
  · rw [← Text.lineWidth_filter, hc, Text.lineWidth_singleton]
    exact Nat.le_trans (Text.width_le_three c) (Nat.le_max_right _ _)

namespace Ruler

variable {r : Ruler}

/-- A line on which everything fits is not broken, and none is where there is no limit. -/
theorem layOut_eq_self {column : Nat} {t : Text} (hline : '\n' ∉ t)
    (hfits : r.limit = 0 ∨ column + lineWidth t ≤ r.limit) : (r.layOut column t).1 = t := by
  induction t generalizing column with
  | nil => rfl
  | cons c t ih =>
    rw [List.mem_cons, not_or] at hline
    have hwidth : lineWidth (c :: t) = width c + lineWidth t := rfl
    have hplace : r.place column c = ([c], column + width c) := by
      refine place_of_fits (Ne.symm hline.1) ?_
      rw [overflows, decide_eq_false_iff_not]
      omega
    rw [layOut, hplace, ih hline.2 (by omega)]
    rfl

end Ruler

/-! ## Frames -/

/-- The lines of a frame are those of the text as it is laid out beside a margin, each behind a
margin. -/
theorem lines_frame {runs : RunSequence} (hshown : RunSequence.text runs ≠ []) (wrapWidth : Nat)
    (layout : Layout) :
    lines (frame false wrapWidth layout runs) =
      (lines ((Ruler.ofLayout wrapWidth layout).bare.layOut 0 (RunSequence.text runs)).1).map
        (List.replicate layout.padding ' ' ++ ·) := by
  rw [frame_of_shown hshown, flatMap_paint_plain, Ruler.layOut_eq_indented,
    lines_indented (newline_not_mem_margin wrapWidth layout)]
  rfl

/-- The numbers of columns that no line of any text goes beyond. -/
def lineBounds (wrapWidth : Nat) (layout : Layout) : Set Nat :=
  {bound | ∀ runs, RunSequence.text runs ≠ [] →
    ∀ line ∈ lines (frame false wrapWidth layout runs), lineWidth line ≤ bound}

variable {wrapWidth bound : Nat} {layout : Layout}

theorem max_mem_lineBounds (hroom : layout.padding < wrapWidth) :
    max wrapWidth (layout.padding + 3) ∈ lineBounds wrapWidth layout := by
  intro runs hshown line hline
  rw [lines_frame hshown] at hline
  obtain ⟨content, hcontent, rfl⟩ := List.mem_map.mp hline
  have hlimit : 0 < wrapWidth - layout.padding := Nat.sub_pos_of_lt hroom
  have hfits : FitsOrCannot (wrapWidth - layout.padding) content :=
    Ruler.fits_layOut (r := (Ruler.ofLayout wrapWidth layout).bare) rfl hlimit (s := [])
      List.not_mem_nil (.inl (Nat.zero_le _)) _ content hcontent
  have hwidth := hfits.lineWidth_le
  rw [Text.lineWidth_append, Text.lineWidth_replicate _ (by decide)]
  omega

/-- A text that is shown in one line is part of what has to be bounded. -/
theorem add_lineWidth_le (hbound : bound ∈ lineBounds wrapWidth layout) {t : Text} (hne : t ≠ [])
    (hline : '\n' ∉ t)
    (hself : ((Ruler.ofLayout wrapWidth layout).bare.layOut 0 t).1 = t) :
    layout.padding + lineWidth t ≤ bound := by
  have htext : RunSequence.text [⟨t, Color.black, false⟩] = t := List.append_nil t
  have hle := hbound [⟨t, Color.black, false⟩] (by rwa [htext])
    (List.replicate layout.padding ' ' ++ t) (by
      rw [lines_frame (by rwa [htext]), htext, hself, Text.lines_of_not_mem hline]
      exact List.mem_singleton_self _)
  rwa [Text.lineWidth_append, Text.lineWidth_replicate _ (by decide)] at hle

/-- As many columns as the number says are needed for letters on a line that has them. -/
theorem add_le_of_letters_fit (hbound : bound ∈ lineBounds wrapWidth layout) {n : Nat}
    (hn : 0 < n) (hfits : wrapWidth ≤ layout.padding ∨ layout.padding + n ≤ wrapWidth) :
    layout.padding + n ≤ bound := by
  have hletters : lineWidth (List.replicate n 'a') = n :=
    Text.lineWidth_replicate n (by decide)
  have hline : '\n' ∉ List.replicate n 'a' := fun hmem =>
    absurd (List.eq_of_mem_replicate hmem) (by decide)
  have hlimit : (Ruler.ofLayout wrapWidth layout).bare.limit = wrapWidth - layout.padding := rfl
  have hself : ((Ruler.ofLayout wrapWidth layout).bare.layOut 0 (List.replicate n 'a')).1 =
      List.replicate n 'a' := Ruler.layOut_eq_self hline (by omega)
  have hle := add_lineWidth_le hbound (by simpa using Nat.ne_of_gt hn) hline hself
  rwa [hletters] at hle

theorem max_le_of_mem_lineBounds (hroom : layout.padding < wrapWidth)
    (hbound : bound ∈ lineBounds wrapWidth layout) :
    max wrapWidth (layout.padding + 3) ≤ bound := by
  have hletters := add_le_of_letters_fit hbound (n := wrapWidth - layout.padding) (by omega)
    (.inr (by omega))
  -- There is a character of three columns, and it stands at the start of a line.
  have hself : ((Ruler.ofLayout wrapWidth layout).bare.layOut 0 ['\u17D8']).1 = ['\u17D8'] := by
    rw [Ruler.layOut_singleton, Ruler.place_of_fits (by decide) (Ruler.overflows_zero _ _)]
  have hwide := add_lineWidth_le hbound (List.cons_ne_nil _ _) (by decide) hself
  have hthree : lineWidth ['\u17D8'] = 3 := by decide +kernel
  omega

/-- A terminal with more columns than the margin takes wraps its lines, so that they are never
wider than the terminal or a margin and three columns, and some are as wide.  On any other there
is no bound for the lines. -/
theorem lines_are_bounded_iff_columns_are_left (wrapWidth : Nat) (layout : Layout) :
    (layout.padding < wrapWidth →
      IsLeast (lineBounds wrapWidth layout) (max wrapWidth (layout.padding + 3))) ∧
    (wrapWidth ≤ layout.padding → lineBounds wrapWidth layout = ∅) := by
  refine ⟨fun hroom => ⟨max_mem_lineBounds hroom, fun bound hbound =>
    max_le_of_mem_lineBounds hroom hbound⟩, fun hnone => Set.eq_empty_iff_forall_notMem.mpr ?_⟩
  intro bound hbound
  have hle := add_le_of_letters_fit hbound (Nat.succ_pos bound) (.inl hnone)
  omega

theorem ten_columns_bound_lines :
    Layout.standard.padding < 10 ∧ IsLeast (lineBounds 10 Layout.standard) 10 :=
  ⟨by decide, (lines_are_bounded_iff_columns_are_left 10 Layout.standard).1 (by decide)⟩

/-- Four columns, all of which the margin takes, and a text of eight letters on one line.  A
longer text is on one line as well. -/
theorem margin_of_four_takes_four_columns :
    let layout := Layout.standard
    frame false 4 layout [⟨"abcdefgh".toList, Color.black, false⟩] = "    abcdefgh".toList ∧
      ¬ ∃ bound, ∀ runs, RunSequence.text runs ≠ [] →
        ∀ line ∈ lines (frame false 4 layout runs), lineWidth line ≤ bound := by
  intro layout
  refine ⟨by decide +kernel, ?_⟩
  rintro ⟨bound, hbound⟩
  have hbound : bound ∈ lineBounds 4 layout := hbound
  have hle := add_le_of_letters_fit hbound (Nat.succ_pos bound) (.inl (by decide))
  omega

end Terminal
end QueryView
