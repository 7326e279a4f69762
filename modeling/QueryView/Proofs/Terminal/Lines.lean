/-
Lines that are broken as seldom as can be.

A frame is the text of its runs behind a margin, with line ends put in before some of the
characters, and every line end, old or new, is followed by the margin once more.  `Wrapped k t u`
says that `u` is `t` with `k` line ends put in, and `indented` puts the margins behind them.

A character is put on a new line only if it does not fit on the one before, so a line takes no
more columns than there are beside the margin, unless all it has but marks without a width is one
character that is wider than that (`fits_layOut`).  If there is no such character, breaking late
is the best that can be done: whoever breaks the same text elsewhere has, after every character,
put in more line ends, or as many and is not in an earlier column.  One more line end makes up
for any column, so in the end nobody has put in fewer (`breaks_le`).

The main theorem is `frame_is_broken_as_seldom_as_can_be`.  It asks that something is shown and
that the margin leaves some columns; without these there is nothing to lay out, or no limit.
-/
import Mathlib.Order.Bounds.Defs
import QueryView.Proofs.Terminal.Escapes

namespace QueryView

/-! ## Lines -/

namespace Text

/-- The lines of a text, without the line ends between them. -/
def lines (t : Text) : List Text := t.splitOn '\n'

theorem lineWidth_append (s t : Text) : lineWidth (s ++ t) = lineWidth s + lineWidth t := by
  induction s with
  | nil => exact (Nat.zero_add _).symm
  | cons c s ih =>
    show width c + lineWidth (s ++ t) = width c + lineWidth s + lineWidth t
    rw [ih, Nat.add_assoc]

theorem lineWidth_singleton (c : Char) : lineWidth [c] = width c := Nat.add_zero _

theorem lines_newline (t : Text) : lines ('\n' :: t) = [] :: lines t := by
  rw [lines, List.splitOn_cons_eq_if_modifyHead, if_pos (beq_self_eq_true _), lines]

theorem lines_cons {c : Char} (hc : c ≠ '\n') (t : Text) :
    lines (c :: t) = (lines t).modifyHead (c :: ·) := by
  rw [lines, List.splitOn_cons_eq_if_modifyHead, if_neg (by simpa using hc), lines]

theorem exists_lines (t : Text) : ∃ first rest, lines t = first :: rest :=
  List.exists_cons_of_ne_nil (List.splitOn_ne_nil '\n' t)

/-- What has no line end in it stands in front of the first line. -/
theorem lines_append {s : Text} (hs : '\n' ∉ s) {t first : Text} {rest : List Text}
    (ht : lines t = first :: rest) : lines (s ++ t) = (s ++ first) :: rest := by
  induction s with
  | nil => exact ht
  | cons c s ih =>
    have hc : c ≠ '\n' := fun hc => hs (hc ▸ List.mem_cons_self)
    rw [List.cons_append, lines_cons hc, ih fun hmem => hs (List.mem_cons_of_mem c hmem)]
    rfl

theorem lines_append_newline {s : Text} (hs : '\n' ∉ s) (t : Text) :
    lines (s ++ '\n' :: t) = s :: lines t := by
  rw [lines_append hs (lines_newline t), List.append_nil]

theorem lines_of_not_mem {s : Text} (hs : '\n' ∉ s) : lines s = [s] := by
  have hlines : lines (s ++ []) = [s ++ []] := lines_append hs rfl
  rwa [List.append_nil] at hlines

/-- The characters of a line are those of the text, and none of them is a line end. -/
theorem mem_of_mem_lines {t line : Text} (h : line ∈ lines t) {c : Char} (hc : c ∈ line) :
    c ∈ t ∧ c ≠ '\n' := by
  induction t generalizing line with
  | nil =>
    cases List.mem_singleton.mp h
    exact absurd hc List.not_mem_nil
  | cons d t ih =>
    obtain ⟨first, rest, ht⟩ := exists_lines t
    by_cases hd : d = '\n'
    · rw [hd, lines_newline] at h
      rcases List.mem_cons.mp h with rfl | h
      · exact absurd hc List.not_mem_nil
      · exact (ih h hc).imp_left (List.mem_cons_of_mem d)
    · rw [lines_cons hd, ht, List.modifyHead_cons] at h
      rcases List.mem_cons.mp h with rfl | h
      · rcases List.mem_cons.mp hc with rfl | hc
        · exact ⟨List.mem_cons_self, hd⟩
        · exact (ih (ht ▸ List.mem_cons_self) hc).imp_left (List.mem_cons_of_mem d)
      · exact (ih (ht ▸ List.mem_cons_of_mem _ h) hc).imp_left (List.mem_cons_of_mem d)

end Text

namespace Terminal

open Text (lines lineWidth width)

/-! ## Line ends and margins -/

/-- The second text is the first with a line end put in before some of the characters, as many
as the number says and none of them a line end itself. -/
inductive Wrapped : Nat → Text → Text → Prop where
  | nil : Wrapped 0 [] []
  | keep (c : Char) {k : Nat} {t u : Text} : Wrapped k t u → Wrapped k (c :: t) (c :: u)
  | wrap (c : Char) (hc : c ≠ '\n') {k : Nat} {t u : Text} :
      Wrapped k t u → Wrapped (k + 1) (c :: t) ('\n' :: c :: u)

/-- Nothing but line ends is put in. -/
theorem Wrapped.mem {k : Nat} {t u : Text} (h : Wrapped k t u) {c : Char} (hc : c ≠ '\n')
    (hmem : c ∈ u) : c ∈ t := by
  induction h with
  | nil => exact hmem
  | keep d _ ih => exact List.mem_cons.mpr ((List.mem_cons.mp hmem).imp_right ih)
  | wrap d _ _ ih =>
    have hrest := (List.mem_cons.mp hmem).resolve_left hc
    exact List.mem_cons.mpr ((List.mem_cons.mp hrest).imp_right ih)

theorem Wrapped.length {k : Nat} {t u : Text} (h : Wrapped k t u) : u.length = t.length + k := by
  induction h with
  | nil => rfl
  | keep | wrap => simp only [List.length_cons]; omega

/-- The text with a margin after every line end. -/
def indented (margin : Text) (t : Text) : Text :=
  t.flatMap fun c => if c = '\n' then '\n' :: margin else [c]

theorem lines_append_indented {margin : Text} (hmargin : '\n' ∉ margin) {s : Text}
    (hs : '\n' ∉ s) {t first : Text} {rest : List Text} (ht : lines t = first :: rest) :
    lines (s ++ indented margin t) = (s ++ first) :: rest.map (margin ++ ·) := by
  induction t generalizing s first rest with
  | nil =>
    cases ht
    exact Text.lines_append hs rfl
  | cons c t ih =>
    obtain ⟨line, more, hlines⟩ := Text.exists_lines t
    by_cases hc : c = '\n'
    · subst hc
      rw [Text.lines_newline, hlines] at ht
      cases ht
      show lines (s ++ '\n' :: (margin ++ indented margin t)) = _
      rw [Text.lines_append_newline hs, ih hmargin hlines, List.append_nil, List.map_cons]
    · rw [Text.lines_cons hc, hlines] at ht
      cases ht
      have hrest : indented margin (c :: t) = c :: indented margin t := by
        rw [indented, List.flatMap_cons, if_neg hc]
        rfl
      have hsc : '\n' ∉ s ++ [c] := by simpa [hs] using Ne.symm hc
      rw [hrest, List.append_cons, ih hsc hlines, List.append_assoc]
      rfl

/-- Behind the margin stand the lines of the text, each behind a margin of its own. -/
theorem lines_indented {margin : Text} (hmargin : '\n' ∉ margin) (t : Text) :
    lines (margin ++ indented margin t) = (lines t).map (margin ++ ·) := by
  obtain ⟨first, rest, ht⟩ := Text.exists_lines t
  rw [lines_append_indented hmargin hmargin ht, ht, List.map_cons]

/-- A line takes no more columns than the limit, or has one character only that takes any, and
that one is wider than the limit. -/
def FitsOrCannot (limit : Nat) (line : Text) : Prop :=
  lineWidth line ≤ limit ∨
    ∃ c, line.filter (fun d => 0 < width d) = [c] ∧ limit < width c

/-! ## Laying out -/

namespace Ruler

/-- The ruler with the same limit and no margin. -/
def bare (r : Ruler) : Ruler := { r with margin := [] }

/-- How many lines are ended because a character does not fit on them. -/
def breaks (r : Ruler) : Nat → Text → Nat
  | _, [] => 0
  | column, c :: t =>
    (if c ≠ '\n' ∧ r.overflows column c then 1 else 0) + breaks r (r.place column c).2 t

variable {r : Ruler} {column : Nat} {c : Char} {t : Text}

theorem place_newline : r.place column '\n' = (r.newLine, 0) := if_pos rfl

theorem place_of_overflows (hc : c ≠ '\n') (h : r.overflows column c = true) :
    r.place column c = (r.newLine ++ [c], width c) := by rw [place, if_neg hc, if_pos h]

theorem place_of_fits (hc : c ≠ '\n') (h : r.overflows column c = false) :
    r.place column c = ([c], column + width c) := by
  rw [place, if_neg hc, h, if_neg Bool.false_ne_true]

theorem breaks_newline : r.breaks column ('\n' :: t) = r.breaks 0 t := by
  rw [breaks, if_neg fun h => h.1 rfl, place_newline, Nat.zero_add]

theorem breaks_of_overflows (hc : c ≠ '\n') (h : r.overflows column c = true) :
    r.breaks column (c :: t) = r.breaks (width c) t + 1 := by
  rw [breaks, if_pos ⟨hc, h⟩, place_of_overflows hc h, Nat.add_comm]

theorem breaks_of_fits (hc : c ≠ '\n') (h : r.overflows column c = false) :
    r.breaks column (c :: t) = r.breaks (column + width c) t := by
  rw [breaks, if_neg fun hover => Bool.false_ne_true (h.symm.trans hover.2), place_of_fits hc h,
    Nat.zero_add]

theorem overflows_iff (hlimit : 0 < r.limit) :
    r.overflows column c = true ↔ 0 < column ∧ r.limit < column + width c := by
  simp [overflows, hlimit]

/-- The margin makes no difference but that it stands after every line end. -/
theorem layOut_eq_indented (r : Ruler) (column : Nat) (t : Text) :
    (r.layOut column t).1 = indented r.margin (r.bare.layOut column t).1 := by
  induction t generalizing column with
  | nil => rfl
  | cons c t ih =>
    have hplace : (r.place column c).1 = indented r.margin (r.bare.place column c).1 ∧
        (r.place column c).2 = (r.bare.place column c).2 := by
      by_cases hc : c = '\n'
      · subst hc
        exact ⟨(List.append_nil _).symm, rfl⟩
      · cases hover : r.overflows column c
        · rw [place_of_fits hc hover, place_of_fits hc (r := r.bare) hover]
          simp [indented, hc]
        · rw [place_of_overflows hc hover, place_of_overflows hc (r := r.bare) hover]
          simp [indented, newLine, hc, bare]
    rw [layOut, layOut, hplace.1, hplace.2, ih]
    simp [indented]

/-- Without a margin, laying out puts in as many line ends as there are breaks. -/
theorem wrapped_layOut (hmargin : r.margin = []) (column : Nat) (t : Text) :
    Wrapped (r.breaks column t) t (r.layOut column t).1 := by
  induction t generalizing column with
  | nil => exact .nil
  | cons c t ih =>
    by_cases hc : c = '\n'
    · subst hc
      rw [breaks_newline, layOut, place_newline, newLine, hmargin]
      exact .keep '\n' (ih 0)
    · cases hover : r.overflows column c
      · rw [breaks_of_fits hc hover, layOut, place_of_fits hc hover]
        exact .keep c (ih _)
      · rw [breaks_of_overflows hc hover, layOut, place_of_overflows hc hover, newLine, hmargin]
        exact .wrap c hc (ih _)

theorem lineWidth_eq_zero {s : Text} (h : lineWidth s = 0) :
    s.filter (fun d => 0 < width d) = [] := by
  induction s with
  | nil => rfl
  | cons c s ih =>
    have hwidth : width c + lineWidth s = 0 := h
    rw [List.filter_cons_of_neg (by simp; omega), ih (by omega)]

/-- A character that is not put on a new line leaves the line as it has to be. -/
theorem fitsOrCannot_append {s : Text} (hlimit : 0 < r.limit)
    (h : r.overflows (lineWidth s) c = false) : FitsOrCannot r.limit (s ++ [c]) := by
  rw [← Bool.not_eq_true, overflows_iff hlimit] at h
  by_cases hfits : lineWidth s + width c ≤ r.limit
  · left
    rwa [Text.lineWidth_append, Text.lineWidth_singleton]
  · -- It is the first that takes a column, and nothing could be done about it.
    have hstart : lineWidth s = 0 := by omega
    have hwide : r.limit < width c := by omega
    refine .inr ⟨c, ?_, hwide⟩
    rw [List.filter_append, lineWidth_eq_zero hstart, List.nil_append,
      List.filter_cons_of_pos (by simp; omega), List.filter_nil]

/-- The induction carries the line as far as it is placed, whose width is the column. -/
theorem fits_layOut (hmargin : r.margin = []) (hlimit : 0 < r.limit) {s : Text} (hs : '\n' ∉ s)
    (hfits : FitsOrCannot r.limit s) (t : Text) :
    ∀ line ∈ lines (s ++ (r.layOut (lineWidth s) t).1), FitsOrCannot r.limit line := by
  induction t generalizing s with
  | nil =>
    rw [layOut, List.append_nil, Text.lines_of_not_mem hs]
    exact List.forall_mem_singleton.mpr hfits
  | cons c t ih =>
    by_cases hc : c = '\n'
    · subst hc
      have hrest := ih (s := []) List.not_mem_nil (.inl (Nat.zero_le _))
      rw [layOut, place_newline, newLine, hmargin, List.cons_append, Text.lines_append_newline hs]
      exact List.forall_mem_cons.mpr ⟨hfits, hrest⟩
    · have hnew : '\n' ∉ [c] := by simpa using Ne.symm hc
      cases hover : r.overflows (lineWidth s) c
      · have hsc : '\n' ∉ s ++ [c] := by simp [hs, Ne.symm hc]
        have hrest := ih hsc (fitsOrCannot_append hlimit hover)
        rw [Text.lineWidth_append, Text.lineWidth_singleton, List.append_assoc] at hrest
        rwa [layOut, place_of_fits hc hover]
      · have hfirst : FitsOrCannot r.limit ([] ++ [c]) :=
          fitsOrCannot_append hlimit (overflows_zero r c)
        have hrest := ih hnew hfirst
        rw [Text.lineWidth_singleton] at hrest
        rw [layOut, place_of_overflows hc hover, newLine, hmargin, List.append_assoc,
          List.cons_append, List.nil_append, Text.lines_append_newline hs]
        exact List.forall_mem_cons.mpr ⟨hfits, hrest⟩

/-! ## Breaking late

`s` is the line that the other way of breaking has placed so far. -/

theorem lineWidth_le_of_lines {s v : Text} {limit : Nat} (hs : '\n' ∉ s)
    (h : ∀ line ∈ lines (s ++ v), lineWidth line ≤ limit) : lineWidth s ≤ limit := by
  obtain ⟨first, rest, hv⟩ := Text.exists_lines v
  have hfirst := h (s ++ first) (by rw [Text.lines_append hs hv]; exact List.mem_cons_self)
  rw [Text.lineWidth_append] at hfirst
  omega

/-- Whoever has placed as much and is not in a later column needs no fewer breaks for the rest,
and whoever is in a later column can save one at most. -/
theorem breaks_le (hlimit : 0 < r.limit) {j : Nat} {t v s : Text} (h : Wrapped j t v)
    (hs : '\n' ∉ s) (hfits : ∀ line ∈ lines (s ++ v), lineWidth line ≤ r.limit) (column : Nat) :
    r.breaks column t ≤ j + if column ≤ lineWidth s then 0 else 1 := by
  induction h generalizing s column with
  | nil => exact Nat.zero_le _
  | @keep c j t v h ih =>
    by_cases hc : c = '\n'
    · subst hc
      rw [Text.lines_append_newline hs] at hfits
      have hrest := ih List.not_mem_nil (List.forall_mem_cons.mp hfits).2 0
      rw [if_pos (Nat.zero_le _)] at hrest
      rw [breaks_newline]
      omega
    · have hsc : '\n' ∉ s ++ [c] := by simp [hs, Ne.symm hc]
      rw [List.append_cons] at hfits
      have hroom := lineWidth_le_of_lines hsc hfits
      have hrest := ih hsc hfits
      rw [Text.lineWidth_append, Text.lineWidth_singleton] at hroom hrest
      cases hover : r.overflows column c
      · have hkept := hrest (column + width c)
        rw [breaks_of_fits hc hover]
        simpa only [Nat.add_le_add_iff_right] using hkept
      · -- In no later column the character would have fitted here as well.
        have hbroken := hrest (width c)
        rw [if_pos (Nat.le_add_left _ _)] at hbroken
        rw [overflows_iff hlimit] at hover
        rw [breaks_of_overflows hc ((overflows_iff hlimit).mpr hover), if_neg (by omega)]
        omega
  | @wrap c hc j t v h ih =>
    have hnew : '\n' ∉ [c] := by simpa using Ne.symm hc
    rw [Text.lines_append_newline hs] at hfits
    have hrest := ih hnew (List.forall_mem_cons.mp hfits).2
    rw [Text.lineWidth_singleton] at hrest
    cases hover : r.overflows column c
    · have hkept := hrest (column + width c)
      rw [breaks_of_fits hc hover]
      split at hkept <;> omega
    · have hbroken := hrest (width c)
      rw [if_pos (Nat.le_refl _)] at hbroken
      rw [breaks_of_overflows hc hover]
      omega

end Ruler

/-! ## Frames -/

theorem newline_not_mem_margin (wrapWidth : Nat) (layout : Layout) :
    '\n' ∉ (Ruler.ofLayout wrapWidth layout).margin := by
  intro hmem
  exact absurd (List.eq_of_mem_replicate hmem) (by decide)

/-- The frame holds every character of the text, in order, with line ends put in between and a
margin on every line.  No line is too long but for a character that is too wide for any, and if
there is none, the text cannot be broken into lines that fit with fewer line ends. -/
theorem frame_is_broken_as_seldom_as_can_be {runs : RunSequence} {wrapWidth : Nat}
    {layout : Layout} (hshown : RunSequence.text runs ≠ []) (hroom : layout.padding < wrapWidth) :
    let text := RunSequence.text runs
    let margin := List.replicate layout.padding ' '
    let limit := wrapWidth - layout.padding
    ∃ k u, Wrapped k text u ∧
      frame false wrapWidth layout runs = margin ++ indented margin u ∧
      lines (frame false wrapWidth layout runs) = (lines u).map (margin ++ ·) ∧
      (∀ line ∈ lines u, FitsOrCannot limit line) ∧
      ((∀ c ∈ text, c ≠ '\n' → width c ≤ limit) →
        IsLeast {j | ∃ v, Wrapped j text v ∧ ∀ line ∈ lines v, lineWidth line ≤ limit} k) := by
  intro text margin limit
  let r := (Ruler.ofLayout wrapWidth layout).bare
  let u := (r.layOut 0 text).1
  have hlimit : 0 < r.limit := Nat.sub_pos_of_lt hroom
  have hwrapped : Wrapped (r.breaks 0 text) text u := Ruler.wrapped_layOut rfl 0 text
  have hframe : frame false wrapWidth layout runs = margin ++ indented margin u := by
    rw [frame_of_shown hshown, flatMap_paint_plain, Ruler.layOut_eq_indented]
    rfl
  have hfits : ∀ line ∈ lines u, FitsOrCannot limit line :=
    Ruler.fits_layOut rfl hlimit (s := []) List.not_mem_nil (.inl (Nat.zero_le _)) text
  refine ⟨r.breaks 0 text, u, hwrapped, hframe, ?_, hfits, fun hnarrow => ⟨⟨u, hwrapped, ?_⟩, ?_⟩⟩
  · rw [hframe]
    exact lines_indented (newline_not_mem_margin wrapWidth layout) u
  · intro line hline
    rcases hfits line hline with hfit | ⟨c, hc, hwide⟩
    · exact hfit
    · have hmem : c ∈ line := (List.mem_filter.mp (hc ▸ List.mem_singleton_self c)).1
      obtain ⟨hu, hne⟩ := Text.mem_of_mem_lines hline hmem
      have hle := hnarrow c (hwrapped.mem hne hu) hne
      omega
  · rintro j ⟨v, hv, hlines⟩
    have hleast := Ruler.breaks_le hlimit hv (s := []) List.not_mem_nil hlines 0
    rwa [if_pos (Nat.zero_le _)] at hleast

/-- Three columns beside a margin of one.  The wide character and the one after the next do not
fit, the mark without a width does, and the text cannot do with one break. -/
theorem narrow_frame_takes_two_breaks :
    let layout : Layout := { Layout.standard with padding := 1 }
    let runs : RunSequence :=
      [⟨"ab日".toList, Color.black, true⟩, ⟨"cd\u0301\nx".toList, Color.white, false⟩]
    RunSequence.text runs ≠ [] ∧ layout.padding < 4 ∧
      frame false 4 layout runs = " ab\n 日c\n d\u0301\n x".toList ∧
      IsLeast {j | ∃ v, Wrapped j (RunSequence.text runs) v ∧
        ∀ line ∈ lines v, lineWidth line ≤ 3} 2 := by
  intro layout runs
  have hshown : RunSequence.text runs ≠ [] := by decide
  have hroom : layout.padding < 4 := by decide
  have hframe : frame false 4 layout runs = " ab\n 日c\n d\u0301\n x".toList := by
    decide +kernel
  obtain ⟨k, u, hwrapped, -, hlines, -, hleast⟩ :=
    frame_is_broken_as_seldom_as_can_be hshown hroom
  have hu : u = "ab\n日c\nd\u0301\nx".toList := by
    calc u = ['\n'].intercalate (lines u) := (List.intercalate_splitOn '\n').symm
      _ = ['\n'].intercalate ((lines (frame false 4 layout runs)).map (List.drop 1)) := by
        rw [hlines, List.map_map]
        exact congrArg _ (List.map_id (lines u)).symm
      _ = "ab\n日c\nd\u0301\nx".toList := by
        rw [hframe]
        decide +kernel
  have hk : k = 2 := by
    have hlength := hwrapped.length
    rw [hu] at hlength
    have hcount : "ab\n日c\nd\u0301\nx".toList.length = (RunSequence.text runs).length + 2 := by
      decide +kernel
    omega
  exact ⟨hshown, hroom, hframe, hk ▸ hleast fun c _ _ => Text.width_le_three c⟩

end Terminal
end QueryView
