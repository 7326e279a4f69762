/-
Wrapping puts line ends into a text and does nothing else.

`Broken t u` says that `u` is `t` with line ends put into it, anywhere and any number of
them.  Without a margin that is all that laying out does (`broken_layOut`).  A line that
was broken starts with the character that did not fit, so laying out what is laid out
already finds every break in its place (`layOut_layOut`), and so does laying it out in more
room, where nothing that fitted is broken (`layOut_layOut_of_within`).  The last character
always stays the last, since a break comes before a character.

The margin has to be empty: a margin is text that is put in with every line end, and would
be put in again.
-/
import QueryView.Terminal.Frame

namespace QueryView
namespace Terminal

/-! ## Line ends put into a text -/

/-- The second text is the first with line ends put into it. -/
inductive Broken : Text → Text → Prop where
  | nil : Broken [] []
  | keep (c : Char) {t u : Text} : Broken t u → Broken (c :: t) (c :: u)
  | insert {t u : Text} : Broken t u → Broken t ('\n' :: u)

namespace Broken

variable {t u : Text}

theorem mem (h : Broken t u) {c : Char} (hc : c ∈ t) : c ∈ u := by
  induction h with
  | nil => exact hc
  | keep d _ ih =>
    rcases List.mem_cons.mp hc with rfl | hc
    · exact List.mem_cons_self
    · exact List.mem_cons_of_mem _ (ih hc)
  | insert _ ih => exact List.mem_cons_of_mem _ (ih hc)

/-- A text without line ends is as it was. -/
theorem eq_of_not_mem (h : Broken t u) (hu : '\n' ∉ u) : t = u := by
  induction h with
  | nil => rfl
  | keep c _ ih => rw [ih fun hmem => hu (List.mem_cons_of_mem c hmem)]
  | insert _ _ => exact absurd List.mem_cons_self hu

/-- Line ends put into a text that is in two parts were put into parts of it. -/
theorem split {u v : Text} (h : Broken t (u ++ v)) :
    ∃ a b, t = a ++ b ∧ Broken a u ∧ Broken b v := by
  induction u generalizing t with
  | nil => exact ⟨[], t, rfl, .nil, h⟩
  | cons c u ih =>
    rw [List.cons_append] at h
    cases h with
    | keep _ h =>
      obtain ⟨a, b, rfl, ha, hb⟩ := ih h
      exact ⟨c :: a, b, rfl, .keep c ha, hb⟩
    | insert h =>
      obtain ⟨a, b, rfl, ha, hb⟩ := ih h
      exact ⟨a, b, rfl, .insert ha, hb⟩

/-- A character that is no line end was there. -/
theorem tail {c : Char} (hc : c ≠ '\n') (h : Broken t (c :: u)) :
    ∃ r, t = c :: r ∧ Broken r u := by
  cases h with
  | keep _ h => exact ⟨_, rfl, h⟩
  | insert _ => exact absurd rfl hc

end Broken

/-! ## Laying out -/

namespace Ruler

theorem layOut_append (r : Ruler) (column : Nat) (t u : Text) :
    r.layOut column (t ++ u) =
      ((r.layOut column t).1 ++ (r.layOut (r.layOut column t).2 u).1,
        (r.layOut (r.layOut column t).2 u).2) := by
  induction t generalizing column with
  | nil => rfl
  | cons c t ih => rw [List.cons_append, layOut, ih, layOut, List.append_assoc]

/-- How a text is cut into runs has no influence on where its lines break. -/
theorem text_layOutRuns (r : Ruler) (column : Nat) (runs : RunSequence) :
    RunSequence.text (r.layOutRuns column runs) = (r.layOut column (RunSequence.text runs)).1 := by
  induction runs generalizing column with
  | nil => rfl
  | cons run runs ih =>
    rw [layOutRuns, RunSequence.text_cons, RunSequence.text_cons, ih, layOut_append]

theorem layOut_singleton (r : Ruler) (column : Nat) (c : Char) :
    r.layOut column [c] = r.place column c := Prod.ext (List.append_nil _) rfl

theorem overflows_zero (r : Ruler) (c : Char) : r.overflows 0 c = false := by simp [overflows]

/-- The second ruler leaves as much room beside its margin as the first, or sets no limit. -/
def Within (r r' : Ruler) : Prop := 0 < r.limit ∧ r.limit ≤ r'.limit ∨ r'.limit = 0

theorem within_self (r : Ruler) : r.Within r := by
  by_cases hlimit : r.limit = 0
  · exact .inr hlimit
  · exact .inl ⟨Nat.pos_of_ne_zero hlimit, Nat.le_refl _⟩

/-- What fits in less room fits in more. -/
theorem Within.overflows_eq_false {r r' : Ruler} (h : r.Within r') {column : Nat} {c : Char}
    (hfits : r.overflows column c = false) : r'.overflows column c = false := by
  simp only [overflows, decide_eq_false_iff_not] at hfits ⊢
  rcases h with ⟨hlimit, hle⟩ | hnone <;> omega

section NoMargin

variable {r : Ruler} (hr : r.margin = [])

include hr

theorem newLine_eq : r.newLine = ['\n'] := by rw [newLine, hr]

theorem broken_layOut (column : Nat) (t : Text) : Broken t (r.layOut column t).1 := by
  induction t generalizing column with
  | nil => exact .nil
  | cons c t ih =>
    rw [layOut, place, newLine_eq hr]
    split
    · next hc =>
      rw [hc]
      exact .keep _ (ih _)
    split
    · exact .insert (.keep c (ih _))
    · exact .keep c (ih _)

/-- A break and the character after it are placed as they were. -/
theorem layOut_place {r' : Ruler} (hr' : r'.margin = []) (hroom : r.Within r') (column : Nat)
    (c : Char) : r'.layOut column (r.place column c).1 = r.place column c := by
  by_cases hc : c = '\n'
  · subst hc
    have hplace : r.place column '\n' = (['\n'], 0) := by rw [place, if_pos rfl, newLine_eq hr]
    rw [hplace, layOut_singleton, place, if_pos rfl, newLine_eq hr']
  by_cases hover : r.overflows column c
  · have hplace : r.place column c = (['\n'] ++ [c], Text.width c) := by
      rw [place, if_neg hc, if_pos hover, newLine_eq hr]
    have hbreak : r'.layOut column ['\n'] = (['\n'], 0) := by
      rw [layOut_singleton, place, if_pos rfl, newLine_eq hr']
    have hfirst : r'.layOut 0 [c] = ([c], Text.width c) := by
      rw [layOut_singleton, place, if_neg hc, overflows_zero, if_neg Bool.false_ne_true,
        Nat.zero_add]
    rw [hplace, layOut_append, hbreak, hfirst]
  · have hplace : r.place column c = ([c], column + Text.width c) := by
      rw [place, if_neg hc, if_neg hover]
    have hfits := hroom.overflows_eq_false (Bool.eq_false_iff.mpr hover)
    rw [hplace, layOut_singleton, place, if_neg hc, hfits, if_neg Bool.false_ne_true]

/-- A text that is laid out already is left as it is, also where there is more room. -/
theorem layOut_layOut_of_within {r' : Ruler} (hr' : r'.margin = []) (hroom : r.Within r')
    (column : Nat) (t : Text) : r'.layOut column (r.layOut column t).1 = r.layOut column t := by
  induction t generalizing column with
  | nil => rfl
  | cons c t ih => rw [layOut, layOut_append, layOut_place hr hr' hroom, ih]

theorem layOut_layOut (column : Nat) (t : Text) :
    r.layOut column (r.layOut column t).1 = r.layOut column t :=
  layOut_layOut_of_within hr hr (within_self r) column t

theorem getLast?_place (column : Nat) (c : Char) : (r.place column c).1.getLast? = some c := by
  rw [place, newLine_eq hr]
  split
  · next hc => rw [hc]; rfl
  split <;> rfl

theorem getLast?_layOut (column : Nat) (t : Text) :
    (r.layOut column t).1.getLast? = t.getLast? := by
  induction t generalizing column with
  | nil => rfl
  | cons c t ih =>
    rw [layOut, List.getLast?_append, ih, getLast?_place hr, List.getLast?_cons]
    cases t.getLast? <;> rfl

end NoMargin

end Ruler

/-! ## Frames -/

theorem margin_ofLayout_eq_nil {layout : Layout} (hpadding : layout.padding = 0) (width : Nat) :
    (Ruler.ofLayout width layout).margin = [] := by
  rw [Ruler.ofLayout, hpadding]
  rfl

/-- Without escapes and a margin, a frame that is not the placeholder is the text, laid out. -/
theorem frame_of_no_margin {layout : Layout} {runs : RunSequence} (hpadding : layout.padding = 0)
    (hshown : layout.placeholder = none ∨ RunSequence.text runs ≠ []) (width : Nat) :
    frame false width layout runs =
      ((Ruler.ofLayout width layout).layOut 0 (RunSequence.text runs)).1 := by
  rw [frame]
  split
  · next hnothing =>
    have hempty := (RunSequence.showsNothing_iff runs).mp hnothing
    rw [hshown.resolve_right (absurd hempty), hempty]
    rfl
  · rw [margin_ofLayout_eq_nil hpadding, List.nil_append, ← Ruler.text_layOutRuns]
    rfl

end Terminal
end QueryView
