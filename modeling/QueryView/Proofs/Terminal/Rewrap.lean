/-
What is wrapped stays as it is where there is more room.

Every line of a wrapped text fits into the width that it was wrapped for, or holds a character
that fits into no such line.  Either way the line is placed in the same columns again, and at a
greater width, or at none, nothing in it goes past the limit.  So wrapping a text anew breaks no
line that was broken before, and since it never joins lines, it changes nothing at all
(`wrapped_text_is_stable`).

The margin is empty, as everywhere where a frame is read again.  The placeholder is put into a
frame without being wrapped, so nothing can be said of a frame that shows one.
-/
import QueryView.Proofs.Terminal.Wrap

namespace QueryView
namespace Terminal

theorem Ruler.within_ofLayout {w₁ w₂ : Nat} (hroom : 0 < w₁ ∧ w₁ ≤ w₂ ∨ w₂ = 0)
    {layout : Layout} (hpadding : layout.padding = 0) :
    (ofLayout w₁ layout).Within (ofLayout w₂ layout) := by
  have hlimit (w : Nat) : (ofLayout w layout).limit = w := by
    show w - layout.padding = w
    rw [hpadding, Nat.sub_zero]
  rw [Within, hlimit, hlimit]
  exact hroom

/-- A text that was wrapped is laid out as it is at any greater width and at none, and so is the
frame of runs that are not shown as the placeholder. -/
theorem wrapped_text_is_stable {w₁ w₂ : Nat} (hroom : 0 < w₁ ∧ w₁ ≤ w₂ ∨ w₂ = 0)
    {layout : Layout} (hpadding : layout.padding = 0) :
    (∀ t, let wrapped := ((Ruler.ofLayout w₁ layout).layOut 0 t).1
      ((Ruler.ofLayout w₂ layout).layOut 0 wrapped).1 = wrapped) ∧
    ∀ runs runs', layout.placeholder = none ∨ RunSequence.text runs ≠ [] →
      RunSequence.text runs' = frame false w₁ layout runs →
      frame false w₂ layout runs' = frame false w₁ layout runs := by
  have hmargin := margin_ofLayout_eq_nil hpadding
  have hwithin := Ruler.within_ofLayout hroom hpadding
  have hstable (t : Text) : ((Ruler.ofLayout w₂ layout).layOut 0
      ((Ruler.ofLayout w₁ layout).layOut 0 t).1).1 = ((Ruler.ofLayout w₁ layout).layOut 0 t).1 := by
    rw [Ruler.layOut_layOut_of_within (hmargin w₁) (hmargin w₂) hwithin]
  refine ⟨hstable, fun runs runs' hshown htext => ?_⟩
  rw [frame_of_no_margin hpadding hshown] at htext ⊢
  have hshown' : layout.placeholder = none ∨ RunSequence.text runs' ≠ [] := by
    refine hshown.imp_right fun hne hnothing => hne ?_
    have hlast := Ruler.getLast?_layOut (hmargin w₁) 0 (RunSequence.text runs)
    rw [← htext, hnothing] at hlast
    exact List.getLast?_eq_none_iff.mp hlast.symm
  rw [frame_of_no_margin hpadding hshown', htext, hstable]

/-- One column is not enough for the first character, and the mark after it comes to stand on a
line of its own.  At three columns that line is not joined to the one before. -/
theorem lone_mark_stays_alone :
    let layout : Layout := { Layout.standard with padding := 0, placeholder := some "?".toList }
    let runs : RunSequence :=
      [⟨"日\u0301a".toList, Color.black, true⟩, ⟨"b\nc".toList, Color.white, false⟩]
    let again : RunSequence := [⟨"日\n\u0301a\nb\nc".toList, Color.black, false⟩]
    (0 < 1 ∧ 1 ≤ 3 ∨ 3 = 0) ∧ layout.padding = 0 ∧
      (layout.placeholder = none ∨ RunSequence.text runs ≠ []) ∧
      RunSequence.text again = frame false 1 layout runs ∧
      frame false 3 layout again = "日\n\u0301a\nb\nc".toList := by
  intro layout runs again
  have hframe : frame false 1 layout runs = "日\n\u0301a\nb\nc".toList := by decide +kernel
  have hshown : layout.placeholder = none ∨ RunSequence.text runs ≠ [] := .inr (by decide)
  have htext : RunSequence.text again = frame false 1 layout runs := by
    rw [hframe]
    decide
  have hroom : 0 < 1 ∧ 1 ≤ 3 ∨ 3 = 0 := by decide
  have hpadding : layout.padding = 0 := rfl
  have hstable := (wrapped_text_is_stable hroom hpadding).2 runs again hshown htext
  exact ⟨hroom, hpadding, hshown, htext, hstable.trans hframe⟩

end Terminal
end QueryView
