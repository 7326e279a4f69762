/-
The range of a layout that settings ask for.

Whatever number a text gives for the padding, the settings that it comes to have at most 64 of it,
and whatever it gives for the font size, they have one from 6 to 72, with one exception
(`sizes_are_in_range_unless_nan`).  What is not a number cannot be moved into a range, so it stays.
Settings are compared field by field, and the font size by its value; so those with a size that is
not a number, and only those, are not equal to themselves.
-/
import Mathlib.Tactic.NormNum
import QueryView.Proofs.Numeric.Order
import QueryView.Proofs.Settings.Known

namespace QueryView

/-- Layouts are compared field by field, and font sizes by value. -/
def Layout.equals (l m : Layout) : Bool :=
  l.fontSize.value.equals m.fontSize.value && l.fontFamily == m.fontFamily &&
    l.padding == m.padding && l.placeholder == m.placeholder && l.readOnly == m.readOnly &&
    l.autosize == m.autosize

namespace Settings

open Toml (Value Table)
open Numeric (Single)
open Numeric.Binary (toRat?)

def equals (s s' : Settings) : Bool :=
  s.theme == s'.theme && s.plainTextColor == s'.plainTextColor && s.wrapWidth == s'.wrapWidth &&
    s.layout.equals s'.layout

/-- The font size is a number from 6 to 72. -/
def SizeInRange (x : Single) : Prop := ∃ q, toRat? x.value = some q ∧ 6 ≤ q ∧ q ≤ 72

variable {t : Text} {table : Table} {s : Settings} {v : Value} {x : Single}

theorem equals_self_iff : s.equals s = true ↔ s.layout.fontSize.value ≠ .nan := by
  simp [equals, Layout.equals, Numeric.Binary.equals_self_iff]

theorem not_sizeInRange_of_nan (hx : x.value = .nan) : ¬ SizeInRange x := by
  rintro ⟨q, hq, -⟩
  rw [hx] at hq
  cases hq

theorem SizeInRange.ne_nan (h : SizeInRange x) : x.value ≠ .nan := fun hx =>
  not_sizeInRange_of_nan hx h

theorem toRat?_minFontSize : toRat? minFontSize.value = some 6 := by
  have hvalue : minFontSize.value = .finite false 12582912 (-21) := by decide +kernel
  rw [hvalue, toRat?]
  norm_num

theorem toRat?_maxFontSize : toRat? maxFontSize.value = some 72 := by
  have hvalue : maxFontSize.value = .finite false 9437184 (-17) := by decide +kernel
  rw [hvalue, toRat?]
  norm_num

theorem sizeInRange_standard : SizeInRange Layout.standard.fontSize := by
  have hvalue : Layout.standard.fontSize.value = .finite false 14680064 (-20) := by decide +kernel
  refine ⟨14, ?_, by norm_num, by norm_num⟩
  rw [hvalue, toRat?]
  norm_num

theorem sizeInRange_clamp (hx : x.value ≠ .nan) :
    SizeInRange (Single.clamp minFontSize maxFontSize x) :=
  Single.exists_clamp_value toRat?_minFontSize toRat?_maxFontSize (by norm_num) hx

theorem SizeOf.sizeInRange (h : SizeOf v x) (hv : v ≠ .float .nan) : SizeInRange x := by
  obtain ⟨i, -, rfl⟩ | ⟨y, rfl, rfl⟩ := h
  · refine sizeInRange_clamp ?_
    rw [Single.value_ofInt]
    exact Numeric.Format.round_ne_nan _ _ _
  · refine sizeInRange_clamp ?_
    rw [Single.value_ofBinary (Numeric.Format.fits_convert Numeric.Format.roomy_single y)]
    exact mt Numeric.Format.convert_eq_nan_iff.mp fun hy => hv (congrArg Value.float hy)

theorem SizeOf.value_nan (h : SizeOf (.float .nan) x) : x.value = .nan := by
  obtain ⟨i, hi, -⟩ | ⟨y, hy, rfl⟩ := h
  · cases hi
  · cases hy
    have hnan : (Single.ofBinary (Numeric.Format.single.convert .nan)).value = .nan :=
      Single.value_ofBinary trivial
    rw [Single.clamp_of_nan hnan, hnan]

/-- The settings of a text follow from its table. -/
theorem follows_of_parse (ht : Toml.parse? t = some table) (hs : parse t = .ok s) :
    Follows table s := by
  have hverdict : Verdict (Accepted Toml.isMoment) t (parse t) := verdict_parse Toml.isMoment t
  rw [hs] at hverdict
  cases hverdict with
  | settings htable _ hfollows => exact Option.some.inj (htable.symm.trans ht) ▸ hfollows

theorem Follows.padding_le (h : Follows table s) : s.layout.padding ≤ 64 := by
  have hpadding := h.padding
  cases hv : given table .padding with
  | none =>
    rw [hv] at hpadding
    exact hpadding.trans_le (by decide)
  | some v =>
    rw [hv] at hpadding
    obtain ⟨n, -, hn⟩ := hpadding
    exact hn.trans_le (min_le_right _ _)

theorem Follows.sizeInRange (h : Follows table s)
    (hnan : given table .fontSize ≠ some (.float .nan)) : SizeInRange s.layout.fontSize := by
  have hsize := h.fontSize
  cases hv : given table .fontSize with
  | none =>
    rw [hv] at hsize
    rw [hsize]
    exact sizeInRange_standard
  | some v =>
    rw [hv] at hsize hnan
    exact SizeOf.sizeInRange hsize fun hv => hnan (congrArg some hv)

theorem Follows.size_nan (h : Follows table s) (hnan : given table .fontSize = some (.float .nan)) :
    s.layout.fontSize.value = .nan := by
  have hsize := h.fontSize
  rw [hnan] at hsize
  exact SizeOf.value_nan hsize

theorem sizes_are_in_range_unless_nan (ht : Toml.parse? t = some table) (hs : parse t = .ok s) :
    s.layout.padding ≤ 64 ∧
      (SizeInRange s.layout.fontSize ↔ given table .fontSize ≠ some (.float .nan)) ∧
      (s.equals s = true ↔ given table .fontSize ≠ some (.float .nan)) := by
  have hfollows := follows_of_parse ht hs
  refine ⟨hfollows.padding_le, ⟨fun hrange hnan => ?_, hfollows.sizeInRange⟩, ?_⟩
  · exact not_sizeInRange_of_nan (hfollows.size_nan hnan) hrange
  · rw [equals_self_iff]
    exact ⟨fun hvalue hnan => hvalue (hfollows.size_nan hnan),
      fun hnan => (hfollows.sizeInRange hnan).ne_nan⟩

theorem parse_eq_ok_of_toOption (h : (parse t).toOption = some s) : parse t = .ok s := by
  cases hp : parse t with
  | error e =>
    rw [hp] at h
    cases h
  | ok s' =>
    rw [hp] at h
    exact congrArg Except.ok (Option.some.inj h)

/-- Settings as by default, with other sizes. -/
def ofSizes (fontSize : Single) (padding : Nat) : Settings :=
  { standard with layout := { Layout.standard with fontSize, padding } }

def largestSizes : Text := "[editor]\nfont-size = inf\npadding = 65535\n".toList

theorem largest_sizes_are_cut : parse largestSizes = .ok (ofSizes maxFontSize 64) ∧
    SizeInRange maxFontSize ∧ (ofSizes maxFontSize 64).equals (ofSizes maxFontSize 64) = true := by
  obtain ⟨table, ht⟩ := Option.isSome_iff_exists.mp
    (by decide +kernel : (Toml.parse? largestSizes).isSome = true)
  have hs : parse largestSizes = .ok (ofSizes maxFontSize 64) :=
    parse_eq_ok_of_toOption (by decide +kernel)
  have hinfinite : ((Toml.parse? largestSizes).bind (given · .fontSize)).bind single? =
      some (Single.ofBinary (.infinite false)) := by decide +kernel
  have hnan : given table .fontSize ≠ some (.float .nan) := fun hnan => by
    rw [ht, Option.bind_some, hnan] at hinfinite
    exact absurd hinfinite (by decide +kernel)
  obtain ⟨-, hrange, hequals⟩ := sizes_are_in_range_unless_nan ht hs
  exact ⟨hs, hrange.mpr hnan, hequals.mpr hnan⟩

/-- A font size that is not a number is accepted as it is. -/
theorem nan_is_accepted :
    parse "[editor]\nfont-size = nan\n".toList = .ok (ofSizes (Single.ofBinary .nan) 4) ∧
      ¬ SizeInRange (Single.ofBinary .nan) ∧
      (ofSizes (Single.ofBinary .nan) 4).equals (ofSizes (Single.ofBinary .nan) 4) = false := by
  have hvalue : (Single.ofBinary .nan).value = .nan := Single.value_ofBinary trivial
  refine ⟨parse_eq_ok_of_toOption (by decide +kernel), not_sizeInRange_of_nan hvalue, ?_⟩
  exact Bool.eq_false_iff.mpr fun hequals => equals_self_iff.mp hequals hvalue

end Settings
end QueryView
