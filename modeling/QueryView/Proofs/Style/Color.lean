/-
The spellings of a color.

A color is written in one way and read in many.  A text spells a color if it is six hexadecimal
digits, but for blanks at both ends and a `#` before the digits (`Spells`).  Only the digits
count, and not the case of their letters: a text is read as the color that is written with the
capitals of its digits (`ofHex_eq_ok_iff`).

The digits of a channel are compared one by one, in both directions: a digit has a value if and
only if the number below sixteen that is written with its capital is that value
(`hexValue?_eq_some_iff`).  From there on nothing is computed, and `digits_decide_color` follows
from what is written and what is trimmed.
-/
import Mathlib.Data.List.DropRight
import Mathlib.Data.List.TakeWhile
import QueryView.Style.Color

namespace QueryView

/-! ## Blanks at both ends -/

namespace Text

/-- The text is `core` with blanks before and after it, as many as there are. -/
structure Trimmed (t core : Text) : Prop where
  around : ∃ front back, t = front ++ core ++ back ∧
    (∀ c ∈ front, isBlank c = true) ∧ ∀ c ∈ back, isBlank c = true
  first : ∀ c ∈ core.head?, isBlank c = false
  last : ∀ c ∈ core.getLast?, isBlank c = false

theorem trimStart_append {front t : Text} (hfront : ∀ c ∈ front, isBlank c = true)
    (ht : ∀ c ∈ t.head?, isBlank c = false) : trimStart (front ++ t) = t := by
  rw [trimStart, List.dropWhile_append_of_pos hfront]
  cases t with
  | nil => rfl
  | cons c t => rw [List.dropWhile_cons_of_neg (by simp [ht c rfl])]

theorem trimEnd_eq_reverse (t : Text) : trimEnd t = (trimStart t.reverse).reverse := rfl

theorem trimEnd_append {t back : Text} (hback : ∀ c ∈ back, isBlank c = true)
    (ht : ∀ c ∈ t.getLast?, isBlank c = false) : trimEnd (t ++ back) = t := by
  have hreverse : trimStart (back.reverse ++ t.reverse) = t.reverse :=
    trimStart_append (fun c hc => hback c (List.mem_reverse.mp hc)) (by rwa [List.head?_reverse])
  rw [trimEnd_eq_reverse, List.reverse_append, hreverse, List.reverse_reverse]

theorem isBlank_head_trimStart (t : Text) : ∀ c ∈ (trimStart t).head?, isBlank c = false := by
  intro c hc
  have h := List.head?_dropWhile_not isBlank t
  rw [← trimStart, Option.mem_def.mp hc] at h
  exact h

theorem isBlank_last_trimEnd (t : Text) : ∀ c ∈ (trimEnd t).getLast?, isBlank c = false := by
  rw [trimEnd_eq_reverse, List.getLast?_reverse]
  exact isBlank_head_trimStart t.reverse

/-- Trimming leaves what is between the blanks. -/
theorem trimmed_trim (t : Text) : Trimmed t (trim t) := by
  have hsplit : trim t ++ (trimStart t).rtakeWhile isBlank = trimStart t :=
    List.rdropWhile_append_rtakeWhile
  refine ⟨⟨t.takeWhile isBlank, (trimStart t).rtakeWhile isBlank, ?_, ?_, ?_⟩, ?_, ?_⟩
  · rw [List.append_assoc, hsplit, trimStart, List.takeWhile_append_dropWhile]
  · exact fun c hc => List.mem_takeWhile_imp hc
  · exact fun c hc => List.mem_rtakeWhile_imp hc
  · intro c hc
    refine isBlank_head_trimStart t c ?_
    rw [← hsplit, Option.mem_def, List.head?_append, Option.mem_def.mp hc, Option.some_or]
  · exact isBlank_last_trimEnd (trimStart t)

theorem trimmed_iff {t core : Text} : Trimmed t core ↔ trim t = core := by
  constructor
  · intro h
    obtain ⟨front, back, rfl, hfront, hback⟩ := h.around
    cases core with
    | nil =>
      -- All blanks are before the core then.
      have hblank : ∀ c ∈ front ++ back, isBlank c = true :=
        List.forall_mem_append.mpr ⟨hfront, hback⟩
      have hnothing := trimStart_append (t := []) hblank (by simp)
      rw [List.append_nil] at hnothing
      rw [List.append_nil, trim, hnothing]
      rfl
    | cons c core =>
      have hfirst : ∀ d ∈ (c :: core ++ back).head?, isBlank d = false := h.first
      rw [List.append_assoc, trim, trimStart_append hfront hfirst, trimEnd_append hback h.last]
  · rintro rfl
    exact trimmed_trim t

theorem trimmed_self {t : Text} (h : ∀ c ∈ t, isBlank c = false) : Trimmed t t where
  around := ⟨[], [], by simp, by simp, by simp⟩
  first := fun c hc => h c (List.mem_of_mem_head? hc)
  last := fun c hc => h c (List.mem_of_getLast? hc)

/-! ## Hexadecimal digits -/

def hexDigits : Text := "0123456789abcdefABCDEF".toList

theorem mem_hexDigits_of_hexValue? {c : Char} {n : Nat} (h : hexValue? c = some n) :
    c ∈ hexDigits := by
  unfold hexValue? at h
  split at h
  · next hdigit => exact between_induction c (of_decide_eq_true hdigit) (by decide)
  split at h
  · next hsmall => exact between_induction c hsmall (by decide)
  split at h
  · next hcapital => exact between_induction c hcapital (by decide)
  · cases h

/-- The value of a digit is the number that is written with its capital. -/
theorem hexValue?_eq_some_iff {c : Char} {n : Nat} :
    hexValue? c = some n ↔ c ∈ hexDigits ∧ n < 16 ∧ hexDigit 'A' n = c.toUpper := by
  have hvalue : ∀ c ∈ hexDigits, ∃ n < 16, hexValue? c = some n ∧
      ∀ m < 16, hexDigit 'A' m = c.toUpper ↔ m = n :=
    List.forall_iff_forall_mem.mp (by decide)
  constructor
  · intro h
    have hmem := mem_hexDigits_of_hexValue? h
    obtain ⟨m, hm, hc, hunique⟩ := hvalue c hmem
    obtain rfl : m = n := Option.some.inj (hc.symm.trans h)
    exact ⟨hmem, hm, (hunique m hm).mpr rfl⟩
  · intro h
    obtain ⟨hmem, hn, hwritten⟩ := h
    obtain ⟨m, -, hc, hunique⟩ := hvalue c hmem
    rw [hc, (hunique n hn).mp hwritten]

theorem hexDigit_eq_capital : ∀ n < 16, hexDigit 'A' n ∈ hexDigits ∧
    (hexDigit 'A' n).toUpper = hexDigit 'A' n := by decide

theorem lower_upper {t : Text} (ht : ∀ c ∈ t, c ∈ hexDigits) : lower (upper t) = lower t := by
  have hdigits : ∀ c ∈ hexDigits, c.toUpper.toLower = c.toLower :=
    List.forall_iff_forall_mem.mp (by decide)
  rw [lower, upper, List.map_map]
  exact List.map_congr_left fun c hc => hdigits c (ht c hc)

theorem upper_lower {t : Text} (ht : ∀ c ∈ t, c ∈ hexDigits) : upper (lower t) = upper t := by
  have hdigits : ∀ c ∈ hexDigits, c.toLower.toUpper = c.toUpper :=
    List.forall_iff_forall_mem.mp (by decide)
  rw [lower, upper, List.map_map]
  exact List.map_congr_left fun c hc => hdigits c (ht c hc)

/-- Digits are the same in capitals if they are the same in small letters. -/
theorem upper_eq_iff {s t : Text} (hs : ∀ c ∈ s, c ∈ hexDigits) (ht : ∀ c ∈ t, c ∈ hexDigits) :
    upper s = upper t ↔ sameLetters s t = true := by
  rw [sameLetters, beq_iff_eq]
  constructor
  · intro h
    rw [← lower_upper hs, h, lower_upper ht]
  · intro h
    rw [← upper_lower hs, h, upper_lower ht]

end Text

namespace Color

open Text (Trimmed hexDigits upper)

/-! ## Channels -/

theorem channel?_eq_some_iff {a b : Char} {x : UInt8} : channel? a b = some x ↔
    Text.hexValue? a = some (x.toNat / 16) ∧ Text.hexValue? b = some (x.toNat % 16) := by
  constructor
  · intro h
    unfold channel? at h
    split at h
    · next m n ha hb =>
      have hm := (Text.hexValue?_eq_some_iff.mp ha).2.1
      have hn := (Text.hexValue?_eq_some_iff.mp hb).2.1
      obtain rfl := Option.some.inj h
      have hx : (UInt8.ofNat (16 * m + n)).toNat = 16 * m + n := UInt8.toNat_ofNat_of_lt (by
        show _ < 256
        omega)
      rw [hx, ha, hb]
      constructor <;> congr 1 <;> omega
    · cases h
  · intro h
    rw [channel?, h.1, h.2]
    simp only [Nat.div_add_mod, UInt8.ofNat_toNat]

theorem channel?_iff_written {a b : Char} {x : UInt8} : channel? a b = some x ↔
    (a ∈ hexDigits ∧ b ∈ hexDigits) ∧ channelDigits x = [a.toUpper, b.toUpper] := by
  have hx := x.toNat_lt
  rw [channel?_eq_some_iff, Text.hexValue?_eq_some_iff, Text.hexValue?_eq_some_iff, channelDigits,
    List.cons.injEq, List.cons.injEq]
  constructor
  · intro h
    exact ⟨⟨h.1.1, h.2.1⟩, h.1.2.2, h.2.2.2, rfl⟩
  · intro h
    exact ⟨⟨h.1.1, by omega, h.2.1⟩, h.1.2, by omega, h.2.2.1⟩

theorem exists_channel? {a b : Char} (ha : a ∈ hexDigits) (hb : b ∈ hexDigits) :
    ∃ x, channel? a b = some x := by
  have hvalue : ∀ c ∈ hexDigits, ∃ n < 16, Text.hexValue? c = some n :=
    List.forall_iff_forall_mem.mp (by decide)
  obtain ⟨m, -, hm⟩ := hvalue a ha
  obtain ⟨n, -, hn⟩ := hvalue b hb
  exact ⟨UInt8.ofNat (16 * m + n), by rw [channel?, hm, hn]⟩

/-! ## Six digits -/

theorem ofDigits?_six {a b d e f g : Char} {c : Color} : ofDigits? [a, b, d, e, f, g] = some c ↔
    channel? a b = some c.red ∧ channel? d e = some c.green ∧ channel? f g = some c.blue := by
  obtain ⟨red, green, blue⟩ := c
  rw [ofDigits?]
  cases channel? a b <;> cases channel? d e <;> cases channel? f g <;> simp

theorem length_of_ofDigits? {t : Text} {c : Color} (h : ofDigits? t = some c) : t.length = 6 := by
  unfold ofDigits? at h
  split at h
  · rfl
  · cases h

/-- Six digits are those of the color that is written with their capitals. -/
theorem ofDigits?_eq_some_iff {digits : Text} {c : Color} : ofDigits? digits = some c ↔
    digits.length = 6 ∧ (∀ d ∈ digits, d ∈ hexDigits) ∧ c.hex = '#' :: upper digits := by
  constructor
  · intro h
    have hlength := length_of_ofDigits? h
    match digits, hlength with
    | [a, b, d, e, f, g], _ =>
      obtain ⟨hred, hgreen, hblue⟩ := ofDigits?_six.mp h
      obtain ⟨⟨ha, hb⟩, hred⟩ := channel?_iff_written.mp hred
      obtain ⟨⟨hd, he⟩, hgreen⟩ := channel?_iff_written.mp hgreen
      obtain ⟨⟨hf, hg⟩, hblue⟩ := channel?_iff_written.mp hblue
      refine ⟨rfl, by simp [ha, hb, hd, he, hf, hg], ?_⟩
      rw [hex, hred, hgreen, hblue]
      rfl
  · intro h
    obtain ⟨hlength, hdigits, hwritten⟩ := h
    match digits, hlength with
    | [a, b, d, e, f, g], _ =>
      simp only [List.forall_mem_cons] at hdigits
      obtain ⟨ha, hb, hd, he, hf, hg, -⟩ := hdigits
      obtain ⟨hred, hgreen, hblue⟩ : channelDigits c.red = [a.toUpper, b.toUpper] ∧
          channelDigits c.green = [d.toUpper, e.toUpper] ∧
          channelDigits c.blue = [f.toUpper, g.toUpper] := by
        simpa [hex, channelDigits, upper, and_assoc] using hwritten
      exact ofDigits?_six.mpr ⟨channel?_iff_written.mpr ⟨⟨ha, hb⟩, hred⟩,
        channel?_iff_written.mpr ⟨⟨hd, he⟩, hgreen⟩, channel?_iff_written.mpr ⟨⟨hf, hg⟩, hblue⟩⟩

theorem exists_ofDigits? {digits : Text} (hlength : digits.length = 6)
    (hdigits : ∀ d ∈ digits, d ∈ hexDigits) : ∃ c, ofDigits? digits = some c := by
  match digits, hlength with
  | [a, b, d, e, f, g], _ =>
    simp only [List.forall_mem_cons] at hdigits
    obtain ⟨ha, hb, hd, he, hf, hg, -⟩ := hdigits
    obtain ⟨red, hred⟩ := exists_channel? ha hb
    obtain ⟨green, hgreen⟩ := exists_channel? hd he
    obtain ⟨blue, hblue⟩ := exists_channel? hf hg
    exact ⟨⟨red, green, blue⟩, ofDigits?_six.mpr ⟨hred, hgreen, hblue⟩⟩

/-! ## Spellings -/

/-- The text is six hexadecimal digits with blanks around them, or with blanks around a mark
and them. -/
structure Spells (t digits : Text) : Prop where
  trimmed : Trimmed t digits ∨ Trimmed t ('#' :: digits)
  six : digits.length = 6
  hexadecimal : ∀ d ∈ digits, d ∈ hexDigits

theorem hash_not_mem_hexDigits : '#' ∉ hexDigits := by decide

theorem dropHash_of_hexadecimal {digits : Text} (h : ∀ d ∈ digits, d ∈ hexDigits) :
    dropHash digits = digits := by
  unfold dropHash
  split
  · next t => exact absurd (h '#' List.mem_cons_self) hash_not_mem_hexDigits
  · rfl

theorem eq_or_eq_cons_dropHash (t : Text) : t = dropHash t ∨ t = '#' :: dropHash t := by
  unfold dropHash
  split
  · exact .inr rfl
  · exact .inl rfl

/-- The digits are found by taking away the blanks and then the mark. -/
theorem Spells.dropHash_trim {t digits : Text} (h : Spells t digits) :
    dropHash (Text.trim t) = digits := by
  rcases h.trimmed with hplain | hmarked
  · rw [Text.trimmed_iff.mp hplain, dropHash_of_hexadecimal h.hexadecimal]
  · rw [Text.trimmed_iff.mp hmarked, dropHash]

theorem Spells.unique {t digits digits' : Text} (h : Spells t digits) (h' : Spells t digits') :
    digits = digits' :=
  h.dropHash_trim.symm.trans h'.dropHash_trim

theorem ofHex_eq_ok_iff_ofDigits? {t : Text} {c : Color} :
    ofHex t = .ok c ↔ ofDigits? (dropHash (Text.trim t)) = some c := by
  rw [ofHex]
  cases ofDigits? (dropHash (Text.trim t)) <;> simp

theorem ofHex_eq_error_iff {t : Text} {e : Failure} :
    ofHex t = .error e ↔ (∀ c, ofHex t ≠ .ok c) ∧ e = .invalidColor t := by
  rw [ofHex]
  cases ofDigits? (dropHash (Text.trim t)) <;> simp [eq_comm]

/-- A text is read as the color that is written with the capitals of its digits. -/
theorem ofHex_eq_ok_iff {t : Text} {c : Color} :
    ofHex t = .ok c ↔ ∃ digits, Spells t digits ∧ c.hex = '#' :: upper digits := by
  rw [ofHex_eq_ok_iff_ofDigits?, ofDigits?_eq_some_iff]
  constructor
  · intro h
    obtain ⟨hlength, hdigits, hwritten⟩ := h
    refine ⟨dropHash (Text.trim t), ⟨?_, hlength, hdigits⟩, hwritten⟩
    rw [Text.trimmed_iff, Text.trimmed_iff]
    exact eq_or_eq_cons_dropHash (Text.trim t)
  · intro h
    obtain ⟨digits, hspells, hwritten⟩ := h
    rw [hspells.dropHash_trim]
    exact ⟨hspells.six, hspells.hexadecimal, hwritten⟩

theorem Spells.exists_color {t digits : Text} (h : Spells t digits) : ∃ c, ofHex t = .ok c := by
  obtain ⟨c, hc⟩ := exists_ofDigits? h.six h.hexadecimal
  exact ⟨c, ofHex_eq_ok_iff_ofDigits?.mpr (h.dropHash_trim ▸ hc)⟩

theorem Spells.hex_eq {t digits : Text} {c : Color} (h : Spells t digits) (hc : ofHex t = .ok c) :
    c.hex = '#' :: upper digits := by
  obtain ⟨digits', hspells, hwritten⟩ := ofHex_eq_ok_iff.mp hc
  rwa [h.unique hspells]

/-- The digits that a color is written with. -/
def writtenDigits (c : Color) : Text :=
  channelDigits c.red ++ channelDigits c.green ++ channelDigits c.blue

theorem capital_of_mem_channelDigits {x : UInt8} :
    ∀ d ∈ channelDigits x, d ∈ hexDigits ∧ d.toUpper = d := by
  have hx := x.toNat_lt
  rw [channelDigits, List.forall_mem_cons, List.forall_mem_singleton]
  exact ⟨Text.hexDigit_eq_capital _ (by omega), Text.hexDigit_eq_capital _ (by omega)⟩

theorem capital_of_mem_writtenDigits (c : Color) :
    ∀ d ∈ c.writtenDigits, d ∈ hexDigits ∧ d.toUpper = d := by
  rw [writtenDigits, List.forall_mem_append, List.forall_mem_append]
  exact ⟨⟨capital_of_mem_channelDigits, capital_of_mem_channelDigits⟩,
    capital_of_mem_channelDigits⟩

theorem spells_hex (c : Color) : Spells c.hex c.writtenDigits := by
  have hblank : ∀ d ∈ '#' :: hexDigits, Text.isBlank d = false :=
    List.forall_iff_forall_mem.mp (by decide)
  refine ⟨.inr (Text.trimmed_self fun d hd => hblank d ?_), rfl,
    fun d hd => (c.capital_of_mem_writtenDigits d hd).1⟩
  rcases List.mem_cons.mp hd with rfl | hd
  · exact List.mem_cons_self
  · exact List.mem_cons_of_mem _ (c.capital_of_mem_writtenDigits d hd).1

/-- What is written is read. -/
theorem ofHex_hex (c : Color) : ofHex c.hex = .ok c := by
  have hupper : upper c.writtenDigits = c.writtenDigits :=
    (List.map_congr_left fun d hd => (c.capital_of_mem_writtenDigits d hd).2).trans
      (List.map_id _)
  exact ofHex_eq_ok_iff.mpr ⟨c.writtenDigits, spells_hex c, by rw [hupper]; rfl⟩

theorem hex_injective {c d : Color} (h : c.hex = d.hex) : c = d := by
  have hc := ofHex_hex c
  rw [h, ofHex_hex d] at hc
  exact (Except.ok.inj hc).symm

/-- A text is read as a color if and only if it spells six digits, and in capitals these are the
digits with which the color is written.  So what is written is read again, and two texts are read
as one color if and only if their digits are the same in any case.  The failure to read a text
holds the text as it was given, blanks and all. -/
theorem digits_decide_color :
    (∀ t, (∃ c, ofHex t = .ok c) ↔ ∃ digits, Spells t digits) ∧
      (∀ t digits c, Spells t digits → ofHex t = .ok c → c.hex = '#' :: upper digits) ∧
      (∀ c : Color, ofHex c.hex = .ok c) ∧
      (∀ t u digits digits', Spells t digits → Spells u digits' →
        (ofHex t = ofHex u ↔ Text.sameLetters digits digits' = true)) ∧
      ∀ t, (∀ c, ofHex t ≠ .ok c) → ofHex t = .error (.invalidColor t) := by
  refine ⟨fun t => ?_, fun t digits c h hc => h.hex_eq hc, ofHex_hex, ?_, ?_⟩
  · constructor
    · intro h
      obtain ⟨c, hc⟩ := h
      obtain ⟨digits, hspells, -⟩ := ofHex_eq_ok_iff.mp hc
      exact ⟨digits, hspells⟩
    · intro h
      obtain ⟨digits, hspells⟩ := h
      exact hspells.exists_color
  · intro t u digits digits' ht hu
    obtain ⟨c, hc⟩ := ht.exists_color
    obtain ⟨d, hd⟩ := hu.exists_color
    rw [hc, hd, Except.ok.injEq, ← Text.upper_eq_iff ht.hexadecimal hu.hexadecimal]
    have hwritten : c.hex = d.hex ↔ upper digits = upper digits' := by
      rw [ht.hex_eq hc, hu.hex_eq hd, List.cons.injEq]
      exact and_iff_right rfl
    rw [← hwritten]
    exact ⟨congrArg hex, hex_injective⟩
  · exact fun t hnone => ofHex_eq_error_iff.mpr ⟨hnone, rfl⟩

/-- Two spellings of one color, the first with a blank before it that is none in ASCII, and a text
with a mark too many. -/
theorem same_digits_in_any_case :
    let t := "\u2003#a3F0b9\n".toList
    let u := "A3f0B9".toList
    let c : Color := ⟨0xA3, 0xF0, 0xB9⟩
    (Spells t "a3F0b9".toList ∧ ofHex t = .ok c ∧ c.hex = '#' :: upper "a3F0b9".toList) ∧
      (Spells u "A3f0B9".toList ∧
        (ofHex t = ofHex u ↔ Text.sameLetters "a3F0b9".toList "A3f0B9".toList = true)) ∧
      (∀ d, ofHex " ##A3F0B9".toList ≠ .ok d) ∧
        ofHex " ##A3F0B9".toList = .error (.invalidColor " ##A3F0B9".toList) := by
  intro t u c
  obtain ⟨-, hwritten, -, hsame, hfails⟩ := digits_decide_color
  have ht : Spells t "a3F0b9".toList :=
    ⟨.inr (Text.trimmed_iff.mpr (by decide)), rfl, List.forall_iff_forall_mem.mp (by decide)⟩
  have hu : Spells u "A3f0B9".toList :=
    ⟨.inl (Text.trimmed_iff.mpr (by decide)), rfl, List.forall_iff_forall_mem.mp (by decide)⟩
  have hnone : ∀ d, ofHex " ##A3F0B9".toList ≠ .ok d := by
    intro d hd
    cases hd
  have hc : ofHex t = .ok c := by decide
  exact ⟨⟨ht, hc, hwritten t _ c ht hc⟩, ⟨hu, hsame t u _ _ ht hu⟩, hnone, hfails _ hnone⟩

end Color
end QueryView
