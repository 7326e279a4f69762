/-
The lines of a layout.

How far a line has to be indented can be read off the text in front of it.  A reader that goes
through a JSON text from the front needs to know only whether it is in a string, and how many
containers are open (`Nesting`).  A line of a layout starts with two spaces for each container
that is open before its first character and still is after it (`IsIndented`).

That all lines are such lines is shown with a pen that refuses to write any other (`Pen.write?`).
What it has written has been checked (`isIndented_of_writeAll?`), so it is enough that it writes
all of a layout.  `Pen.Writes` says how it gets through a part of a text, and the parts of a
layout are put together by the recursion of the writer (`writes_pieces`).
-/
import QueryView.Proofs.Json.Pieces

namespace QueryView
namespace Json

open Grammar Members

/-! ## Open containers -/

/-- Where a reader is: between strings, in one of them, or behind a backslash in one. -/
inductive Place where
  | outside
  | string
  | escape
  deriving DecidableEq

/-- What a reader of a JSON text keeps in mind: its place, and how many containers are open. -/
structure Nesting where
  place : Place := .outside
  depth : Nat := 0
  deriving DecidableEq

namespace Nesting

def read (n : Nesting) (c : Char) : Nesting :=
  match n.place with
  | .outside =>
    if c = '"' then { n with place := .string }
    else if c = '[' ∨ c = '{' then { n with depth := n.depth + 1 }
    else if c = ']' ∨ c = '}' then { n with depth := n.depth - 1 }
    else n
  | .string =>
    if c = '"' then { n with place := .outside }
    else if c = '\\' then { n with place := .escape }
    else n
  | .escape => { n with place := .string }

def readAll (n : Nesting) (t : Text) : Nesting := t.foldl read n

/-- The number of containers around the next character.  One that the character opens or closes
is not around it. -/
def around (n : Nesting) (c : Char) : Nat := min n.depth (n.read c).depth

theorem readAll_append (n : Nesting) (s t : Text) :
    n.readAll (s ++ t) = (n.readAll s).readAll t := List.foldl_append

end Nesting

/-! ## Indented lines -/

/-- The text holds the line between what comes before and after it. -/
structure IsLine (t before line after : Text) : Prop where
  eq : t = before ++ (line ++ after)
  newline_not_mem : '\n' ∉ line
  start : before = [] ∨ before.getLast? = some '\n'
  stop : after = [] ∨ after.head? = some '\n'

/-- A line starts with two spaces for each container around its first character after them, which
is no blank, and does not end with a blank. -/
def IsIndented (before line : Text) : Prop :=
  ∃ k c r, line = List.replicate k ' ' ++ c :: r ∧ Text.isBlank c = false ∧
    (∀ last, line.getLast? = some last → Text.isBlank last = false) ∧
    k = 2 * (Nesting.readAll {} (before ++ List.replicate k ' ')).around c

/-! ## A careful pen -/

/-- What a line holds so far: nothing but spaces, or something that ends with a character. -/
inductive Ink where
  | margin (width : Nat)
  | text (last : Char)

structure Pen where
  nesting : Nesting := {}
  ink : Ink := .margin 0

namespace Pen

/-- Writes a character, unless that starts a line in a wrong column or with a blank, or ends
one that is empty or ends with a blank. -/
def write? : Pen → Char → Option Pen
  | ⟨n, .margin k⟩, c =>
    if c = ' ' then some ⟨n.read c, .margin (k + 1)⟩
    else if Text.isBlank c = false ∧ k = 2 * n.around c then some ⟨n.read c, .text c⟩
    else none
  | ⟨n, .text last⟩, c =>
    if c ≠ '\n' then some ⟨n.read c, .text c⟩
    else if Text.isBlank last = false then some ⟨n.read c, .margin 0⟩
    else none

def writeAll? (pen : Pen) (t : Text) : Option Pen := t.foldlM write? pen

theorem writeAll?_cons_eq_some_iff {pen pen' : Pen} {c : Char} {t : Text} :
    pen.writeAll? (c :: t) = some pen' ↔
      ∃ next, pen.write? c = some next ∧ next.writeAll? t = some pen' := by
  rw [writeAll?, List.foldlM_cons]
  exact Option.bind_eq_some_iff

theorem writeAll?_append_eq_some_iff {pen pen' : Pen} {s t : Text} :
    pen.writeAll? (s ++ t) = some pen' ↔
      ∃ next, pen.writeAll? s = some next ∧ next.writeAll? t = some pen' := by
  rw [writeAll?, List.foldlM_append]
  exact Option.bind_eq_some_iff

theorem nesting_of_write? {pen pen' : Pen} {c : Char} (h : pen.write? c = some pen') :
    pen'.nesting = pen.nesting.read c := by
  unfold write? at h
  repeat' split at h
  all_goals cases h
  all_goals rfl

theorem nesting_of_writeAll? {pen pen' : Pen} {t : Text} (h : pen.writeAll? t = some pen') :
    pen'.nesting = pen.nesting.readAll t := by
  induction t generalizing pen with
  | nil =>
    cases h
    rfl
  | cons c t ih =>
    obtain ⟨next, hc, ht⟩ := writeAll?_cons_eq_some_iff.mp h
    rw [ih ht, nesting_of_write? hc]
    rfl

/-! ### What has been written -/

/-- The line holds something and does not end with a blank. -/
def MayEnd (pen : Pen) : Prop := ∃ last, pen.ink = .text last ∧ Text.isBlank last = false

theorem of_write?_newline {pen pen' : Pen} (h : pen.write? '\n' = some pen') :
    pen'.ink = .margin 0 ∧ pen.MayEnd := by
  obtain ⟨n, k | last⟩ := pen
  · rw [write?, if_neg (by decide), if_neg fun hfirst => absurd hfirst.1 (by decide)] at h
    cases h
  · rw [write?, if_neg (by decide)] at h
    split at h
    · next hlast =>
      cases h
      exact ⟨rfl, last, rfl, hlast⟩
    · cases h

/-- A line that holds something goes on with any character. -/
theorem ink_of_text {n : Nesting} {d : Char} {t : Text} {pen : Pen} (hline : '\n' ∉ t)
    (h : (⟨n, .text d⟩ : Pen).writeAll? t = some pen) :
    ∃ last, (d :: t).getLast? = some last ∧ pen.ink = .text last := by
  induction t generalizing n d with
  | nil =>
    cases h
    exact ⟨d, rfl, rfl⟩
  | cons c t ih =>
    rw [List.mem_cons, not_or] at hline
    obtain ⟨next, hc, ht⟩ := writeAll?_cons_eq_some_iff.mp h
    rw [write?, if_pos (Ne.symm hline.1)] at hc
    cases hc
    obtain ⟨last, hlast, hend⟩ := ih hline.2 ht
    exact ⟨last, by rwa [List.getLast?_cons_cons], hend⟩

/-- A line holds nothing but spaces, or its first other character is where it belongs. -/
theorem ink_of_margin {n : Nesting} {j : Nat} {t : Text} {pen : Pen} (hline : '\n' ∉ t)
    (h : (⟨n, .margin j⟩ : Pen).writeAll? t = some pen) :
    (∃ k, pen.ink = .margin k) ∨
      ∃ k c r last, t = List.replicate k ' ' ++ c :: r ∧ Text.isBlank c = false ∧
        j + k = 2 * (n.readAll (List.replicate k ' ')).around c ∧
        (c :: r).getLast? = some last ∧ pen.ink = .text last := by
  induction t generalizing n j with
  | nil =>
    cases h
    exact .inl ⟨j, rfl⟩
  | cons c t ih =>
    rw [List.mem_cons, not_or] at hline
    obtain ⟨next, hc, ht⟩ := writeAll?_cons_eq_some_iff.mp h
    rw [write?] at hc
    by_cases hspace : c = ' '
    · rw [if_pos hspace] at hc
      cases hc
      rcases ih hline.2 ht with hmargin | ⟨k, d, r, last, rfl, hd, hk, hlast, hend⟩
      · exact .inl hmargin
      · -- The space counts for the margin, as one that was there from the start.
        refine .inr ⟨k + 1, d, r, last, by rw [hspace]; rfl, hd, ?_, hlast, hend⟩
        rw [hspace] at hk
        rw [← Nat.add_assoc, Nat.add_right_comm, hk]
        rfl
    · rw [if_neg hspace] at hc
      split at hc
      · next hfirst =>
        cases hc
        obtain ⟨last, hlast, hend⟩ := ink_of_text hline.2 ht
        exact .inr ⟨0, c, t, last, rfl, hfirst.1, hfirst.2, hlast, hend⟩
      · cases hc

theorem ink_at_start {before : Text} {pen : Pen} (h : writeAll? {} before = some pen)
    (hstart : before = [] ∨ before.getLast? = some '\n') : pen.ink = .margin 0 := by
  rcases hstart with rfl | hlast
  · cases h
    rfl
  · obtain ⟨front, rfl⟩ := List.getLast?_eq_some_iff.mp hlast
    obtain ⟨next, -, hfinal⟩ := writeAll?_append_eq_some_iff.mp h
    obtain ⟨p, hp, hnil⟩ := writeAll?_cons_eq_some_iff.mp hfinal
    cases hnil
    exact (of_write?_newline hp).1

theorem mayEnd_at_stop {pen pen' : Pen} {after : Text} (h : pen.writeAll? after = some pen')
    (hend : pen'.MayEnd) (hstop : after = [] ∨ after.head? = some '\n') : pen.MayEnd := by
  rcases hstop with rfl | hhead
  · cases h
    exact hend
  · obtain ⟨rest, rfl⟩ := List.head?_eq_some_iff.mp hhead
    obtain ⟨next, hnext, -⟩ := writeAll?_cons_eq_some_iff.mp h
    exact (of_write?_newline hnext).2

/-- If the pen got through a text and may end its last line, all lines are indented. -/
theorem isIndented_of_writeAll? {t : Text} {pen : Pen} (h : writeAll? {} t = some pen)
    (hend : pen.MayEnd) {before line after : Text} (hline : IsLine t before line after) :
    IsIndented before line := by
  obtain ⟨rfl, hnewline, hstart, hstop⟩ := hline
  obtain ⟨⟨n, ink⟩, hbefore, hrest⟩ := writeAll?_append_eq_some_iff.mp h
  obtain ⟨q, hwritten, hafter⟩ := writeAll?_append_eq_some_iff.mp hrest
  have hnesting : n = Nesting.readAll {} before := nesting_of_writeAll? hbefore
  obtain ⟨final, hfinal, hblank⟩ := mayEnd_at_stop hafter hend hstop
  cases ink_at_start hbefore hstart
  rcases ink_of_margin hnewline hwritten with ⟨k, hk⟩ | ⟨k, c, r, last, rfl, hc, hk, hlast, hink⟩
  · -- The line would be empty but for spaces, and could not be ended.
    rw [hk] at hfinal
    cases hfinal
  · rw [hink] at hfinal
    cases hfinal
    refine ⟨k, c, r, rfl, hc, fun d hd => ?_, ?_⟩
    · rw [List.getLast?_append_cons, hlast] at hd
      cases hd
      exact hblank
    · rw [Nesting.readAll_append, ← hnesting, ← hk, Nat.zero_add]

/-! ## Writing a layout -/

/-- From any pen of one kind the text is written, and leaves a pen of the other kind. -/
def Writes (P : Pen → Prop) (t : Text) (Q : Pen → Prop) : Prop :=
  ∀ pen, P pen → ∃ pen', pen.writeAll? t = some pen' ∧ Q pen'

section

variable {P Q R : Pen → Prop} {s t : Text} {c : Char}

theorem Writes.nil : Writes P [] P := fun pen hpen => ⟨pen, rfl, hpen⟩

theorem Writes.append (hs : Writes P s Q) (ht : Writes Q t R) : Writes P (s ++ t) R := by
  intro pen hpen
  obtain ⟨next, hnext, hq⟩ := hs pen hpen
  obtain ⟨pen', hpen', hr⟩ := ht next hq
  exact ⟨pen', writeAll?_append_eq_some_iff.mpr ⟨next, hnext, hpen'⟩, hr⟩

theorem Writes.cons (hc : Writes P [c] Q) (ht : Writes Q t R) : Writes P (c :: t) R :=
  hc.append ht

theorem Writes.of_imp (himp : ∀ pen, P pen → Q pen) (h : Writes Q t R) : Writes P t R :=
  fun pen hpen => h pen (himp pen hpen)

theorem writes_singleton (h : ∀ pen, P pen → ∃ pen', pen.write? c = some pen' ∧ Q pen') :
    Writes P [c] Q := by
  intro pen hpen
  obtain ⟨pen', hc, hq⟩ := h pen hpen
  exact ⟨pen', writeAll?_cons_eq_some_iff.mpr ⟨pen', hc, rfl⟩, hq⟩

end

/-- The next character may be the first of a line that is indented `k` times.  There are `d` open
containers. -/
inductive Ready (k d : Nat) : Pen → Prop where
  | margin : Ready k d ⟨⟨.outside, d⟩, .margin (2 * k)⟩
  | text (last : Char) : Ready k d ⟨⟨.outside, d⟩, .text last⟩

/-- A lexeme or a mark has just ended. -/
inductive Done (d : Nat) : Pen → Prop where
  | text {last : Char} : Text.isBlank last = false → Done d ⟨⟨.outside, d⟩, .text last⟩

inductive InString (d : Nat) : Pen → Prop where
  | text (last : Char) : InString d ⟨⟨.string, d⟩, .text last⟩

theorem Done.mayEnd {d : Nat} {pen : Pen} (h : Done d pen) : pen.MayEnd := by
  cases h with
  | text hlast => exact ⟨_, rfl, hlast⟩

theorem Done.ready {d : Nat} {pen : Pen} (k : Nat) (h : Done d pen) : Ready k d pen := by
  cases h with
  | text _ => exact .text _

/-- What may start a line may stand anywhere behind its start, too. -/
theorem write?_ready {k d : Nat} {pen : Pen} {c : Char} (h : Ready k d pen)
    (hc : Text.isBlank c = false) (haround : Nesting.around ⟨.outside, d⟩ c = k) :
    pen.write? c = some ⟨Nesting.read ⟨.outside, d⟩ c, .text c⟩ := by
  have hne {b : Char} (hb : Text.isBlank b = true) : c ≠ b := by
    rintro rfl
    exact Bool.false_ne_true (hc.symm.trans hb)
  cases h with
  | margin => rw [write?, if_neg (hne (by decide)), haround, if_pos ⟨hc, rfl⟩]
  | text last => rw [write?, if_pos (hne (by decide))]

/-! ### Marks -/

theorem writeAll?_spaces (d j k : Nat) :
    (⟨⟨.outside, d⟩, .margin j⟩ : Pen).writeAll? (List.replicate k ' ') =
      some ⟨⟨.outside, d⟩, .margin (j + k)⟩ := by
  induction k generalizing j with
  | zero => rfl
  | succ k ih =>
    rw [List.replicate_succ, writeAll?_cons_eq_some_iff]
    refine ⟨⟨⟨.outside, d⟩, .margin (j + 1)⟩, rfl, ?_⟩
    rw [ih, Nat.add_right_comm, Nat.add_assoc]

theorem writes_newline (k d : Nat) : Writes (Done d) (newline k) (Ready k d) := by
  intro pen hpen
  cases hpen with
  | @text last hlast =>
    have hbreak : (⟨⟨.outside, d⟩, .text last⟩ : Pen).write? '\n' =
        some ⟨⟨.outside, d⟩, .margin 0⟩ := if_pos hlast
    refine ⟨⟨⟨.outside, d⟩, .margin (2 * k)⟩, ?_, .margin⟩
    rw [newline, concat_indentation, writeAll?_cons_eq_some_iff]
    exact ⟨_, hbreak, by rw [writeAll?_spaces, Nat.zero_add]⟩

theorem writes_mark {c : Char} {k d d' : Nat} (hc : Text.isBlank c = false)
    (hread : Nesting.read ⟨.outside, d⟩ c = ⟨.outside, d'⟩) (hk : min d d' = k) :
    Writes (Ready k d) [c] (Done d') := by
  refine writes_singleton fun pen hpen => ⟨_, write?_ready hpen hc ?_, ?_⟩
  · rwa [Nesting.around, hread]
  · rw [hread]
    exact .text hc

theorem writes_open {c : Char} (hc : c = '[' ∨ c = '{') (d : Nat) :
    Writes (Ready d d) [c] (Done (d + 1)) := by
  have hmin : min d (d + 1) = d := Nat.min_eq_left (Nat.le_succ d)
  rcases hc with rfl | rfl <;> exact writes_mark (by decide) rfl hmin

theorem writes_close {c : Char} (hc : c = ']' ∨ c = '}') (d : Nat) :
    Writes (Ready d (d + 1)) [c] (Done d) := by
  have hmin : min (d + 1) d = d := Nat.min_eq_right (Nat.le_succ d)
  rcases hc with rfl | rfl <;> exact writes_mark (by decide) rfl hmin

/-- A character that is no blank and neither opens nor closes anything. -/
def isInert (c : Char) : Bool :=
  decide (Text.isBlank c = false ∧ c ∉ ['"', '[', ']', '{', '}'])

theorem writes_isInert {c : Char} (hc : isInert c = true) (d : Nat) :
    Writes (Ready d d) [c] (Done d) := by
  obtain ⟨hblank, hmarks⟩ := of_decide_eq_true hc
  have hread : Nesting.read ⟨.outside, d⟩ c = ⟨.outside, d⟩ := by
    simp only [List.mem_cons, List.not_mem_nil, or_false, not_or] at hmarks
    simp [Nesting.read, hmarks]
  exact writes_mark hblank hread (Nat.min_self d)

theorem writes_colon (d : Nat) : Writes (Done d) [':', ' '] (Ready d d) := by
  have hcolon := writes_isInert (c := ':') (by decide) d
  have hspace : Writes (Done d) [' '] (Ready d d) := by
    refine writes_singleton fun pen hpen => ?_
    cases hpen with
    | text _ => exact ⟨_, rfl, .text ' '⟩
  exact (hcolon.of_imp fun _ => Done.ready d).cons hspace

/-! ### Lexemes -/

theorem writes_all_isInert {t : Text} (hne : t ≠ []) (ht : t.all isInert = true) (d : Nat) :
    Writes (Ready d d) t (Done d) := by
  induction t with
  | nil => exact absurd rfl hne
  | cons c t ih =>
    rw [List.all_cons, Bool.and_eq_true] at ht
    obtain ⟨hc, ht⟩ := ht
    have hfirst := writes_isInert hc d
    by_cases hnil : t = []
    · rwa [hnil]
    · exact hfirst.cons ((ih hnil ht).of_imp fun _ => Done.ready d)

theorem isInert_of_standsInNumber {c : Char} (h : standsInNumber c = true) :
    isInert c = true := by
  have hascii : ∀ n < 128, standsInNumber (Char.ofNat n) = true →
      isInert (Char.ofNat n) = true := by decide
  have hc : c.toNat < 128 := by
    simp only [standsInNumber, extendsNumber, Text.isDigit, Bool.or_eq_true, decide_eq_true_eq,
      beq_iff_eq] at h
    rcases h with ((((⟨-, hnine⟩ | rfl) | rfl) | rfl) | rfl) | rfl
    · exact Nat.lt_of_le_of_lt (UInt32.le_iff_toNat_le.mp hnine) (by decide)
    all_goals decide
  rw [← Char.ofNat_toNat c] at h ⊢
  exact hascii c.toNat hc h

theorem writes_number {n : Text} (hn : Number n) (d : Nat) :
    Writes (Ready d d) n (Done d) := by
  have hall := List.all_eq_true.mp hn.all_standsInNumber
  have hinert := List.all_eq_true.mpr fun c hc => isInert_of_standsInNumber (hall c hc)
  exact writes_all_isInert hn.ne_nil hinert d

theorem writes_in_string {c : Char} (hquote : c ≠ '"') (hbackslash : c ≠ '\\')
    (hnewline : c ≠ '\n') (d : Nat) : Writes (InString d) [c] (InString d) := by
  refine writes_singleton fun pen hpen => ?_
  cases hpen with
  | text last =>
    have hread : Nesting.read ⟨.string, d⟩ c = ⟨.string, d⟩ := by
      simp [Nesting.read, hquote, hbackslash]
    refine ⟨_, if_pos hnewline, ?_⟩
    rw [hread]
    exact .text c

/-- Behind a backslash no character closes the string. -/
theorem writes_escaped {c : Char} (hnewline : c ≠ '\n') (d : Nat) :
    Writes (InString d) ['\\', c] (InString d) := by
  intro pen hpen
  cases hpen with
  | text last =>
    refine ⟨⟨⟨.string, d⟩, .text c⟩, ?_, .text c⟩
    refine writeAll?_cons_eq_some_iff.mpr ⟨⟨⟨.escape, d⟩, .text '\\'⟩, rfl, ?_⟩
    exact writeAll?_cons_eq_some_iff.mpr ⟨_, if_pos hnewline, rfl⟩

theorem writes_unit {u : StringUnit} {t : Text} (h : UnitText u t) (d : Nat) :
    Writes (InString d) t (InString d) := by
  cases h with
  | plain hbackslash hquote hc =>
    refine writes_in_string hquote hbackslash ?_ d
    rintro rfl
    exact hc (by decide)
  | short he =>
    refine writes_escaped ?_ d
    rintro rfl
    cases he
  | @code a b c e n hn =>
    have hdigit {x : Char} (hx : x ∈ [a, b, c, e]) : Writes (InString d) [x] (InString d) := by
      have hne {y : Char} (hy : Text.hexValue? y = none) : x ≠ y := by
        rintro rfl
        rw [fourDigits?_eq_none hy hx] at hn
        cases hn
      exact writes_in_string (hne (by decide)) (hne (by decide)) (hne (by decide)) d
    have hfour := (hdigit (x := a) (by simp)).append ((hdigit (x := b) (by simp)).append
      ((hdigit (x := c) (by simp)).append (hdigit (x := e) (by simp))))
    exact (writes_escaped (c := 'u') (by decide) d).append hfour

theorem writes_units {us : Spelling} {t : Text} (h : UnitsText us t) (d : Nat) :
    Writes (InString d) t (InString d) := by
  induction h with
  | nil => exact .nil
  | cons hu _ ih => exact (writes_unit hu d).append ih

theorem writes_quote (t : Text) (d : Nat) : Writes (Ready d d) (quote t) (Done d) := by
  have hopen : Writes (Ready d d) ['"'] (InString d) := by
    refine writes_singleton fun pen hpen => ⟨_, write?_ready hpen (by decide) ?_, .text '"'⟩
    exact Nat.min_self d
  have hclose : Writes (InString d) ['"'] (Done d) := by
    refine writes_singleton fun pen hpen => ?_
    cases hpen with
    | text last => exact ⟨_, rfl, .text (by decide)⟩
  exact hopen.cons ((writes_units (unitsText_spell t) d).append hclose)

/-! ### Trees -/

mutual

/-- A value is written with as many containers open at its end as at its start. -/
theorem writes_pieces (d : Nat) (v : Tree) (h : Sound v) :
    Writes (Ready d d) (Token.concat (Value.pieces d v)) (Done d) := by
  match v with
  | .null | .bool true | .bool false =>
    rw [Value.pieces, concat_singleton]
    exact writes_all_isInert (by decide) (by decide) d
  | .number n =>
    cases h with
    | number hn =>
      rw [Value.pieces, concat_singleton]
      exact writes_number hn d
  | .string t =>
    rw [Value.pieces, concat_singleton]
    exact writes_quote t d
  | .array [] =>
    rw [Value.pieces, concat_singleton]
    exact (writes_open (.inl rfl) d).cons
      ((writes_close (.inl rfl) d).of_imp fun _ => Done.ready d)
  | .object [] =>
    rw [Value.pieces, concat_singleton]
    exact (writes_open (.inr rfl) d).cons
      ((writes_close (.inr rfl) d).of_imp fun _ => Done.ready d)
  | .array (v :: items) =>
    cases h with
    | array hitems =>
      have hv := writes_pieces (d + 1) v (hitems v List.mem_cons_self)
      have hmore := writes_moreItemPieces (d + 1) items
        fun w hw => hitems w (List.mem_cons_of_mem v hw)
      have hinside := (writes_newline (d + 1) (d + 1)).append
        (hv.append (hmore.append (writes_newline d (d + 1))))
      rw [concat_pieces_array]
      exact (writes_open (.inl rfl) d).cons (hinside.append (writes_close (.inl rfl) d))
  | .object ((key, v) :: members) =>
    cases h with
    | object _ hmembers =>
      have hv := writes_pieces (d + 1) v (hmembers _ List.mem_cons_self)
      have hmore := writes_moreMemberPieces (d + 1) members
        fun m hm => hmembers m (List.mem_cons_of_mem _ hm)
      have hmember := (writes_quote key (d + 1)).append ((writes_colon (d + 1)).append
        (hv.append (hmore.append (writes_newline d (d + 1)))))
      have hinside := (writes_newline (d + 1) (d + 1)).append hmember
      rw [concat_pieces_object]
      exact (writes_open (.inr rfl) d).cons (hinside.append (writes_close (.inr rfl) d))

theorem writes_moreItemPieces (d : Nat) (items : List Tree) (h : ∀ v ∈ items, Sound v) :
    Writes (Done d) (Token.concat (Value.moreItemPieces d items)) (Done d) := by
  match items with
  | [] => exact .nil
  | v :: items =>
    have hcomma := (writes_isInert (c := ',') (by decide) d).of_imp fun _ => Done.ready d
    have hv := writes_pieces d v (h v List.mem_cons_self)
    have hmore := writes_moreItemPieces d items fun w hw => h w (List.mem_cons_of_mem v hw)
    rw [concat_moreItemPieces]
    exact hcomma.cons ((writes_newline d d).append (hv.append hmore))

theorem writes_moreMemberPieces (d : Nat) (members : Members Tree)
    (h : ∀ m ∈ members, Sound m.2) :
    Writes (Done d) (Token.concat (Value.moreMemberPieces d members)) (Done d) := by
  match members with
  | [] => exact .nil
  | (key, v) :: members =>
    have hcomma := (writes_isInert (c := ',') (by decide) d).of_imp fun _ => Done.ready d
    have hv := writes_pieces d v (h _ List.mem_cons_self)
    have hmore := writes_moreMemberPieces d members
      fun m hm => h m (List.mem_cons_of_mem _ hm)
    rw [concat_moreMemberPieces]
    exact hcomma.cons ((writes_newline d d).append ((writes_quote key d).append
      ((writes_colon d).append (hv.append hmore))))

end

end Pen

/-- The pieces of a layout in colors of their own are the keys and scalars of the tree from front
to back, and each is on one line; listed with the empty containers, these are where the tree has
them.  What is in the plain color are marks, spaces and line ends, and all lines are indented by
the number of containers around them. -/
theorem layout_reflects_the_tree {t : Text} {ps : List Token} (h : format? t = some ps) :
    ∃ v, HasTree t v ∧
      ps.filter (fun token => token.kind ≠ .plain) = listing false v ∧
      ps.filter (isListed true) = listing true v ∧
      (∀ token ∈ ps, token.kind = .plain →
        token.text ⊆ ['[', ']', '{', '}', ',', ':', ' ', '\n']) ∧
      (∀ token ∈ ps, token.kind ≠ .plain → '\n' ∉ token.text) ∧
      ∀ before line after, IsLine (Token.concat ps) before line after →
        IsIndented before line := by
  have hpiece := piece_of_format? h
  obtain ⟨v, hv, rfl⟩ := format?_eq_some_iff.mp h
  obtain ⟨pen, hpen, hdone⟩ := Pen.writes_pieces 0 v hv.sound {} .margin
  have hlisting := filter_pieces false 0 v
  rw [isListed_false] at hlisting
  exact ⟨v, hv, hlisting, filter_pieces true 0 v,
    fun token htoken => (hpiece token htoken).subset_of_plain,
    fun token htoken => (hpiece token htoken).newline_not_mem,
    fun _ _ _ hline => Pen.isIndented_of_writeAll? hpen hdone.mayEnd hline⟩

/-- A key that is repeated, escapes, a bracket in a string, and an empty array two levels deep. -/
theorem nested_layout_reflects_its_tree :
    let t := "\x7b \"a\":1, \"b\":\x7b\"]\":[ ]\x7d,\"a\":\"\\u0041\\n\"\x7d".toList
    let before := "\x7b\n  \"a\": \"A\\n\",\n  \"b\": \x7b\n".toList
    ∃ ps v, format? t = some ps ∧ HasTree t v ∧
      listing true v = [⟨.propertyName, "\"a\"".toList⟩, ⟨.string, "\"A\\n\"".toList⟩,
        ⟨.propertyName, "\"b\"".toList⟩, ⟨.propertyName, "\"]\"".toList⟩, mark "[]"] ∧
      Token.concat ps = before ++ "    \"]\": []\n  \x7d\n\x7d".toList ∧
      IsIndented before "    \"]\": []".toList := by
  intro t before
  have hformat : format? t = some [mark "\x7b\n", ⟨.plain, "  ".toList⟩,
      ⟨.propertyName, "\"a\"".toList⟩, mark ": ", ⟨.string, "\"A\\n\"".toList⟩, mark ",\n",
      ⟨.plain, "  ".toList⟩, ⟨.propertyName, "\"b\"".toList⟩, mark ": ", mark "\x7b\n",
      ⟨.plain, "    ".toList⟩, ⟨.propertyName, "\"]\"".toList⟩, mark ": ", mark "[]", mark "\n",
      ⟨.plain, "  ".toList⟩, mark "\x7d", mark "\n", mark "\x7d"] := by decide +kernel
  obtain ⟨v, hv, -, hlisting, -, -, hlines⟩ := layout_reflects_the_tree hformat
  refine ⟨_, v, hformat, hv, hlisting.symm.trans (by decide), by decide, ?_⟩
  exact hlines before "    \"]\": []".toList "\n  \x7d\n\x7d".toList
    ⟨by decide, by decide, .inr (by decide), .inr (by decide)⟩

end Json
end QueryView
