/-
Settings follow from the known keys.

A table gives a value for each of nine known keys, three of its own and six of the section of the
editor (`given`).  If all of them are of their types (`WellTyped`), the settings are a matter of
the nine values, each one deciding its own field (`Follows`).  `Verdict` says in rules what a text
comes to: what is malformed goes before an unknown theme, and that before an invalid color.

Which tables are accepted is not quite a matter of their types.  A table that is passed over can
spoil everything: if its first key is the one by which dates and times are written as tables, it has
to be a date or a time.  And a date or a time is taken for a section of the editor, with nothing in
it.  `known_keys_decide` is the main theorem: reading a text comes to the one verdict there is,
which is that by the types if nothing of this kind is in the text; tables that give the same come to
the same; and of a file either all settings are taken or none.  All of this is so whichever texts
spell a date or a time in such a table (`spells`).
-/
import Mathlib.Data.Option.Basic
import QueryView.Proofs.Style.Color
import QueryView.Settings

namespace QueryView
namespace Settings

open Toml (Value Table)

/-! ## Known keys -/

inductive Known where
  | theme
  | plainTextColor
  | wrapWidth
  | fontSize
  | fontFamily
  | padding
  | placeholder
  | readOnly
  | autosize
  deriving DecidableEq

namespace Known

def name : Known → Text
  | theme => "theme".toList
  | plainTextColor => "plain-text-color".toList
  | wrapWidth => "wrap-width".toList
  | fontSize => "font-size".toList
  | fontFamily => "font-family".toList
  | padding => "padding".toList
  | placeholder => "placeholder".toList
  | readOnly => "read-only".toList
  | autosize => "autosize".toList

/-- The key stands in the section of the editor. -/
def inEditor : Known → Bool
  | theme | plainTextColor | wrapWidth => false
  | _ => true

/-- The key takes the value: it is of the right type and in range. -/
def Takes : Known → Value → Prop
  | theme, v | plainTextColor, v | fontFamily, v | placeholder, v => ∃ t, v = .string t
  | wrapWidth, v => ∃ n : Nat, v = .integer n
  | padding, v => ∃ n : Nat, v = .integer n ∧ n < 65536
  | fontSize, v => (∃ i, v = .integer i) ∨ ∃ x, v = .float x
  | readOnly, v | autosize, v => ∃ b, v = .boolean b

end Known

/-- The section of the editor, which is empty if there is none. -/
def editorOf (table : Table) : Table :=
  match table.get? "editor".toList with
  | some (.table entries) => entries
  | _ => []

/-- The value that a table gives for a known key. -/
def given (table : Table) (key : Known) : Option Value :=
  if key.inEditor then (editorOf table).get? key.name else table.get? key.name

/-- What is given as the section of the editor is a section, or a moment in its place. -/
def EditorFits (table : Table) : Prop :=
  ∀ v, table.get? "editor".toList = some v → v = .moment ∨ ∃ entries, v = .table entries

/-- No value claims to be a moment without being one, the section of the editor apart. -/
def Sound (spells : Text → Bool) (table : Table) : Prop :=
  (∀ e ∈ table, e.1 ≠ "editor".toList → e.2.isSound spells = true) ∧
    ∀ e ∈ editorOf table, e.2.isSound spells = true

/-- The section of the editor and every value that is given for a known key are of their types. -/
structure WellTyped (table : Table) : Prop where
  editor : ∀ v, table.get? "editor".toList = some v → ∃ entries, v = .table entries
  keys : ∀ key v, given table key = some v → key.Takes v

/-- The table is of those that are not malformed settings. -/
structure Accepted (spells : Text → Bool) (table : Table) : Prop where
  editor : EditorFits table
  keys : ∀ key v, given table key = some v → key.Takes v
  sound : Sound spells table

/-! ## Fields -/

/-- A field is as a given value says, and as by default if no value is given. -/
def Yields {α : Type} (R : Value → α → Prop) (default : α) (v? : Option Value) (x : α) : Prop :=
  match v? with
  | none => x = default
  | some v => R v x

/-- The font size that a value asks for, rounded to 32 bits and moved into its range. -/
def SizeOf (v : Value) (x : Numeric.Single) : Prop :=
  (∃ i, v = .integer i ∧
      x = Numeric.Single.clamp minFontSize maxFontSize (Numeric.Single.ofInt i)) ∨
    ∃ y, v = .float y ∧
      x = Numeric.Single.clamp minFontSize maxFontSize
        (Numeric.Single.ofBinary (Numeric.Format.single.convert y))

/-- Every field of the settings follows from the value that is given for its own key. -/
structure Follows (table : Table) (s : Settings) : Prop where
  theme : Yields (fun v theme => ∃ name, v = .string name ∧ Theme.ofName? name = some theme)
    standard.theme (given table .theme) s.theme
  plainTextColor : Yields (fun v color => ∃ hex c, v = .string hex ∧ Color.ofHex hex = .ok c ∧
    color = some c) none (given table .plainTextColor) s.plainTextColor
  wrapWidth : Yields (fun v (n : Nat) => v = .integer n) 0 (given table .wrapWidth) s.wrapWidth
  fontSize : Yields SizeOf Layout.standard.fontSize (given table .fontSize) s.layout.fontSize
  fontFamily : Yields (fun v t => v = .string t) Layout.standard.fontFamily
    (given table .fontFamily) s.layout.fontFamily
  padding : Yields (fun v m => ∃ n : Nat, v = .integer n ∧ m = min n maxPadding)
    Layout.standard.padding (given table .padding) s.layout.padding
  placeholder : Yields (fun v t? => ∃ t, v = .string t ∧ t? = some t) none
    (given table .placeholder) s.layout.placeholder
  readOnly : Yields (fun v b => v = .boolean b) Layout.standard.readOnly
    (given table .readOnly) s.layout.readOnly
  autosize : Yields (fun v b => v = .boolean b) Layout.standard.autosize
    (given table .autosize) s.layout.autosize

/-- What a text comes to, if some tables are accepted and all others are malformed settings. -/
inductive Verdict (accepts : Table → Prop) (t : Text) : Except Failure Settings → Prop where
  | malformed (h : ∀ table, Toml.parse? t = some table → ¬ accepts table) :
      Verdict accepts t (.error .malformedSettings)
  | unknownTheme {table : Table} {name : Text} (htable : Toml.parse? t = some table)
      (h : accepts table) (hname : given table .theme = some (.string name))
      (hunknown : Theme.ofName? name = none) : Verdict accepts t (.error (.unknownTheme name))
  | invalidColor {table : Table} {hex : Text} (htable : Toml.parse? t = some table)
      (h : accepts table)
      (htheme : ∀ name, given table .theme = some (.string name) → Theme.ofName? name ≠ none)
      (hhex : given table .plainTextColor = some (.string hex))
      (hinvalid : ∀ c, Color.ofHex hex ≠ .ok c) : Verdict accepts t (.error (.invalidColor hex))
  | settings {table : Table} {s : Settings} (htable : Toml.parse? t = some table)
      (h : accepts table) (hs : Follows table s) : Verdict accepts t (.ok s)

variable {spells : Text → Bool} {table : Table} {t : Text} {v : Value} {s : Settings} {g : Given}

/-! ## Single values -/

theorem text?_eq_some_iff {t : Text} : text? v = some t ↔ v = .string t := by
  cases v <;> simp [text?]

theorem flag?_eq_some_iff {b : Bool} : flag? v = some b ↔ v = .boolean b := by
  cases v <;> simp [flag?]

theorem natural?_eq_some_iff {n : Nat} : natural? v = some n ↔ v = .integer n := by
  cases v with
  | integer i =>
    cases i with
    | ofNat m => exact ⟨by rintro ⟨⟩; rfl, by rintro ⟨⟩; rfl⟩
    | negSucc m => simp [natural?]
  | _ => simp [natural?]

theorem short?_eq_some_iff {n : Nat} : short? v = some n ↔ v = .integer n ∧ n < 65536 := by
  rw [short?, Option.filter_eq_some_iff, natural?_eq_some_iff]
  exact and_congr_right fun _ => decide_eq_true_iff

theorem key?_eq_some_iff {α : Type} {read : Value → Option α} {key : String} {x : Option α} :
    key? read table key = some x ↔
      (∀ v, table.get? key.toList = some v → (read v).isSome) ∧
        x = (table.get? key.toList).bind read := by
  rw [key?]
  cases table.get? key.toList with
  | none => exact ⟨fun h => ⟨nofun, (Option.some.inj h).symm⟩, fun h => congrArg some h.2.symm⟩
  | some v =>
    constructor
    · intro h
      obtain ⟨y, hread, rfl⟩ := Option.map_eq_some_iff.mp h
      refine ⟨?_, hread.symm⟩
      rintro _ ⟨⟩
      exact Option.isSome_of_eq_some hread
    · rintro ⟨hread, rfl⟩
      obtain ⟨y, hread⟩ := Option.isSome_iff_exists.mp (hread v rfl)
      show (read v).map some = some (read v)
      rw [hread]
      rfl

/-- What is found in a table under the known keys. -/
def found (table : Table) : Given where
  theme := (given table .theme).bind text?
  plainTextColor := (given table .plainTextColor).bind text?
  wrapWidth := (given table .wrapWidth).bind natural?
  fontSize := (given table .fontSize).bind single?
  fontFamily := (given table .fontFamily).bind text?
  padding := (given table .padding).bind short?
  placeholder := (given table .placeholder).bind text?
  readOnly := (given table .readOnly).bind flag?
  autosize := (given table .autosize).bind flag?

theorem isSome_text?_iff : (text? v).isSome ↔ ∃ t, v = .string t := by
  simp only [Option.isSome_iff_exists, text?_eq_some_iff]

theorem isSome_flag?_iff : (flag? v).isSome ↔ ∃ b, v = .boolean b := by
  simp only [Option.isSome_iff_exists, flag?_eq_some_iff]

theorem isSome_natural?_iff : (natural? v).isSome ↔ ∃ n : Nat, v = .integer n := by
  simp only [Option.isSome_iff_exists, natural?_eq_some_iff]

theorem isSome_short?_iff : (short? v).isSome ↔ ∃ n : Nat, v = .integer n ∧ n < 65536 := by
  simp only [Option.isSome_iff_exists, short?_eq_some_iff]

theorem isSome_single?_iff :
    (single? v).isSome ↔ (∃ i, v = .integer i) ∨ ∃ x, v = .float x := by
  cases v <;> simp [single?]

theorem isSome_section?_iff :
    (section? v).isSome ↔ v = .moment ∨ ∃ entries, v = .table entries := by
  cases v <;> simp [section?]

/-! ## Tables -/

theorem getD_section?_eq :
    ((table.get? "editor".toList).bind section?).getD [] = editorOf table := by
  rw [editorOf]
  cases table.get? "editor".toList with
  | none => rfl
  | some v => cases v <;> rfl

theorem areSoundEntries_iff {entries : Table} :
    Toml.areSoundEntries spells entries = true ↔ ∀ e ∈ entries, e.2.isSound spells = true := by
  induction entries with
  | nil => simp [Toml.areSoundEntries]
  | cons e entries ih => rw [Toml.areSoundEntries, Bool.and_eq_true, ih, List.forall_mem_cons]

theorem passable_iff : passable spells table (editorOf table) = true ↔ Sound spells table := by
  rw [passable, Bool.and_eq_true, areSoundEntries_iff, areSoundEntries_iff, Sound]
  simp only [List.mem_filter, decide_eq_true_eq, and_imp]

/-- The first step of reading takes the tables that are accepted, and finds what they give. -/
theorem ofTable?_eq_some_iff :
    Given.ofTable? spells table = some g ↔ Accepted spells table ∧ g = found table := by
  simp only [Given.ofTable?, Option.bind_eq_bind, Option.bind_eq_some_iff, key?_eq_some_iff,
    isSome_text?_iff, isSome_flag?_iff, isSome_natural?_iff, isSome_short?_iff,
    isSome_single?_iff, isSome_section?_iff, Option.guard_eq_some', and_assoc]
  constructor
  · rintro ⟨_, htheme, htheme', _, hcolor, hcolor', _, hwidth, hwidth', _, heditor, heditor', h⟩
    -- What is read of the editor depends on its section, so the section has to be known by now.
    rw [heditor', getD_section?_eq] at h
    obtain ⟨_, hsize, hsize', _, hfamily, hfamily', _, hpadding, hpadding', _, hplaceholder,
      hplaceholder', _, hreadOnly, hreadOnly', _, hautosize, hautosize', _, hpassable, hg⟩ := h
    refine ⟨⟨heditor, fun key v hv => ?_, passable_iff.mp hpassable⟩, ?_⟩
    · cases key with
      | theme => exact htheme v hv
      | plainTextColor => exact hcolor v hv
      | wrapWidth => exact hwidth v hv
      | fontSize => exact hsize v hv
      | fontFamily => exact hfamily v hv
      | padding => exact hpadding v hv
      | placeholder => exact hplaceholder v hv
      | readOnly => exact hreadOnly v hv
      | autosize => exact hautosize v hv
    · rw [← Option.some.inj hg, htheme', hcolor', hwidth', hsize', hfamily', hpadding',
        hplaceholder', hreadOnly', hautosize']
      rfl
  · rintro ⟨⟨heditor, hkeys, hsound⟩, rfl⟩
    refine ⟨_, hkeys .theme, rfl, _, hkeys .plainTextColor, rfl, _, hkeys .wrapWidth, rfl, _,
      heditor, rfl, ?_⟩
    rw [getD_section?_eq]
    exact ⟨_, hkeys .fontSize, rfl, _, hkeys .fontFamily, rfl, _, hkeys .padding, rfl, _,
      hkeys .placeholder, rfl, _, hkeys .readOnly, rfl, _, hkeys .autosize, rfl, (),
      passable_iff.mpr hsound, rfl⟩

/-! ## Settings -/

/-- A field that is worked out from what is read for its key, if anything is, follows from the
given value. -/
theorem Accepted.yields_iff (h : Accepted spells table) {key : Known} {α β : Type}
    {R : Value → α → Prop} {read : Value → Option β} {f : Option β → α} {x : α}
    (hR : ∀ v, key.Takes v → (R v x ↔ x = f (read v))) :
    Yields R (f none) (given table key) x ↔ x = f ((given table key).bind read) := by
  cases hv : given table key with
  | none => exact Iff.rfl
  | some v => exact hR v (h.keys key v hv)

theorem resolve_eq_ok_iff : g.resolve = .ok s ↔
    g.resolveTheme = .ok s.theme ∧ g.resolveColor = .ok s.plainTextColor ∧
      s.wrapWidth = g.wrapWidth.getD standard.wrapWidth ∧ s.layout = g.layout := by
  obtain ⟨theme, color, width, layout⟩ := s
  rw [Given.resolve]
  cases g.resolveTheme with
  | error e => simp [bind, Except.bind]
  | ok theme' =>
    cases g.resolveColor with
    | error e => simp [bind, Except.bind]
    | ok color' => simp [bind, Except.bind, pure, Except.pure, eq_comm]

theorem resolveTheme_found (h : Accepted spells table) {theme : Theme} :
    (found table).resolveTheme = .ok theme ↔
      Yields (fun v theme => ∃ name, v = .string name ∧ Theme.ofName? name = some theme)
        standard.theme (given table .theme) theme := by
  rw [Given.resolveTheme, found]
  cases hv : given table .theme with
  | none => simp [Yields, eq_comm]
  | some v =>
    obtain ⟨name, rfl⟩ := h.keys .theme v hv
    cases hname : Theme.ofName? name <;> simp [Yields, text?, hname]

theorem resolveColor_found (h : Accepted spells table) {color : Option Color} :
    (found table).resolveColor = .ok color ↔
      Yields (fun v color => ∃ hex c, v = .string hex ∧ Color.ofHex hex = .ok c ∧ color = some c)
        none (given table .plainTextColor) color := by
  rw [Given.resolveColor, found]
  cases hv : given table .plainTextColor with
  | none => simp [Yields, eq_comm]
  | some v =>
    obtain ⟨hex, rfl⟩ := h.keys .plainTextColor v hv
    cases hhex : Color.ofHex hex <;> simp [Yields, text?, hhex, Except.map, eq_comm]

theorem layout_eq_iff {l m : Layout} : l = m ↔
    l.fontSize = m.fontSize ∧ l.fontFamily = m.fontFamily ∧ l.padding = m.padding ∧
      l.placeholder = m.placeholder ∧ l.readOnly = m.readOnly ∧ l.autosize = m.autosize := by
  cases l
  cases m
  simp

theorem follows_iff (h : Accepted spells table) :
    Follows table s ↔ (found table).resolve = .ok s := by
  have hwidth : Yields (fun v (n : Nat) => v = .integer n) 0 (given table .wrapWidth) s.wrapWidth ↔
      s.wrapWidth = (found table).wrapWidth.getD standard.wrapWidth :=
    h.yields_iff (f := (·.getD 0)) <| by
      rintro _ ⟨n, rfl⟩
      exact ⟨by rintro ⟨⟩; rfl, by rintro rfl; rfl⟩
  have hsize : Yields SizeOf Layout.standard.fontSize (given table .fontSize) s.layout.fontSize ↔
      s.layout.fontSize = (found table).layout.fontSize :=
    h.yields_iff (f := fun size? =>
        (size?.map (Numeric.Single.clamp minFontSize maxFontSize)).getD _) <| by
      rintro _ (⟨i, rfl⟩ | ⟨y, rfl⟩) <;> simp [single?, SizeOf]
  have hfamily : Yields (fun v t => v = .string t) Layout.standard.fontFamily
      (given table .fontFamily) s.layout.fontFamily ↔
      s.layout.fontFamily = (found table).layout.fontFamily :=
    h.yields_iff (f := (·.getD _)) <| by
      rintro _ ⟨t, rfl⟩
      simp [text?, eq_comm]
  have hpadding : Yields (fun v m => ∃ n : Nat, v = .integer n ∧ m = min n maxPadding)
      Layout.standard.padding (given table .padding) s.layout.padding ↔
      s.layout.padding = (found table).layout.padding :=
    h.yields_iff (f := fun n? => (n?.map (min · maxPadding)).getD _) <| by
      rintro _ ⟨n, rfl, hn⟩
      rw [short?_eq_some_iff.mpr ⟨rfl, hn⟩]
      exact ⟨by rintro ⟨m, ⟨⟩, h⟩; exact h, fun h => ⟨n, rfl, h⟩⟩
  have hplaceholder : Yields (fun v t? => ∃ t, v = .string t ∧ t? = some t) none
      (given table .placeholder) s.layout.placeholder ↔
      s.layout.placeholder = (found table).layout.placeholder :=
    h.yields_iff (f := id) <| by
      rintro _ ⟨t, rfl⟩
      simp [text?]
  have hflag {key : Known} {default b : Bool} (hkey : key.Takes = fun v => ∃ b, v = .boolean b) :
      Yields (fun v b => v = .boolean b) default (given table key) b ↔
        b = ((given table key).bind flag?).getD default :=
    h.yields_iff (f := (·.getD _)) <| by
      rw [hkey]
      rintro _ ⟨b, rfl⟩
      simp [flag?, eq_comm]
  constructor
  · intro hs
    rw [resolve_eq_ok_iff, resolveTheme_found h, resolveColor_found h, ← hwidth, layout_eq_iff]
    exact ⟨hs.theme, hs.plainTextColor, hs.wrapWidth, hsize.mp hs.fontSize,
      hfamily.mp hs.fontFamily, hpadding.mp hs.padding, hplaceholder.mp hs.placeholder,
      (hflag rfl).mp hs.readOnly, (hflag rfl).mp hs.autosize⟩
  · rw [resolve_eq_ok_iff, resolveTheme_found h, resolveColor_found h, ← hwidth, layout_eq_iff]
    rintro ⟨htheme, hcolor, hwidth', hsize', hfamily', hpadding', hplaceholder', hreadOnly,
      hautosize⟩
    exact ⟨htheme, hcolor, hwidth', hsize.mpr hsize', hfamily.mpr hfamily', hpadding.mpr hpadding',
      hplaceholder.mpr hplaceholder', (hflag rfl).mpr hreadOnly, (hflag rfl).mpr hautosize⟩

/-! ## Failures -/

theorem resolve_eq_error_iff {e : Failure} : g.resolve = .error e ↔
    g.resolveTheme = .error e ∨
      (∃ theme, g.resolveTheme = .ok theme) ∧ g.resolveColor = .error e := by
  rw [Given.resolve]
  cases g.resolveTheme with
  | error e' => simp [bind, Except.bind]
  | ok theme => cases g.resolveColor <;> simp [bind, Except.bind, pure, Except.pure]

theorem resolveTheme_found_error (h : Accepted spells table) {e : Failure} :
    (found table).resolveTheme = .error e ↔ ∃ name, given table .theme = some (.string name) ∧
      Theme.ofName? name = none ∧ e = .unknownTheme name := by
  rw [Given.resolveTheme, found]
  cases hv : given table .theme with
  | none => simp
  | some v =>
    obtain ⟨name, rfl⟩ := h.keys .theme v hv
    cases hname : Theme.ofName? name <;> simp [text?, hname, eq_comm]

theorem resolveColor_found_error (h : Accepted spells table) {e : Failure} :
    (found table).resolveColor = .error e ↔ ∃ hex,
      given table .plainTextColor = some (.string hex) ∧ (∀ c, Color.ofHex hex ≠ .ok c) ∧
        e = .invalidColor hex := by
  rw [Given.resolveColor, found]
  cases hv : given table .plainTextColor with
  | none => simp
  | some v =>
    obtain ⟨hex, rfl⟩ := h.keys .plainTextColor v hv
    simp only [Option.some.injEq, Value.string.injEq, exists_eq_left', Option.bind_some, text?,
      ← Color.ofHex_eq_error_iff]
    cases Color.ofHex hex <;> simp [Except.map]

/-! ## Texts -/

theorem parse_of_accepted (htable : Toml.parse? t = some table) (h : Accepted spells table) :
    parseWith spells t = (found table).resolve := by
  rw [parseWith, htable, Option.bind_some, ofTable?_eq_some_iff.mpr ⟨h, rfl⟩]

theorem parse_of_not_accepted (h : ∀ table, Toml.parse? t = some table → ¬ Accepted spells table) :
    parseWith spells t = .error .malformedSettings := by
  have hnone : (Toml.parse? t).bind (Given.ofTable? spells) = none :=
    Option.bind_eq_none_iff.mpr fun table htable =>
      Option.eq_none_iff_forall_not_mem.mpr fun g hg =>
        h table htable (ofTable?_eq_some_iff.mp hg).1
  rw [parseWith, hnone]

theorem Verdict.parse_eq {r : Except Failure Settings} (h : Verdict (Accepted spells) t r) :
    parseWith spells t = r := by
  cases h with
  | malformed h => exact parse_of_not_accepted h
  | unknownTheme htable h hname hunknown =>
    rw [parse_of_accepted htable h, resolve_eq_error_iff]
    exact .inl ((resolveTheme_found_error h).mpr ⟨_, hname, hunknown, rfl⟩)
  | invalidColor htable h htheme hhex hinvalid =>
    rw [parse_of_accepted htable h, resolve_eq_error_iff]
    refine .inr ⟨?_, (resolveColor_found_error h).mpr ⟨_, hhex, hinvalid, rfl⟩⟩
    cases hr : (found _).resolveTheme with
    | ok theme => exact ⟨theme, rfl⟩
    | error e =>
      obtain ⟨name, hname, hunknown, -⟩ := (resolveTheme_found_error h).mp hr
      exact absurd hunknown (htheme name hname)
  | settings htable h hs =>
    rw [parse_of_accepted htable h]
    exact (follows_iff h).mp hs

theorem verdict_parse (spells : Text → Bool) (t : Text) :
    Verdict (Accepted spells) t (parseWith spells t) := by
  by_cases hacc : ∃ table, Toml.parse? t = some table ∧ Accepted spells table
  · obtain ⟨table, htable, h⟩ := hacc
    rw [parse_of_accepted htable h]
    cases hr : (found table).resolve with
    | ok s => exact .settings htable h ((follows_iff h).mpr hr)
    | error e =>
      obtain htheme | ⟨⟨theme, htheme⟩, hcolor⟩ := resolve_eq_error_iff.mp hr
      · obtain ⟨name, hname, hunknown, rfl⟩ := (resolveTheme_found_error h).mp htheme
        exact .unknownTheme htable h hname hunknown
      · obtain ⟨hex, hhex, hinvalid, rfl⟩ := (resolveColor_found_error h).mp hcolor
        refine .invalidColor htable h (fun name hname hunknown => ?_) hhex hinvalid
        rw [(resolveTheme_found_error h).mpr ⟨name, hname, hunknown, rfl⟩] at htheme
        cases htheme
  · have h : ∀ table, Toml.parse? t = some table → ¬ Accepted spells table :=
      fun table htable h => hacc ⟨table, htable, h⟩
    rw [parse_of_not_accepted h]
    exact .malformed h

/-- Tables that are accepted alike and give the same for every known key come to the same. -/
theorem parse_congr {u : Text} {table' : Table} (ht : Toml.parse? t = some table)
    (hu : Toml.parse? u = some table')
    (hfit : EditorFits table ∧ Sound spells table ↔ EditorFits table' ∧ Sound spells table')
    (hgiven : ∀ key, given table key = given table' key) :
    parseWith spells t = parseWith spells u := by
  have hacc : Accepted spells table ↔ Accepted spells table' := by
    constructor
    · intro h
      obtain ⟨heditor, hsound⟩ := hfit.mp ⟨h.editor, h.sound⟩
      exact ⟨heditor, fun key v hv => h.keys key v (hgiven key ▸ hv), hsound⟩
    · intro h
      obtain ⟨heditor, hsound⟩ := hfit.mpr ⟨h.editor, h.sound⟩
      exact ⟨heditor, fun key v hv => h.keys key v (hgiven key ▸ hv), hsound⟩
  by_cases h : Accepted spells table
  · rw [parse_of_accepted ht h, parse_of_accepted hu (hacc.mp h), found, found]
    simp only [hgiven]
  · rw [parse_of_not_accepted fun _ h' => Option.some.inj (ht.symm.trans h') ▸ h,
      parse_of_not_accepted fun _ h' => Option.some.inj (hu.symm.trans h') ▸ mt hacc.mpr h]

/-- The settings of a file are all those of its text, or none of them. -/
theorem load_eq_iff {file : Except DeviceFailure (List UInt8)} : loadWith spells file = s ↔
    (∃ bytes t, file = .ok bytes ∧ Text.ofUtf8? bytes = some t ∧ parseWith spells t = .ok s) ∨
      (s = standard ∧ ∀ bytes, file = .ok bytes → ∀ t, Text.ofUtf8? bytes = some t →
        ∀ s', parseWith spells t ≠ .ok s') := by
  cases file with
  | error cause => simp [loadWith, ofFileWith, eq_comm]
  | ok bytes =>
    rw [loadWith, ofFileWith]
    cases hbytes : Text.ofUtf8? bytes with
    | none => simp [hbytes, eq_comm (a := standard)]
    | some t => cases hp : parseWith spells t <;> simp [hbytes, hp, eq_comm]

theorem verdict_iff {r : Except Failure Settings} :
    parseWith spells t = r ↔ Verdict (Accepted spells) t r :=
  ⟨fun h => h ▸ verdict_parse spells t, Verdict.parse_eq⟩

theorem Verdict.congr {accepts accepts' : Table → Prop} {r : Except Failure Settings}
    (haccepts : ∀ table, Toml.parse? t = some table → (accepts table ↔ accepts' table))
    (h : Verdict accepts t r) : Verdict accepts' t r := by
  cases h with
  | malformed h =>
    exact .malformed fun table htable => mt (haccepts table htable).mpr (h table htable)
  | unknownTheme htable h hname hunknown =>
    exact .unknownTheme htable ((haccepts _ htable).mp h) hname hunknown
  | invalidColor htable h htheme hhex hinvalid =>
    exact .invalidColor htable ((haccepts _ htable).mp h) htheme hhex hinvalid
  | settings htable h hs => exact .settings htable ((haccepts _ htable).mp h) hs

/-- Malformed settings are reported for no other reason than that a table is not accepted. -/
theorem Verdict.malformed_iff {accepts : Table → Prop} (htable : Toml.parse? t = some table) :
    Verdict accepts t (.error .malformedSettings) ↔ ¬ accepts table := by
  constructor
  · rintro ⟨h⟩
    exact h table htable
  · exact fun h => .malformed fun _ h' => Option.some.inj (htable.symm.trans h') ▸ h

theorem verdict_wellTyped_iff : (∀ r, parseWith spells t = r ↔ Verdict WellTyped t r) ↔
    ∀ table, Toml.parse? t = some table → (Accepted spells table ↔ WellTyped table) := by
  constructor
  · -- The two ways to accept tables can be told apart by what is reported as malformed.
    intro h table htable
    rw [← not_iff_not, ← Verdict.malformed_iff htable, ← verdict_iff, h,
      Verdict.malformed_iff htable]
  · intro h r
    rw [verdict_iff]
    exact ⟨.congr h, .congr fun table htable => (h table htable).symm⟩

theorem known_keys_decide (spells : Text → Bool) (t : Text)
    (file : Except DeviceFailure (List UInt8)) :
    (∀ r, parseWith spells t = r ↔ Verdict (Accepted spells) t r) ∧
      ((∀ r, parseWith spells t = r ↔ Verdict WellTyped t r) ↔
        ∀ table, Toml.parse? t = some table → (Accepted spells table ↔ WellTyped table)) ∧
      (∀ u table table', Toml.parse? t = some table → Toml.parse? u = some table' →
        (EditorFits table ∧ Sound spells table ↔ EditorFits table' ∧ Sound spells table') →
        (∀ key, given table key = given table' key) → parseWith spells t = parseWith spells u) ∧
      ∀ s, loadWith spells file = s ↔
        (∃ bytes t, file = .ok bytes ∧ Text.ofUtf8? bytes = some t ∧ parseWith spells t = .ok s) ∨
          (s = standard ∧ ∀ bytes, file = .ok bytes → ∀ t, Text.ofUtf8? bytes = some t →
            ∀ s', parseWith spells t ≠ .ok s') :=
  ⟨fun _ => verdict_iff, verdict_wellTyped_iff, fun _ _ _ => parse_congr, fun _ => load_eq_iff⟩

theorem given_eq_none {key : Known} (ht : Toml.parse? t = some table)
    (h : ((Toml.parse? t).bind (given · key)).isNone = true) : given table key = none := by
  rwa [ht, Option.bind_some, Option.isNone_iff_eq_none] at h

/-- Settings that are not known, next to the section of the editor and in it. -/
def unknownSettings : Text := "split = 1\n[editor]\nlines = true\n[history]\nsize = 10\n".toList

theorem unknown_settings_make_no_difference : parse unknownSettings = parse [] := by
  have hread : ((Toml.parse? unknownSettings).bind (Given.ofTable? Toml.isMoment)).isSome = true :=
    by decide +kernel
  obtain ⟨g, hg⟩ := Option.isSome_iff_exists.mp hread
  obtain ⟨table, ht, htable⟩ := Option.bind_eq_some_iff.mp hg
  obtain ⟨h, -⟩ := ofTable?_eq_some_iff.mp htable
  refine (known_keys_decide Toml.isMoment unknownSettings (.error .notFound)).2.2.1 [] table [] ht
    rfl (iff_of_true ⟨h.editor, h.sound⟩ ⟨nofun, passable_iff.mp rfl⟩) fun key => ?_
  rw [given_eq_none ht (by cases key <;> decide +kernel)]
  cases key <;> rfl

/-- A table that is not asked for, with the key by which dates and times are written as tables. -/
def spoiledHistory : Text := "[history]\n\"$__toml_private_datetime\" = 10\n".toList

def timeForSection : Text := "editor = 07:32:00".toList

/-- A table that is not asked for can spoil the settings, and a time of day is taken for a
section. -/
theorem spoiled_history_spoils_settings :
    (∃ table, Toml.parse? spoiledHistory = some table ∧ WellTyped table ∧
      ∀ key, given table key = none) ∧
    parse spoiledHistory = .error .malformedSettings ∧
    parse [] = .ok standard ∧
    Toml.parse? timeForSection = some [("editor".toList, .moment)] ∧
    ¬ WellTyped [("editor".toList, .moment)] ∧
    parse timeForSection = .ok standard := by
  refine ⟨?_, ?_, rfl, rfl, ?_, ?_⟩
  · obtain ⟨table, ht⟩ := Option.isSome_iff_exists.mp
      (by decide +kernel : (Toml.parse? spoiledHistory).isSome = true)
    have heditor : ((Toml.parse? spoiledHistory).bind (·.get? "editor".toList)).isNone = true := by
      decide +kernel
    rw [ht, Option.bind_some, Option.isNone_iff_eq_none] at heditor
    have hnone : ∀ key, given table key = none := fun key =>
      given_eq_none ht (by cases key <;> decide +kernel)
    refine ⟨table, ht, ⟨fun v hv => ?_, fun key v hv => ?_⟩, hnone⟩
    · cases heditor.symm.trans hv
    · cases (hnone key).symm.trans hv
  · have hnone : (Toml.parse? spoiledHistory).bind (Given.ofTable? Toml.isMoment) = none := by
      decide +kernel
    rw [parse, parseWith, hnone]
  · rintro ⟨heditor, -⟩
    obtain ⟨entries, hentries⟩ := heditor .moment rfl
    cases hentries
  · have hgiven : (Toml.parse? timeForSection).bind (Given.ofTable? Toml.isMoment) =
        some ⟨none, none, none, none, none, none, none, none, none⟩ := by decide +kernel
    rw [parse, parseWith, hgiven]
    rfl

end Settings
end QueryView
