/-
Settings from a TOML text.

Reading has two steps.  The first takes the known keys out of the table and checks that
each has a value of its own type and range; `Given` is what it finds.  The second looks
up the names of themes and colors and fills in what is not given.  Every fault of the
first step comes before any of the second.

Keys that are not known are passed over, whatever their values are.  All that is asked of
such a value is that it is sound: a table in it that claims to be a date or a time has to
be one.  What a date or a time is, `parseWith` is told.
-/
import QueryView.Layout
import QueryView.Style.Palette
import QueryView.Text.Path
import QueryView.Text.Utf8
import QueryView.Toml.Document
import QueryView.Toml.Moment

namespace QueryView

structure Settings where
  theme : Theme
  /-- The color of text that is not highlighted; without one the theme decides. -/
  plainTextColor : Option Color
  /-- The column limit of a terminal, zero for none. -/
  wrapWidth : Nat
  layout : Layout
  deriving DecidableEq

namespace Settings

/-- The settings in force where none are chosen. -/
def standard : Settings := ⟨Theme.standard, none, 0, Layout.standard⟩

/-! ## Known keys -/

/-- The values of the known keys, each of its own type and range. -/
structure Given where
  theme : Option Text
  plainTextColor : Option Text
  wrapWidth : Option Nat
  fontSize : Option Numeric.Single
  fontFamily : Option Text
  padding : Option Nat
  placeholder : Option Text
  readOnly : Option Bool
  autosize : Option Bool
  deriving DecidableEq

def text? : Toml.Value → Option Text
  | .string t => some t
  | _ => none

def flag? : Toml.Value → Option Bool
  | .boolean b => some b
  | _ => none

/-- A value that is an integer from zero up. -/
def natural? : Toml.Value → Option Nat
  | .integer (.ofNat n) => some n
  | _ => none

/-- A value that is an integer of 16 bits from zero up. -/
def short? (v : Toml.Value) : Option Nat := (natural? v).filter fun n => decide (n < 65536)

/-- A value that is a number, rounded once to 32 bits. -/
def single? : Toml.Value → Option Numeric.Single
  | .integer i => some (Numeric.Single.ofInt i)
  | .float x => some (Numeric.Single.ofBinary (Numeric.Format.single.convert x))
  | _ => none

/-- A value that is a section of settings.  A date or a time is a section in which none
of the known keys is given. -/
def section? : Toml.Value → Option Toml.Table
  | .table t => some t
  | .moment => some []
  | _ => none

/-- The value of a key if the key is given, unless it is not what `read` takes. -/
def key? {α : Type} (read : Toml.Value → Option α) (table : Toml.Table) (key : String) :
    Option (Option α) :=
  match table.get? key.toList with
  | some v => (read v).map some
  | none => some none

/-- The values that are passed over are sound.  The section of the editor is looked at key
by key, and of the other values only sound ones are taken for a known key, so it does no
harm to ask the same of them. -/
def passable (spells : Text → Bool) (table editor : Toml.Table) : Bool :=
  Toml.areSoundEntries spells (table.filter fun e => e.1 ≠ "editor".toList) &&
    Toml.areSoundEntries spells editor

/-- The known keys of a table, unless one of them has a value it does not take or a value
that is passed over is not sound. -/
def Given.ofTable? (spells : Text → Bool) (table : Toml.Table) : Option Given := do
  let theme ← key? text? table "theme"
  let plainTextColor ← key? text? table "plain-text-color"
  let wrapWidth ← key? natural? table "wrap-width"
  let editor := (← key? section? table "editor").getD []
  let fontSize ← key? single? editor "font-size"
  let fontFamily ← key? text? editor "font-family"
  let padding ← key? short? editor "padding"
  let placeholder ← key? text? editor "placeholder"
  let readOnly ← key? flag? editor "read-only"
  let autosize ← key? flag? editor "autosize"
  guard (passable spells table editor)
  return { theme, plainTextColor, wrapWidth, fontSize, fontFamily, padding, placeholder,
           readOnly, autosize }

/-! ## Limits and defaults -/

def minFontSize : Numeric.Single := Numeric.Single.ofInt 6

def maxFontSize : Numeric.Single := Numeric.Single.ofInt 72

def maxPadding : Nat := 64

def Given.layout (g : Given) : Layout :=
  let base := Layout.standard
  { fontSize := (g.fontSize.map (Numeric.Single.clamp minFontSize maxFontSize)).getD base.fontSize
    fontFamily := g.fontFamily.getD base.fontFamily
    padding := (g.padding.map (min · maxPadding)).getD base.padding
    placeholder := g.placeholder
    readOnly := g.readOnly.getD base.readOnly
    autosize := g.autosize.getD base.autosize }

def Given.resolveTheme (g : Given) : Except Failure Theme :=
  match g.theme with
  | none => .ok standard.theme
  | some name =>
    match Theme.ofName? name with
    | some theme => .ok theme
    | none => .error (.unknownTheme name)

def Given.resolveColor (g : Given) : Except Failure (Option Color) :=
  match g.plainTextColor with
  | none => .ok none
  | some t => (Color.ofHex t).map some

/-- The settings that the given keys ask for.  A theme that is not known is reported
before a text that is no color. -/
def Given.resolve (g : Given) : Except Failure Settings := do
  let theme ← g.resolveTheme
  let plainTextColor ← g.resolveColor
  return { theme, plainTextColor, wrapWidth := g.wrapWidth.getD standard.wrapWidth,
           layout := g.layout }

/-! ## Texts and files -/

/-- The settings of a text, given which texts spell a date or a time out. -/
def parseWith (spells : Text → Bool) (t : Text) : Except Failure Settings :=
  match (Toml.parse? t).bind (Given.ofTable? spells) with
  | some given => given.resolve
  | none => .error .malformedSettings

/-- The settings of a file, given its bytes or why there are none. -/
def ofFileWith (spells : Text → Bool) (file : Except DeviceFailure (List UInt8)) :
    Except Failure Settings :=
  match file with
  | .error cause => .error (.device cause)
  | .ok bytes =>
    match Text.ofUtf8? bytes with
    | some t => parseWith spells t
    | none => .error (.device .notUtf8)

/-- The settings of a file, or the standard ones if the file gives none. -/
def loadWith (spells : Text → Bool) (file : Except DeviceFailure (List UInt8)) : Settings :=
  match ofFileWith spells file with
  | .ok settings => settings
  | .error _ => standard

def parse : Text → Except Failure Settings := parseWith Toml.isMoment

def ofFile : Except DeviceFailure (List UInt8) → Except Failure Settings :=
  ofFileWith Toml.isMoment

def load : Except DeviceFailure (List UInt8) → Settings := loadWith Toml.isMoment

/-- The settings file of a user, given the user's home directory. -/
def path (home : Text) : Text := Text.joinPath home ".querylens.toml".toList

end Settings
end QueryView
