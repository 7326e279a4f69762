/-
What the program does with its arguments.

`run` is the whole program as a function of what surrounds it: the arguments, the files
it may read, its standard input, and whether its output goes to a terminal.  A request
for help or for the version counts only as the first argument, and nothing is read then.
Otherwise the text of the file or of the standard input, without the line ends that
close it, is highlighted and laid out as one frame, and a line end follows it.  Output
that does not go to a terminal has neither escapes nor a margin.

The order of the steps decides which of several faults is reported: faults in the
arguments come first, and settings that cannot be read are no fault at all.
-/
import QueryView.CommandLine.Options
import QueryView.Highlighter
import QueryView.Settings
import QueryView.Terminal.Frame

namespace QueryView
namespace CommandLine

structure Surroundings where
  /-- The bytes of the settings file, or why there are none. -/
  settingsFile : Except DeviceFailure (List UInt8)
  /-- The bytes of a file, or why there are none. -/
  files : Text → Except DeviceFailure (List UInt8)
  standardInput : List UInt8
  onTerminal : Bool

structure Outcome where
  status : Nat
  output : Text
  complaint : Option Text
  deriving DecidableEq

/-! ## Help -/

def title : String := "querylens 0.1.0"

def versionText : Text := (title ++ "\n").toList

def usageText : Text := ("\n".intercalate
  [title ++ " - highlight queries and JSON results",
   "",
   "Usage: querylens [OPTIONS] [FILE]",
   "",
   "Reads FILE, or standard input when FILE is absent or '-'.",
   "",
   "Options:",
   "  --sql          Highlight as a query (default for stdin)",
   "  --json         Pretty-print and highlight as JSON",
   "  --plain        No highlighting",
   "  --dark         Use the dark palette",
   "  --light        Use the light palette",
   "  -w, --width N  Wrap output at N columns (0 = no wrap)",
   "  -h, --help     Show this help message",
   "  -V, --version  Show version information",
   "",
   "Settings are read from ~/.querylens.toml; set RUST_LOG=debug for diagnostics.",
   ""]).toList

/-- The text that the first argument asks for instead of a frame. -/
def information? : List Text → Option Text
  | [] => none
  | arg :: _ =>
    if arg = "--help".toList ∨ arg = "-h".toList then some usageText
    else if arg = "--version".toList ∨ arg = "-V".toList then some versionText
    else none

/-! ## Frames -/

/-- The layout of the output: only a terminal gets a margin. -/
def outputLayout (s : Settings) (onTerminal : Bool) : Layout :=
  if onTerminal then s.layout else { s.layout with padding := 0 }

def inputText (around : Surroundings) (o : Options) : Except Failure Text :=
  let bytes :=
    match o.file with
    | some file => around.files file
    | none => .ok around.standardInput
  match bytes with
  | .error cause => .error (.device cause)
  | .ok bytes =>
    match Text.ofUtf8? bytes with
    | some t => .ok t
    | none => .error (.device .notUtf8)

/-- The language of the text: the one asked for, or that of the file's name.  The
standard input is taken for a query. -/
def chosenLanguage (o : Options) : Language :=
  match o.language, o.file with
  | some l, _ => l
  | none, some file => Language.ofPath file
  | none, none => .query

/-- What a text is highlighted with: options go before settings. -/
def chosenHighlighter (s : Settings) (o : Options) : Highlighter :=
  let theme := o.theme.getD s.theme
  { palette := theme.palette
    plainTextColor := s.plainTextColor.getD theme.plainTextColor }

/-- The column limit: options go before settings. -/
def chosenWidth (s : Settings) (o : Options) : Nat := o.wrapWidth.getD s.wrapWidth

def frameOf (s : Settings) (o : Options) (onTerminal : Bool) (t : Text) : Text :=
  Terminal.frame onTerminal (chosenWidth s o) (outputLayout s onTerminal)
    ((chosenHighlighter s o).highlight (Text.dropFinalNewlines t) (chosenLanguage o))

/-- The output for arguments that ask for a frame. -/
def show? (around : Surroundings) (args : List Text) : Except Failure Text :=
  match Options.read args with
  | .error failure => .error failure
  | .ok o =>
    match inputText around o with
    | .error failure => .error failure
    | .ok t => .ok (frameOf (Settings.load around.settingsFile) o around.onTerminal t ++ ['\n'])

def run (around : Surroundings) (args : List Text) : Outcome :=
  match information? args with
  | some t => ⟨0, t, none⟩
  | none =>
    match show? around args with
    | .ok t => ⟨0, t, none⟩
    | .error failure => ⟨1, [], some ("Error: ".toList ++ failure.message)⟩

end CommandLine
end QueryView
