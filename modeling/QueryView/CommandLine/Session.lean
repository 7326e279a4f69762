/-
The program step by step.

`run` says what comes of the program's arguments.  The program itself makes the frame with a
surface: it creates one under the theme that was chosen, gives it the layout, a color if there is
one, the language and the text, has the screen present the frame, and puts a line end after it.
Every setting shows the surface anew, but the screen writes nothing before it presents.  The
first failure ends the program.

`perform` is the program in these steps.  What it leaves behind are bytes, which are read off
the sink of the screen; the standard output takes all that is written to it.
-/
import QueryView.CommandLine.Program
import QueryView.Surface.Buffer
import QueryView.Surface.Screen
import QueryView.Surface.Setup

namespace QueryView
namespace CommandLine

open Surface
open Terminal (Screen)

/-- What the program leaves behind. -/
structure Performance where
  status : Nat
  /-- The bytes on the standard output. -/
  written : List UInt8
  complaint : Option Text
  deriving DecidableEq

def Outcome.performance (x : Outcome) : Performance := ⟨x.status, Text.utf8 x.output, x.complaint⟩

namespace Performance

def faulty (written : List UInt8) (failure : Failure) : Performance :=
  ⟨1, written, some ("Error: ".toList ++ failure.message)⟩

def ofResult (written : List UInt8) : Except Failure Unit → Performance
  | .ok () => ⟨0, written, none⟩
  | .error failure => faulty written failure

end Performance

/-- The screen before it shows anything.  It keeps its frames until it is to present one. -/
def startScreen (s : Settings) (o : Options) (onTerminal : Bool) : Screen :=
  { autoPresent := false, wrapWidth := chosenWidth s o, escapes := onTerminal }

def chosenTheme (s : Settings) (o : Options) : Theme := o.theme.getD s.theme

/-- What is set of the surface, in order. -/
def chosenSettings (s : Settings) (o : Options) (onTerminal : Bool) (t : Text) : List Setting :=
  .layout (.all (outputLayout s onTerminal)) ::
    (s.plainTextColor.toList.map (fun c => .plainTextColor (some c)) ++
      [.language (chosenLanguage o), .text (Text.dropFinalNewlines t)])

/-- Puts a line end after what is on the screen. -/
def putLineEnd (screen : Screen) : Screen × Except Failure Unit :=
  let (result, sink) := screen.sink.write (Text.utf8 ['\n'])
  ({ screen with sink }, result)

def session (s : Settings) (o : Options) (onTerminal : Bool) (t : Text) :
    List (Operation Buffer Screen) :=
  .create {} (startScreen s o onTerminal) ::
    ((chosenSettings s o onTerminal t).map (fun setting => .on 0 setting.request) ++
      [.on 0 (.renderLayer fun screen => screen.present.swap), .on 0 (.renderLayer putLineEnd),
        .on 0 .dispose])

/-- The bytes in the sink of the surface. -/
def writtenIn (w : World Buffer Screen) : List UInt8 :=
  ((w.live? 0).map fun surface => surface.rendered.sink.written).getD []

/-- Shows a text.  Nothing nests here, so a depth of one is enough. -/
def performSession (s : Settings) (o : Options) (onTerminal : Bool) (t : Text) :
    Except Abort Performance :=
  match Operation.runInTurn 1 (session s o onTerminal t) (World.initial (chosenTheme s o)) with
  | (.ok result, w) => .ok (.ofResult (writtenIn w) result)
  | (.error abort, _) => .error abort

/-- The program, unless it breaks off. -/
def perform (around : Surroundings) (args : List Text) : Except Abort Performance :=
  match information? args with
  | some t => .ok ⟨0, Text.utf8 t, none⟩
  | none =>
    match Options.read args with
    | .error failure => .ok (.faulty [] failure)
    | .ok o =>
      let s := Settings.load around.settingsFile
      match inputText around o with
      | .error failure => .ok (.faulty [] failure)
      | .ok t => performSession s o around.onTerminal t

end CommandLine
end QueryView
