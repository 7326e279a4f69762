/-
The command line program.  It gathers what surrounds a run, and leaves the run itself to
`CommandLine.run`.
-/
import QueryView.CommandLine.Program

namespace QueryView
namespace CommandLine

/-- The cause of a failure of the system.  The code of a condition is reported with
either sign. -/
def deviceFailure (e : IO.Error) : DeviceFailure :=
  match e with
  | .noFileOrDirectory _ _ _ => .notFound
  | .inappropriateType _ code _ =>
    if code = 20 ∨ code = -20 then .notDirectory
    else if code = 21 ∨ code = -21 then .isDirectory
    else .other (toString e).toList
  | .invalidArgument _ code _ =>
    if code = 36 ∨ code = -36 then .nameTooLong else .other (toString e).toList
  | _ => .other (toString e).toList

def fileBytes (path : String) : IO (Except DeviceFailure (List UInt8)) := do
  try
    return .ok (← IO.FS.readBinFile path).toList
  catch e =>
    return .error (deviceFailure e)

partial def streamBytes (stream : IO.FS.Stream) (before : ByteArray) : IO ByteArray := do
  let chunk ← stream.read 65536
  if chunk.isEmpty then return before else streamBytes stream (before ++ chunk)

def settingsBytes : IO (Except DeviceFailure (List UInt8)) := do
  match ← IO.getEnv "HOME" with
  | some home => fileBytes (String.ofList (Settings.path home.toList))
  | none => return .error .notFound

/-- What surrounds a run with the given arguments.  Only the file that they name is read,
and the standard input only if they name none. -/
def gather (args : List Text) : IO Surroundings := do
  let onTerminal ← (← IO.getStdout).isTty
  let settingsFile ← settingsBytes
  let file :=
    match information? args, Options.read args with
    | none, .ok o => some o.file
    | _, _ => none
  match file with
  | some (some path) =>
    let bytes ← fileBytes (String.ofList path)
    return { settingsFile, files := fun _ => bytes, standardInput := [], onTerminal }
  | some none =>
    let bytes ← streamBytes (← IO.getStdin) ByteArray.empty
    return { settingsFile, files := fun _ => .error .notFound
             standardInput := bytes.toList, onTerminal }
  | none =>
    return { settingsFile, files := fun _ => .error .notFound, standardInput := []
             onTerminal }

end CommandLine
end QueryView

open QueryView in
def main (args : List String) : IO UInt32 := do
  let args := args.map String.toList
  let outcome := CommandLine.run (← CommandLine.gather args) args
  IO.print (String.ofList outcome.output)
  match outcome.complaint with
  | some words => IO.eprintln (String.ofList words)
  | none => pure ()
  return UInt32.ofNat outcome.status
