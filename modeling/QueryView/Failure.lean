/-
The ways an operation of the library can fail.

A failure records its cause, not its wording: `Failure.message` is the one place
where the words are chosen.  A malformed settings text keeps no detail, because
nothing in the library acts on the reason.
-/
import QueryView.Text.Basic

namespace QueryView

/-- What can go wrong with a file, a stream or a device. -/
inductive DeviceFailure where
  | notFound
  | isDirectory
  | notDirectory
  /-- A path or a name in it is longer than the system allows. -/
  | nameTooLong
  | notUtf8
  | full
  /-- The device could not pass on what it holds. -/
  | flushFailed
  /-- Any other condition, in the words of the device. -/
  | other (words : Text)
  deriving DecidableEq

namespace DeviceFailure

def words : DeviceFailure → Text
  | notFound => "No such file or directory (os error 2)".toList
  | isDirectory => "Is a directory (os error 21)".toList
  | notDirectory => "Not a directory (os error 20)".toList
  | nameTooLong => "File name too long (os error 36)".toList
  | notUtf8 => "stream did not contain valid UTF-8".toList
  | full => "sink full".toList
  | flushFailed => "flush failed".toList
  | other w => w

end DeviceFailure

/-- Why an operation failed. -/
inductive Failure where
  | device (cause : DeviceFailure)
  /-- A settings text is malformed, or a known setting has the wrong type or range. -/
  | malformedSettings
  | invalidColor (text : Text)
  /-- A render layer could not show what it was given. -/
  | renderFailed (reason : Text)
  | unknownTheme (name : Text)
  | missingValue (option : Text)
  /-- A wrap width on the command line is not a number in range. -/
  | invalidWidth (value : Text)
  | unknownOption (option : Text)
  deriving DecidableEq

namespace Failure

def message : Failure → Text
  | device cause => "I/O error: ".toList ++ cause.words
  | malformedSettings => "Config error".toList
  | invalidColor text => "Invalid color: ".toList ++ text
  | renderFailed reason => "Render failed: ".toList ++ reason
  | unknownTheme name => "unknown theme: ".toList ++ name
  | missingValue option => option ++ " needs a value".toList
  | invalidWidth value => "invalid width: ".toList ++ value
  | unknownOption option => "unknown option: ".toList ++ option

end Failure
end QueryView
