/-
The options of the command line.

Arguments are read from left to right, and a later one replaces what an earlier one set.
A width option takes the argument after it as its value, whatever that looks like.  Any
other argument that starts with a dash is an option or a fault, except a dash alone,
which stands for the standard input.  Reading stops at the first fault.
-/
import QueryView.Language
import QueryView.Style.Palette

namespace QueryView
namespace CommandLine

/-- What the arguments ask for.  Without a file the standard input is read. -/
structure Options where
  language : Option Language := none
  theme : Option Theme := none
  wrapWidth : Option Nat := none
  file : Option Text := none
  deriving DecidableEq

def maxWidth : Nat := UInt64.size - 1

/-- A width: decimal digits, with or without a plus sign before them. -/
def width? (t : Text) : Option Nat :=
  let digits := if t.head? = some '+' then t.tail else t
  if digits ≠ [] ∧ digits.all Text.isDigit ∧ Text.digitsValue digits ≤ maxWidth then
    some (Text.digitsValue digits)
  else none

inductive Argument where
  | language (l : Language)
  | theme (t : Theme)
  /-- An option that takes the next argument as a width. -/
  | width
  | unknown
  | standardInput
  | file
  deriving DecidableEq

def Argument.ofText (t : Text) : Argument :=
  if t = "--sql".toList then .language .query
  else if t = "--json".toList then .language .json
  else if t = "--plain".toList then .language .plain
  else if t = "--dark".toList then .theme .dark
  else if t = "--light".toList then .theme .light
  else if t = "--width".toList ∨ t = "-w".toList then .width
  else if t = ['-'] then .standardInput
  else if t.head? = some '-' then .unknown
  else .file

namespace Options

/-- Reads arguments, starting from options that are set already. -/
def readFrom (o : Options) : List Text → Except Failure Options
  | [] => .ok o
  | arg :: rest =>
    match Argument.ofText arg with
    | .language l => readFrom { o with language := some l } rest
    | .theme t => readFrom { o with theme := some t } rest
    | .width =>
      match rest with
      | [] => .error (.missingValue arg)
      | value :: rest' =>
        match width? value with
        | some n => readFrom { o with wrapWidth := some n } rest'
        | none => .error (.invalidWidth value)
    | .unknown => .error (.unknownOption arg)
    | .standardInput => readFrom { o with file := none } rest
    | .file => readFrom { o with file := some arg } rest

def read (args : List Text) : Except Failure Options := readFrom {} args

end Options
end CommandLine
end QueryView
