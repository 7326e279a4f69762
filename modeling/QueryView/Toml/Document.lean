/-
Reading a TOML text.

A text is read line by line: an empty line, a comment, a header, or a key and a value.
Values nest; how deep they may is limited, and so is the number of parts of a key,
because whoever walks the table afterwards follows it to its depth.  A text that breaks
any rule has no table at all.

Where TOML 1.0 leaves something open this is what toml 0.8 does, on top of toml_edit 0.22:
the limits, the numbers that are too large, and which tables may be added to later.
-/
import QueryView.Toml.Quoted
import QueryView.Toml.Scalar
import QueryView.Toml.Table

namespace QueryView
namespace Toml

/-! ## Keys -/

/-- A character of a key without quotes. -/
def isBare (c : Char) : Bool := Text.isLetter c || Text.isDigit c || c == '-' || c == '_'

def keyPart? (t : Text) : Option (Text × Text) :=
  match t with
  | [] => none
  | c :: r =>
    if c = '"' then basic? r
    else if c = '\'' then literal? r
    else if isBare c then some (t.takeWhile isBare, t.dropWhile isBare)
    else none

/-- The parts of a key, with the blanks around them taken away.  At most `fuel` parts
are read. -/
def keyParts? : Nat → Text → Option (List Text × Text)
  | 0, _ => none
  | fuel + 1, t =>
    match keyPart? (skipSpaces t) with
    | none => none
    | some (part, r) =>
      match skipSpaces r with
      | '.' :: r' => (keyParts? fuel r').map fun parts => (part :: parts.1, parts.2)
      | r' => some ([part], r')

/-- The greatest number of parts of a key, and of arrays and tables inside each other. -/
def maxDepth : Nat := 79

def key? (t : Text) : Option (List Text × Text) := keyParts? maxDepth t

/-! ## Values -/

/-- The items of an array, from its start or from after a comma on, and what follows its
end.  A comma may follow the last item. -/
def items? (value? : Text → Option (Value × Text)) : Nat → Text → Option (List Value × Text)
  | 0, _ => none
  | fuel + 1, t =>
    match skipFill false t with
    | ']' :: r => some ([], r)
    | t' =>
      match value? t' with
      | none => none
      | some (v, r) =>
        match skipFill false r with
        | ']' :: r' => some ([v], r')
        | ',' :: r' => (items? value? fuel r').map fun vs => (v :: vs.1, vs.2)
        | _ => none

/-- The entries of a table inside a line, from its start or from after a comma on, and
what follows its end.  They are added to those read so far, and there is one after
every comma. -/
def entries? (value? : Text → Option (Value × Text)) :
    Nat → Entries → Text → Option (Entries × Text)
  | 0, _, _ => none
  | fuel + 1, entries, t =>
    match key? t with
    | some (key, '=' :: r) =>
      match value? (skipSpaces r) with
      | none => none
      | some (v, r') =>
        match entries.assign v true key with
        | none => none
        | some entries' =>
          match skipSpaces r' with
          | '}' :: rest => some (entries', rest)
          | ',' :: rest => entries? value? fuel entries' rest
          | _ => none
    | _ => none

/-- A value, in which at most `depth` arrays and tables may be open at once. -/
def value? (depth : Nat) (t : Text) : Option (Value × Text) :=
  match depth, t with
  | _, [] => none
  | 0, '[' :: _ => none
  | 0, '{' :: _ => none
  | depth + 1, '[' :: r => (items? (value? depth) r.length.succ r).map fun vs => (.array vs.1, vs.2)
  | depth + 1, '{' :: r =>
    match skipSpaces r with
    | '}' :: rest => some (.table [], rest)
    | _ =>
      (entries? (value? depth) r.length.succ [] r).map fun es => (.table (finishEntries es.1), es.2)
  | _, c :: r =>
    if c = '"' ∨ c = '\'' then (string? (c :: r)).map fun s => (.string s.1, s.2)
    else
      match c :: r with
      | 't' :: 'r' :: 'u' :: 'e' :: rest => some (.boolean true, rest)
      | 'f' :: 'a' :: 'l' :: 's' :: 'e' :: rest => some (.boolean false, rest)
      | t => numeral? t

/-! ## Lines -/

/-- A table that is being read, and the path of the header that was read last. -/
structure Draft where
  root : Entries := []
  path : List Text := []

namespace Draft

/-- A line with a header.  `add` is what the header does to the table around it. -/
def header (d : Draft) (add : Text → Entries → Option Entries) (path : List Text) :
    Option Draft :=
  match path.getLast? with
  | some key => (d.root.within (add key) path.dropLast).map fun root => { root, path }
  | none => none

def entry (d : Draft) (key : List Text) (v : Value) : Option Draft :=
  (d.root.within (Entries.assign v true key) d.path).map fun root => { d with root }

end Draft

/-- Reads one line that is neither empty nor a comment, and what follows it. -/
def line? (d : Draft) (t : Text) : Option (Draft × Text) := do
  match t with
  | '[' :: '[' :: r =>
    match ← key? r with
    | (path, ']' :: ']' :: rest) => return (← d.header Entries.addTable path, ← endLine? rest)
    | _ => none
  | '[' :: r =>
    match ← key? r with
    | (path, ']' :: rest) => return (← d.header Entries.nameTable path, ← endLine? rest)
    | _ => none
  | _ =>
    match ← key? t with
    | (key, '=' :: r) =>
      let (v, rest) ← value? maxDepth (skipSpaces r)
      return (← d.entry key v, ← endLine? rest)
    | _ => none

/-- Reads lines to the end of a text, at most `fuel` of them. -/
def lines? : Nat → Draft → Text → Option Draft
  | 0, _, _ => none
  | fuel + 1, d, t =>
    let t := skipSpaces t
    if t.isEmpty then some d
    else
      match endLine? t with
      | some rest => lines? fuel d rest
      | none =>
        match line? d t with
        | some (d', rest) => lines? fuel d' rest
        | none => none

/-- The text without a byte order mark at its start. -/
def dropMark : Text → Text
  | '\uFEFF' :: t => t
  | t => t

def parse? (t : Text) : Option Table :=
  (lines? t.length.succ {} (dropMark t)).map fun d => finishEntries d.root

end Toml
end QueryView
