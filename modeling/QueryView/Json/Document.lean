/-
From lexemes to documents.

A document is read by a machine that takes one lexeme at a time and never goes
back.  It keeps a stack of the containers that are still open, innermost first,
each with what it holds so far, and it knows what must come next.  No depth of
nesting is too great for it.

`Value.lexemes` is the other direction.  A document has exactly one spelling in
lexemes, so reading accepts a list of lexemes just when it is that spelling:
`ofLexemes?_eq_some_iff`.
-/
import QueryView.Json.Lexeme

namespace QueryView
namespace Json

/-- A document as its source spells it. -/
abbrev Document := Value Spelling

/-! ## The lexemes of a document -/

mutual

def Value.lexemes : Document → List Lexeme
  | .null => [.null]
  | .bool b => [.bool b]
  | .number source => [.number source]
  | .string s => [.string s]
  | .array items => .openArray :: (itemLexemes items ++ [.closeArray])
  | .object members => .openObject :: (memberLexemes members ++ [.closeObject])

/-- The lexemes between the brackets of an array. -/
def Value.itemLexemes : List Document → List Lexeme
  | [] => []
  | v :: rest => v.lexemes ++ moreItemLexemes rest

/-- The lexemes of the items that follow another one. -/
def Value.moreItemLexemes : List Document → List Lexeme
  | [] => []
  | v :: rest => .comma :: (v.lexemes ++ moreItemLexemes rest)

def Value.memberLexemes : List (Spelling × Document) → List Lexeme
  | [] => []
  | (k, v) :: rest => .string k :: .colon :: (v.lexemes ++ moreMemberLexemes rest)

def Value.moreMemberLexemes : List (Spelling × Document) → List Lexeme
  | [] => []
  | (k, v) :: rest => .comma :: .string k :: .colon :: (v.lexemes ++ moreMemberLexemes rest)

end

/-! ## The machine -/

/-- A container that is still open, with what it holds so far, last first. -/
inductive Frame where
  | items (before : List Document)
  | members (before : List (Spelling × Document)) (key : Spelling)

/-- What the machine has just read, and so what it may read next. -/
inductive Stage where
  /-- A value must follow. -/
  | value
  /-- An array was opened: a value follows, or its end. -/
  | arrayOpened
  /-- An object was opened: a key follows, or its end. -/
  | objectOpened
  /-- A member ended with a comma: a key must follow. -/
  | key (before : List (Spelling × Document))
  /-- A key was read: a colon must follow. -/
  | colon (before : List (Spelling × Document)) (key : Spelling)
  /-- A value ended: the container around it goes on or ends. -/
  | ended (v : Document)

/-- Reads the lexeme that starts a value. -/
def startValue (frames : List Frame) : Lexeme → Option (Stage × List Frame)
  | .null => some (.ended .null, frames)
  | .bool b => some (.ended (.bool b), frames)
  | .number source => some (.ended (.number source), frames)
  | .string s => some (.ended (.string s), frames)
  | .openArray => some (.arrayOpened, frames)
  | .openObject => some (.objectOpened, frames)
  | _ => none

def Stage.read (stage : Stage) (frames : List Frame) (l : Lexeme) :
    Option (Stage × List Frame) :=
  match stage, frames, l with
  | .value, _, l => startValue frames l
  | .arrayOpened, _, .closeArray => some (.ended (.array []), frames)
  | .arrayOpened, _, l => startValue (.items [] :: frames) l
  | .objectOpened, _, .closeObject => some (.ended (.object []), frames)
  | .objectOpened, _, .string k => some (.colon [] k, frames)
  | .key before, _, .string k => some (.colon before k, frames)
  | .colon before k, _, .colon => some (.value, .members before k :: frames)
  | .ended v, .items before :: rest, .comma => some (.value, .items (v :: before) :: rest)
  | .ended v, .items before :: rest, .closeArray =>
    some (.ended (.array (v :: before).reverse), rest)
  | .ended v, .members before k :: rest, .comma => some (.key ((k, v) :: before), rest)
  | .ended v, .members before k :: rest, .closeObject =>
    some (.ended (.object ((k, v) :: before).reverse), rest)
  | _, _, _ => none

/-- Reads lexemes to their end, which must come when a value has ended and no
container is open. -/
def Stage.readAll (stage : Stage) (frames : List Frame) : List Lexeme → Option Document
  | [] =>
    match stage, frames with
    | .ended v, [] => some v
    | _, _ => none
  | l :: rest =>
    match stage.read frames l with
    | some (stage', frames') => stage'.readAll frames' rest
    | none => none

def ofLexemes? (lexemes : List Lexeme) : Option Document := Stage.value.readAll [] lexemes

def parse? (t : Text) : Option Document := (lexemes? t).bind ofLexemes?

/-! ## Every spelling is read -/

/-- A document never starts with the end of an array, so in an array that was just
opened its first lexeme is read as the first of an item. -/
theorem readAll_arrayOpened (v : Document) (frames : List Frame) (rest : List Lexeme) :
    Stage.arrayOpened.readAll frames (v.lexemes ++ rest) =
      Stage.value.readAll (.items [] :: frames) (v.lexemes ++ rest) := by
  cases v <;> rfl

mutual

/-- Reading the lexemes of a document ends with that document. -/
theorem readAll_value (v : Document) (frames : List Frame) (rest : List Lexeme) :
    Stage.value.readAll frames (v.lexemes ++ rest) = (Stage.ended v).readAll frames rest := by
  match v with
  | .null => rfl
  | .bool _ => rfl
  | .number _ => rfl
  | .string _ => rfl
  | .array [] => rfl
  | .array (v :: items) =>
    have first := readAll_arrayOpened v frames
      (Value.moreItemLexemes items ++ Lexeme.closeArray :: rest)
    have whole := readAll_value v (.items [] :: frames)
      (Value.moreItemLexemes items ++ Lexeme.closeArray :: rest)
    have others := readAll_moreItems v items [] frames rest
    simp only [Value.lexemes, Value.itemLexemes, List.cons_append, List.append_assoc,
      List.nil_append]
    exact first.trans (whole.trans others)
  | .object [] => rfl
  | .object ((k, v) :: members) =>
    have whole := readAll_value v (.members [] k :: frames)
      (Value.moreMemberLexemes members ++ Lexeme.closeObject :: rest)
    have others := readAll_moreMembers k v members [] frames rest
    simp only [Value.lexemes, Value.memberLexemes, List.cons_append, List.append_assoc,
      List.nil_append]
    exact whole.trans others

theorem readAll_moreItems (v : Document) (items before : List Document) (frames : List Frame)
    (rest : List Lexeme) :
    (Stage.ended v).readAll (.items before :: frames)
        (Value.moreItemLexemes items ++ Lexeme.closeArray :: rest) =
      (Stage.ended (.array (before.reverse ++ v :: items))).readAll frames rest := by
  match items with
  | [] => simp [Value.moreItemLexemes, Stage.readAll, Stage.read]
  | w :: items =>
    have whole := readAll_value w (.items (v :: before) :: frames)
      (Value.moreItemLexemes items ++ Lexeme.closeArray :: rest)
    have others := readAll_moreItems w items (v :: before) frames rest
    simp only [Value.moreItemLexemes, List.cons_append, List.append_assoc, Stage.readAll,
      Stage.read]
    rw [whole, others]
    simp

theorem readAll_moreMembers (k : Spelling) (v : Document)
    (members before : List (Spelling × Document)) (frames : List Frame) (rest : List Lexeme) :
    (Stage.ended v).readAll (.members before k :: frames)
        (Value.moreMemberLexemes members ++ Lexeme.closeObject :: rest) =
      (Stage.ended (.object (before.reverse ++ (k, v) :: members))).readAll frames rest := by
  match members with
  | [] => simp [Value.moreMemberLexemes, Stage.readAll, Stage.read]
  | (k', w) :: members =>
    have whole := readAll_value w (.members ((k, v) :: before) k' :: frames)
      (Value.moreMemberLexemes members ++ Lexeme.closeObject :: rest)
    have others := readAll_moreMembers k' w members ((k, v) :: before) frames rest
    simp only [Value.moreMemberLexemes, List.cons_append, List.append_assoc, Stage.readAll,
      Stage.read]
    rw [whole, others]
    simp

end

/-! ## Nothing else is read

What the machine has read can be told from its stage and its stack, and reading a
lexeme adds that lexeme to it. -/

/-- The lexemes that led to a stack of open containers. -/
def Frame.spelled : List Frame → List Lexeme
  | [] => []
  | .items before :: outer =>
    spelled outer ++ .openArray :: before.reverse.flatMap fun v => v.lexemes ++ [.comma]
  | .members before k :: outer =>
    spelled outer ++ .openObject ::
      (before.reverse.flatMap (fun m => .string m.1 :: .colon :: (m.2.lexemes ++ [.comma])) ++
        [.string k, .colon])

/-- The lexemes that led to a stage. -/
def Stage.spelled (frames : List Frame) : Stage → List Lexeme
  | .value => Frame.spelled frames
  | .arrayOpened => Frame.spelled frames ++ [.openArray]
  | .objectOpened => Frame.spelled frames ++ [.openObject]
  | .key before =>
    Frame.spelled frames ++ .openObject ::
      before.reverse.flatMap fun m => .string m.1 :: .colon :: (m.2.lexemes ++ [.comma])
  | .colon before k =>
    Frame.spelled frames ++ .openObject ::
      (before.reverse.flatMap (fun m => .string m.1 :: .colon :: (m.2.lexemes ++ [.comma])) ++
        [.string k])
  | .ended v => Frame.spelled frames ++ v.lexemes

theorem moreItemLexemes_append (items : List Document) (v : Document) :
    Value.moreItemLexemes (items ++ [v]) =
      Value.moreItemLexemes items ++ .comma :: v.lexemes := by
  induction items with
  | nil => simp [Value.moreItemLexemes]
  | cons w items ih => simp [Value.moreItemLexemes, ih]

theorem comma_moreItemLexemes (items : List Document) :
    .comma :: items.flatMap (fun v => v.lexemes ++ [.comma]) =
      Value.moreItemLexemes items ++ [.comma] := by
  induction items with
  | nil => rfl
  | cons w items ih => simp [Value.moreItemLexemes, ← ih]

theorem itemLexemes_append (items : List Document) (v : Document) :
    Value.itemLexemes (items ++ [v]) =
      items.flatMap (fun w => w.lexemes ++ [.comma]) ++ v.lexemes := by
  cases items with
  | nil => simp [Value.itemLexemes, Value.moreItemLexemes]
  | cons w items =>
    have h := comma_moreItemLexemes items
    simp only [List.cons_append, Value.itemLexemes, moreItemLexemes_append, List.flatMap_cons,
      List.append_assoc, List.nil_append, h]

theorem moreMemberLexemes_append (members : List (Spelling × Document)) (k : Spelling)
    (v : Document) :
    Value.moreMemberLexemes (members ++ [(k, v)]) =
      Value.moreMemberLexemes members ++ .comma :: .string k :: .colon :: v.lexemes := by
  induction members with
  | nil => simp [Value.moreMemberLexemes]
  | cons m members ih => obtain ⟨k', w⟩ := m; simp [Value.moreMemberLexemes, ih]

theorem comma_moreMemberLexemes (members : List (Spelling × Document)) :
    .comma :: members.flatMap (fun m => .string m.1 :: .colon :: (m.2.lexemes ++ [.comma])) =
      Value.moreMemberLexemes members ++ [.comma] := by
  induction members with
  | nil => rfl
  | cons m members ih => obtain ⟨k', w⟩ := m; simp [Value.moreMemberLexemes, ← ih]

theorem memberLexemes_append (members : List (Spelling × Document)) (k : Spelling)
    (v : Document) :
    Value.memberLexemes (members ++ [(k, v)]) =
      members.flatMap (fun m => .string m.1 :: .colon :: (m.2.lexemes ++ [.comma])) ++
        .string k :: .colon :: v.lexemes := by
  cases members with
  | nil => simp [Value.memberLexemes, Value.moreMemberLexemes]
  | cons m members =>
    obtain ⟨k', w⟩ := m
    have h := comma_moreMemberLexemes members
    simp only [List.cons_append, Value.memberLexemes, moreMemberLexemes_append,
      List.flatMap_cons, List.append_assoc, List.nil_append, h]

/-- Reading a lexeme adds it to what was read. -/
theorem spelled_startValue {frames frames' : List Frame} {l : Lexeme} {stage : Stage}
    (h : startValue frames l = some (stage, frames')) :
    stage.spelled frames' = Frame.spelled frames ++ [l] := by
  cases l <;> simp only [startValue, Option.some.injEq, Prod.mk.injEq, reduceCtorEq] at h
  all_goals
    obtain ⟨rfl, rfl⟩ := h
    simp [Stage.spelled, Value.lexemes]

theorem spelled_read {stage stage' : Stage} {frames frames' : List Frame} {l : Lexeme}
    (h : stage.read frames l = some (stage', frames')) :
    stage'.spelled frames' = stage.spelled frames ++ [l] := by
  unfold Stage.read at h
  split at h
  case h_1 => exact spelled_startValue h
  case h_3 =>
    rw [spelled_startValue h]
    simp [Frame.spelled, Stage.spelled]
  case h_12 => cases h
  all_goals
    simp only [Option.some.injEq, Prod.mk.injEq] at h
    obtain ⟨rfl, rfl⟩ := h
    simp [Stage.spelled, Frame.spelled, Value.lexemes, Value.itemLexemes, Value.memberLexemes,
      itemLexemes_append, memberLexemes_append]

theorem spelled_readAll {stage : Stage} {frames : List Frame} {ls : List Lexeme} {v : Document}
    (h : stage.readAll frames ls = some v) : stage.spelled frames ++ ls = v.lexemes := by
  induction ls generalizing stage frames with
  | nil =>
    unfold Stage.readAll at h
    split at h
    · cases h; simp [Stage.spelled, Frame.spelled]
    · cases h
  | cons l ls ih =>
    unfold Stage.readAll at h
    split at h
    · next stage' frames' hr =>
      have := ih h
      rw [spelled_read hr] at this
      simpa using this
    · cases h

/-- A list of lexemes is read as a document just when it spells that document. -/
theorem ofLexemes?_eq_some_iff {ls : List Lexeme} {v : Document} :
    ofLexemes? ls = some v ↔ ls = v.lexemes := by
  constructor
  · intro h
    simpa [Stage.spelled, Frame.spelled] using spelled_readAll h
  · intro heq
    subst heq
    have := readAll_value v [] []
    rw [List.append_nil] at this
    rw [ofLexemes?, this]
    rfl

end Json
end QueryView
