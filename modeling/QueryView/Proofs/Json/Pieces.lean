/-
The pieces of a layout.

A layout is put together from pieces of a few kinds (`Piece`): lexemes, the marks of the writer,
and spaces.  Whatever holds of each kind holds of all pieces of all layouts, for instance that
there is something in each of them, or that no lexeme is on two lines.

Without the marks and the spaces, what is left of a layout is its tree from front to back: keys
and scalars in the order in which they stand in the tree (`filter_pieces`).  Empty containers
are marks that stand for a value; they can be listed, too.
-/
import QueryView.Proofs.Json.Breaks

namespace QueryView
namespace Json

open Grammar Members

/-! ## The kinds of pieces -/

def literals : List String := ["null", "true", "false"]

/-- The marks between the lexemes of a layout, with the spaces and line ends that belong to
them. -/
def marks : List String :=
  ["[\n", "\x7b\n", ",\n", ": ", "\n", "]", "\x7d", "[]", "\x7b\x7d"]

theorem Grammar.Number.ne_nil {n : Text} (h : Number n) : n ≠ [] := by
  obtain ⟨c, m, rfl, -⟩ := h.head
  exact List.cons_ne_nil c m

/-- What a layout is put together from. -/
inductive Piece : Token → Prop where
  | word {w : String} : w ∈ literals → Piece ⟨.boolean, w.toList⟩
  | number {n : Text} : Number n → Piece ⟨.number, n⟩
  | string (t : Text) : Piece ⟨.string, quote t⟩
  | key (t : Text) : Piece ⟨.propertyName, quote t⟩
  | mark {s : String} : s ∈ marks → Piece (Json.mark s)
  | spaces {k : Nat} : k ≠ 0 → Piece ⟨.plain, List.replicate k ' '⟩

theorem piece_of_mem_indentation (depth : Nat) : ∀ token ∈ indentation depth, Piece token := by
  intro token htoken
  rw [indentation] at htoken
  split at htoken
  · cases htoken
  · next hdepth =>
    rw [List.mem_singleton.mp htoken]
    exact .spaces (by omega)

theorem piece_mark (s : String) (hs : s ∈ marks := by decide) : Piece (mark s) := .mark hs

mutual

theorem piece_of_mem_pieces (depth : Nat) (v : Tree) (h : Sound v) :
    ∀ token ∈ Value.pieces depth v, Piece token := by
  match v with
  | .null | .bool true | .bool false =>
    simp only [Value.pieces, List.forall_mem_singleton]
    exact .word (by decide)
  | .number n =>
    cases h with
    | number hn =>
      rw [Value.pieces, List.forall_mem_singleton]
      exact .number hn
  | .string t =>
    rw [Value.pieces, List.forall_mem_singleton]
    exact .string t
  | .array [] | .object [] =>
    simp only [Value.pieces, List.forall_mem_singleton]
    exact piece_mark _
  | .array (v :: items) =>
    cases h with
    | array hitems =>
      have hv := piece_of_mem_pieces (depth + 1) v (hitems v List.mem_cons_self)
      have hmore := piece_of_mem_moreItemPieces (depth + 1) items
        fun w hw => hitems w (List.mem_cons_of_mem v hw)
      simp only [Value.pieces, List.forall_mem_cons, List.forall_mem_append]
      exact ⟨piece_mark _, piece_of_mem_indentation _, hv, hmore, piece_mark _,
        piece_of_mem_indentation _, piece_mark _, fun _ hnone => absurd hnone List.not_mem_nil⟩
  | .object ((key, v) :: members) =>
    cases h with
    | object _ hmembers =>
      have hv := piece_of_mem_pieces (depth + 1) v (hmembers _ List.mem_cons_self)
      have hmore := piece_of_mem_moreMemberPieces (depth + 1) members
        fun m hm => hmembers m (List.mem_cons_of_mem _ hm)
      simp only [Value.pieces, List.forall_mem_cons, List.forall_mem_append]
      exact ⟨piece_mark _, piece_of_mem_indentation _, .key key, piece_mark _, hv, hmore,
        piece_mark _, piece_of_mem_indentation _, piece_mark _,
        fun _ hnone => absurd hnone List.not_mem_nil⟩

theorem piece_of_mem_moreItemPieces (depth : Nat) (items : List Tree)
    (h : ∀ v ∈ items, Sound v) :
    ∀ token ∈ Value.moreItemPieces depth items, Piece token := by
  match items with
  | [] => exact fun _ hnone => absurd hnone List.not_mem_nil
  | v :: items =>
    have hv := piece_of_mem_pieces depth v (h v List.mem_cons_self)
    have hmore := piece_of_mem_moreItemPieces depth items
      fun w hw => h w (List.mem_cons_of_mem v hw)
    simp only [Value.moreItemPieces, List.forall_mem_cons, List.forall_mem_append]
    exact ⟨piece_mark _, piece_of_mem_indentation _, hv, hmore⟩

theorem piece_of_mem_moreMemberPieces (depth : Nat) (members : Members Tree)
    (h : ∀ m ∈ members, Sound m.2) :
    ∀ token ∈ Value.moreMemberPieces depth members, Piece token := by
  match members with
  | [] => exact fun _ hnone => absurd hnone List.not_mem_nil
  | (key, v) :: members =>
    have hv := piece_of_mem_pieces depth v (h _ List.mem_cons_self)
    have hmore := piece_of_mem_moreMemberPieces depth members
      fun m hm => h m (List.mem_cons_of_mem _ hm)
    simp only [Value.moreMemberPieces, List.forall_mem_cons, List.forall_mem_append]
    exact ⟨piece_mark _, piece_of_mem_indentation _, .key key, piece_mark _, hv, hmore⟩

end

/-- Layouts are made of pieces. -/
theorem piece_of_format? {t : Text} {ps : List Token} (h : format? t = some ps) :
    ∀ token ∈ ps, Piece token := by
  obtain ⟨v, hv, rfl⟩ := format?_eq_some_iff.mp h
  exact piece_of_mem_pieces 0 v hv.sound

namespace Piece

theorem text_ne_nil {token : Token} (h : Piece token) : token.text ≠ [] := by
  cases h with
  | @word w hw => exact (by decide : ∀ w ∈ literals, w.toList ≠ []) w hw
  | number hn => exact hn.ne_nil
  | string t | key t => exact List.cons_ne_nil _ _
  | @mark s hs => exact (by decide : ∀ s ∈ marks, s.toList ≠ []) s hs
  | spaces hk => exact fun hnil => hk ((List.replicate_eq_nil_iff _).mp hnil)

/-- What is in the plain color are brackets, commas, colons, spaces and line ends. -/
theorem subset_of_plain {token : Token} (h : Piece token) (hplain : token.kind = .plain) :
    token.text ⊆ ['[', ']', '{', '}', ',', ':', ' ', '\n'] := by
  cases h with
  | word | number | string | key => cases hplain
  | @mark s hs =>
    exact (by decide : ∀ s ∈ marks,
      s.toList ⊆ ['[', ']', '{', '}', ',', ':', ' ', '\n']) s hs
  | spaces =>
    intro c hc
    rw [List.eq_of_mem_replicate hc]
    decide

/-- What is in any other color is on one line. -/
theorem newline_not_mem {token : Token} (h : Piece token) (hkind : token.kind ≠ .plain) :
    '\n' ∉ token.text := by
  cases h with
  | @word w hw => exact (by decide : ∀ w ∈ literals, '\n' ∉ w.toList) w hw
  | number hn => exact hn.newline_not_mem
  | string t | key t => exact (stringText_quote t).newline_not_mem
  | mark | spaces => exact absurd rfl hkind

end Piece

/-! ## What is left without marks and spaces -/

mutual

/-- The keys and scalars of a tree from front to back, with the empty containers or without
them. -/
def listing (empties : Bool) : Tree → List Token
  | .null => [⟨.boolean, "null".toList⟩]
  | .bool true => [⟨.boolean, "true".toList⟩]
  | .bool false => [⟨.boolean, "false".toList⟩]
  | .number source => [⟨.number, source⟩]
  | .string s => [⟨.string, quote s⟩]
  | .array [] => if empties then [mark "[]"] else []
  | .array (v :: items) => listing empties v ++ itemListing empties items
  | .object [] => if empties then [mark "\x7b\x7d"] else []
  | .object ((key, v) :: members) =>
    ⟨.propertyName, quote key⟩ :: (listing empties v ++ memberListing empties members)

def itemListing (empties : Bool) : List Tree → List Token
  | [] => []
  | v :: rest => listing empties v ++ itemListing empties rest

def memberListing (empties : Bool) : Members Tree → List Token
  | [] => []
  | (key, v) :: rest =>
    ⟨.propertyName, quote key⟩ :: (listing empties v ++ memberListing empties rest)

end

/-- A piece that is listed: one in a color of its own, or an empty container if these are. -/
def isListed (empties : Bool) (token : Token) : Bool :=
  decide (token.kind ≠ .plain) || (empties && (token == mark "[]" || token == mark "\x7b\x7d"))

theorem isListed_false : isListed false = fun token => decide (token.kind ≠ .plain) :=
  funext fun _ => Bool.or_false _

/-- Lexemes are listed, -/
theorem filter_lexeme (empties : Bool) {kind : TokenClass} (h : kind ≠ .plain) (t : Text)
    (ts : List Token) : (⟨kind, t⟩ :: ts : List Token).filter (isListed empties) =
      ⟨kind, t⟩ :: ts.filter (isListed empties) := by
  rw [List.filter_cons_of_pos]
  rw [isListed, decide_eq_true h, Bool.true_or]

/-- and no marks but those of empty containers. -/
theorem filter_mark (empties : Bool) {s : String} (hs : s ∈ marks)
    (h : s ≠ "[]" ∧ s ≠ "\x7b\x7d") (ts : List Token) :
    (mark s :: ts).filter (isListed empties) = ts.filter (isListed empties) := by
  have hmarks : ∀ s ∈ marks, s ≠ "[]" ∧ s ≠ "\x7b\x7d" →
      isListed false (mark s) = false ∧ isListed true (mark s) = false := by decide
  rw [List.filter_cons_of_neg]
  cases empties <;> simp [hmarks s hs h]

theorem filter_indentation (empties : Bool) (depth : Nat) :
    (indentation depth).filter (isListed empties) = [] := by
  rw [indentation]
  split
  · rfl
  · next hdepth =>
    obtain ⟨k, hk⟩ : ∃ k, 2 * depth = k + 1 := ⟨2 * depth - 1, by omega⟩
    have hspaces : List.replicate (2 * depth) ' ' = ' ' :: List.replicate k ' ' := by
      rw [hk, List.replicate_succ]
    rw [hspaces]
    cases empties <;> rfl

mutual

theorem filter_pieces (empties : Bool) (depth : Nat) (v : Tree) :
    (Value.pieces depth v).filter (isListed empties) = listing empties v := by
  match v with
  | .null | .bool true | .bool false | .number _ | .string _ =>
    rw [Value.pieces, filter_lexeme empties (by decide), List.filter_nil, listing]
  | .array [] | .object [] => cases empties <;> rfl
  | .array (v :: items) =>
    have hv := filter_pieces empties (depth + 1) v
    have hitems := filter_moreItemPieces empties (depth + 1) items
    rw [Value.pieces, listing]
    simp (disch := decide) only [filter_mark, List.filter_append, filter_indentation, hv, hitems,
      List.filter_nil, List.nil_append, List.append_nil]
  | .object ((key, v) :: members) =>
    have hv := filter_pieces empties (depth + 1) v
    have hmembers := filter_moreMemberPieces empties (depth + 1) members
    rw [Value.pieces, listing]
    simp (disch := decide) only [filter_mark, filter_lexeme, List.filter_append,
      filter_indentation, hv, hmembers, List.filter_nil, List.nil_append, List.append_nil]

theorem filter_moreItemPieces (empties : Bool) (depth : Nat) (items : List Tree) :
    (Value.moreItemPieces depth items).filter (isListed empties) = itemListing empties items := by
  match items with
  | [] => rfl
  | v :: items =>
    have hv := filter_pieces empties depth v
    have hitems := filter_moreItemPieces empties depth items
    rw [Value.moreItemPieces, itemListing]
    simp (disch := decide) only [filter_mark, List.filter_append, filter_indentation, hv, hitems,
      List.nil_append]

theorem filter_moreMemberPieces (empties : Bool) (depth : Nat) (members : Members Tree) :
    (Value.moreMemberPieces depth members).filter (isListed empties) =
      memberListing empties members := by
  match members with
  | [] => rfl
  | (key, v) :: members =>
    have hv := filter_pieces empties depth v
    have hmembers := filter_moreMemberPieces empties depth members
    rw [Value.moreMemberPieces, memberListing]
    simp (disch := decide) only [filter_mark, filter_lexeme, List.filter_append,
      filter_indentation, hv, hmembers, List.nil_append]

end

end Json
end QueryView
