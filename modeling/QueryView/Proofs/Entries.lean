/-
Maps with repeated keys.

A map of a result may hold a key more than once.  Turning it into JSON keeps one entry for each
key; writing all of its entries would leave that to whoever reads the text (`fullText`).  It makes
no difference who does it: the writer puts each value where the key is already, a reader of
documents merges the members of each object, and both do so inside the values that are replaced,
too, which then are not seen (`resolved_fullTree`).

`ShownAs` says without either of them what is seen of a value, and leaves nothing open
(`ShownAs.eq_tree`).
-/
import QueryView.Proofs.Json.Pieces
import QueryView.Proofs.ResultValue

namespace QueryView
namespace ResultValue

open Json Json.Members

/-! ## All entries -/

mutual

/-- A value as JSON with all entries of its maps. -/
def fullTree : ResultValue → Tree
  | .array items => .array (fullItemTrees items)
  | .map entries => .object (fullEntryTrees entries)
  | v => v.tree

def fullItemTrees : List ResultValue → List Tree
  | [] => []
  | v :: rest => fullTree v :: fullItemTrees rest

def fullEntryTrees : List (Text × ResultValue) → Members Tree
  | [] => []
  | (key, v) :: rest => (key, fullTree v) :: fullEntryTrees rest

end

/-- The rows of a result as one JSON text that holds all entries of all maps. -/
def fullText (rows : List ResultValue) : Text := Value.compact (.array (fullItemTrees rows))

mutual

theorem writable_fullTree (v : ResultValue) : Writable v.fullTree := by
  match v with
  | .array items =>
    rw [fullTree]
    exact .array (writable_fullItemTrees items)
  | .map entries =>
    rw [fullTree]
    exact .object (writable_fullEntryTrees entries)
  | .null | .bool _ | .int _ | .float _ | .string _ | .bytes _ | .attachment _ =>
    simp only [fullTree]
    exact (sound_tree _).writable

theorem writable_fullItemTrees (items : List ResultValue) :
    ∀ v ∈ fullItemTrees items, Writable v := by
  match items with
  | [] => exact fun v hv => absurd hv List.not_mem_nil
  | v :: items =>
    rw [fullItemTrees, List.forall_mem_cons]
    exact ⟨writable_fullTree v, writable_fullItemTrees items⟩

theorem writable_fullEntryTrees (entries : List (Text × ResultValue)) :
    ∀ m ∈ fullEntryTrees entries, Writable m.2 := by
  match entries with
  | [] => exact fun m hm => absurd hm List.not_mem_nil
  | (key, v) :: entries =>
    rw [fullEntryTrees, List.forall_mem_cons]
    exact ⟨writable_fullTree v, writable_fullEntryTrees entries⟩

end

mutual

/-- A reader sees of all entries what the writer would have kept of them. -/
theorem resolved_fullTree (v : ResultValue) : resolved v.fullTree = v.tree := by
  match v with
  | .array items => rw [fullTree, resolved, resolvedItems_fullItemTrees items, tree]
  | .map entries => rw [fullTree, resolved, resolvedMembers_fullEntryTrees entries, tree]
  | .null | .bool _ | .int _ | .float _ | .string _ | .bytes _ | .attachment _ =>
    simp only [fullTree]
    exact resolved_of_sound _ (sound_tree _)

theorem resolvedItems_fullItemTrees (items : List ResultValue) :
    resolvedItems (fullItemTrees items) = itemTrees items := by
  match items with
  | [] => rfl
  | v :: items =>
    have hv := resolved_fullTree v
    have hitems := resolvedItems_fullItemTrees items
    rw [fullItemTrees, resolvedItems, hv, hitems, itemTrees]

theorem resolvedMembers_fullEntryTrees (entries : List (Text × ResultValue)) :
    resolvedMembers (fullEntryTrees entries) = entryTrees entries := by
  match entries with
  | [] => rfl
  | (key, v) :: entries =>
    have hv := resolved_fullTree v
    have hentries := resolvedMembers_fullEntryTrees entries
    rw [fullEntryTrees, resolvedMembers, hv, hentries, entryTrees]

end

/-! ## What is seen of a value -/

/-- What is seen of a value: of a map each key once, where it comes first, and with the last of
its values. -/
inductive ShownAs : ResultValue → Tree → Prop where
  | null : ShownAs .null .null
  | bool (b : Bool) : ShownAs (.bool b) (.bool b)
  | int (i : Int) : ShownAs (.int i) (ofInt i)
  | float (bits : UInt64) : ShownAs (.float bits) (ofFloat bits)
  | string (t : Text) : ShownAs (.string t) (.string t)
  | bytes (b : List UInt8) : ShownAs (.bytes b) (.string (Text.base64 b))
  | attachment (a : Attachment) : ShownAs (.attachment a) a.tree
  | array {items : List ResultValue} {trees : List Tree} : items.length = trees.length →
      (∀ i (h : i < items.length) (h' : i < trees.length), ShownAs items[i] trees[i]) →
      ShownAs (.array items) (.array trees)
  | map {entries shown : List (Text × ResultValue)} {trees : Members Tree} :
      keys shown = (keys entries).eraseDups →
      (∀ m ∈ shown, LastValue entries m.1 m.2) → keys trees = keys shown →
      (∀ i (h : i < shown.length) (h' : i < trees.length), ShownAs shown[i].2 trees[i].2) →
      ShownAs (.map entries) (.object trees)

mutual

theorem shownAs_tree (v : ResultValue) : ShownAs v v.tree := by
  match v with
  | .null => exact .null
  | .bool b => exact .bool b
  | .int i => exact .int i
  | .float bits => exact .float bits
  | .string t => exact .string t
  | .bytes b => exact .bytes b
  | .attachment a => exact .attachment a
  | .array items =>
    have hitems := shownAs_items items
    rw [tree, itemTrees_eq]
    refine .array (List.length_map _).symm fun i hi hi' => ?_
    rw [List.getElem_map]
    exact hitems _ (List.getElem_mem hi)
  | .map entries =>
    have hentries := shownAs_entries entries
    rw [tree, entryTrees_eq, mapValues_merge]
    refine .map (keys_merge entries) (fun m hm => mem_merge_iff.mp hm) (keys_mapValues _ _)
      fun i hi hi' => ?_
    have hmem := (mem_merge_iff.mp (List.getElem_mem hi)).mem
    have hget : (mapValues tree (merge entries))[i].2 = (merge entries)[i].2.tree := by
      simp [mapValues]
    rw [hget]
    exact hentries _ hmem

theorem shownAs_items (items : List ResultValue) : ∀ v ∈ items, ShownAs v v.tree := by
  match items with
  | [] => exact fun v hv => absurd hv List.not_mem_nil
  | v :: items =>
    rw [List.forall_mem_cons]
    exact ⟨shownAs_tree v, shownAs_items items⟩

theorem shownAs_entries (entries : List (Text × ResultValue)) :
    ∀ m ∈ entries, ShownAs m.2 m.2.tree := by
  match entries with
  | [] => exact fun m hm => absurd hm List.not_mem_nil
  | (key, v) :: entries =>
    rw [List.forall_mem_cons]
    exact ⟨shownAs_tree v, shownAs_entries entries⟩

end

/-- Nothing else is seen of a value. -/
theorem ShownAs.eq_tree {v : ResultValue} {t : Tree} (h : ShownAs v t) : t = v.tree := by
  induction h with
  | null | bool | int | float | string | bytes | attachment => rfl
  | @array items trees hlength _ ih =>
    have hitems : trees = items.map tree := by
      refine List.ext_getElem (by simpa using hlength.symm) fun i hi hi' => ?_
      rw [List.getElem_map]
      exact ih i (by simpa using hi') hi
    rw [tree, itemTrees_eq, hitems]
  | @map entries shown trees hkeys hlast htrees _ ih =>
    have hshown : merge entries = shown :=
      eq_of_keys_eq ((keys_merge entries).trans hkeys.symm) (nodup_keys_merge entries)
        fun m hm => mem_merge_iff.mpr (hlast m hm)
    have hvalues : mapValues tree shown = mapValues id trees :=
      mapValues_eq_iff.mpr ⟨htrees, fun i hi hi' => (ih i hi hi').symm⟩
    rw [tree, entryTrees_eq, mapValues_merge, hshown, hvalues]
    exact congrArg _ (List.map_id trees).symm

/-- Whether the keys of maps are resolved before the rows are written or left to the reader, the
same pieces are laid out: those of the trees in which each key is shown once. -/
theorem repeated_keys_are_resolved_alike (rows : List ResultValue) :
    ∃ trees ps, List.Forall₂ ShownAs rows trees ∧ format? (fullText rows) = some ps ∧
      format? (jsonText rows) = some ps ∧
      ps.filter (fun token => token.kind ≠ .plain) = listing false (.array trees) := by
  have hwritable : Writable (.array (fullItemTrees rows)) := .array (writable_fullItemTrees rows)
  have hsound : Sound (.array (itemTrees rows)) := .array (sound_itemTrees rows)
  have hfull := hasTree_compact hwritable
  rw [resolved, resolvedItems_fullItemTrees] at hfull
  refine ⟨itemTrees rows, Value.pieces 0 (.array (itemTrees rows)), ?_,
    format?_eq_some_iff.mpr ⟨_, hfull, rfl⟩,
    format?_eq_some_iff.mpr ⟨_, hasTree_compact_of_sound hsound, rfl⟩, ?_⟩
  · rw [itemTrees_eq, List.forall₂_map_right_iff, List.forall₂_same]
    exact shownAs_items rows
  · rw [← isListed_false, filter_pieces]

/-- The text of all entries is not that of the rows. -/
example :
    let rows := [map [("a".toList, .null), ("b".toList, .null), ("a".toList, .bool true)]]
    fullText rows = "[\x7b\"a\":null,\"b\":null,\"a\":true\x7d]".toList ∧
      jsonText rows = "[\x7b\"a\":true,\"b\":null\x7d]".toList := by decide

end ResultValue
end QueryView
