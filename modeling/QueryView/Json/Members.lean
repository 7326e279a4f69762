/-
Members of an object, in the order in which their keys first appear.

An object keeps one value for each key.  Setting a key that is present replaces
its value and leaves it in its place, so a list of members with repeated keys
stands for the object in which each key has the place of its first occurrence and
the value of its last.
-/
import QueryView.Text.Basic

namespace QueryView
namespace Json

/-- Pairs of a key and a value, in order. -/
abbrev Members (α : Type) := List (Text × α)

namespace Members

variable {α β : Type}

/-- Sets the value of a key: in place if the key is there, at the end if not. -/
def set : Members α → Text → α → Members α
  | [], key, value => [(key, value)]
  | (k, v) :: rest, key, value =>
    if k = key then (k, value) :: rest else (k, v) :: set rest key value

/-- The object that a list of members stands for. -/
def merge (members : Members α) : Members α :=
  members.foldl (fun object m => set object m.1 m.2) []

def mapValues (f : α → β) (members : Members α) : Members β :=
  members.map fun m => (m.1, f m.2)

/-- Setting a key does not depend on what the values are. -/
theorem mapValues_set (f : α → β) (members : Members α) (key : Text) (value : α) :
    mapValues f (set members key value) = set (mapValues f members) key (f value) := by
  induction members with
  | nil => rfl
  | cons m rest ih =>
    obtain ⟨k, v⟩ := m
    by_cases h : k = key
    · simp [set, mapValues, h]
    · simpa [set, mapValues, h] using ih

theorem keys_set (members : Members α) (key : Text) (value : α) :
    (set members key value).map Prod.fst =
      if key ∈ members.map Prod.fst then members.map Prod.fst
      else members.map Prod.fst ++ [key] := by
  induction members with
  | nil => simp [set]
  | cons m rest ih =>
    obtain ⟨k, v⟩ := m
    by_cases h : k = key
    · simp [set, h]
    · have h' : ¬ key = k := fun e => h e.symm
      simp only [set, h, if_false, List.map_cons, ih, List.mem_cons, h', false_or]
      split <;> simp

end Members
end Json
end QueryView
