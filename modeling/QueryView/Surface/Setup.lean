/-
Setting a surface up.

Whoever sets up a surface goes through a list of operations and gives up at the first that
fails.
-/
import QueryView.Surface.Run

namespace QueryView
namespace Surface

/-- Something of a surface that can be set. -/
inductive Setting where
  | text (t : Text)
  | language (l : Language)
  | plainTextColor (c : Option Color)
  | layout (change : LayoutChange)
  deriving DecidableEq

namespace Setting

def request {E R : Type} : Setting → Request E R
  | .text t => .setText t
  | .language l => .setLanguage l
  | .plainTextColor c => .setPlainTextColor c
  | .layout change => .changeLayout change

/-- The state after a setting. -/
def apply (state : State) : Setting → State
  | .text t => { state with text := t }
  | .language l => { state with language := l }
  | .plainTextColor c => { state with plainTextColor := c }
  | .layout change => { state with layout := change.apply state.layout }

end Setting

variable {E R : Type} [EditableLayer E] [RenderLayer R]

/-- Performs operations one after the other, up to the first that fails. -/
def Operation.runInTurn (depth : Nat) : List (Operation E R) → Action E R (Except Failure Unit)
  | [] => return .ok ()
  | op :: ops => do
    match ← Operation.run depth op with
    | .failed failure => return .error failure
    | _ => runInTurn depth ops

end Surface
end QueryView
