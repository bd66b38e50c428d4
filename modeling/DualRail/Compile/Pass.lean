/-
  Passes: steps of a compilation that a user adds.

  A pass works on circuits before they are lowered, or on programs afterwards.
-/
import DualRail.Compile.Error

set_option autoImplicit false

namespace DualRail

/-- Whether a pass only looks at what it is given. -/
inductive PassKind
  | analysis
  | transformation
deriving DecidableEq, Repr, Inhabited

namespace PassKind

/-- The name of a kind. -/
def name : PassKind → String
  | analysis => "Analysis"
  | transformation => "Transformation"

end PassKind

/-- A step that turns an `α` into another one or fails. -/
structure Pass (α : Type) where
  name : String
  kind : PassKind
  run : α → Except CompileError α

namespace Pass

variable {α : Type}

/-- The pass that changes nothing. -/
def identity : Pass α := ⟨"identity", .analysis, .ok⟩

/-- Run passes one after the other; `stage` is what they work on. -/
def runAll (stage : String) : List (Pass α) → α → Traced CompileError α
  | [], a => pure a
  | p :: rest, a => do
      Traced.emit .debug ("Running " ++ stage ++ " pass: " ++ p.name) []
      let next ← Traced.ofExcept (p.run a)
      runAll stage rest next

end Pass

end DualRail
