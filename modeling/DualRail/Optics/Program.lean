/-
  Programs: what a circuit is compiled to.

  A program is a list of blocks, one per lowered operation; a block is a list of
  lines; a line is a component or blank.  As text, a block is followed by a blank
  line, every line is indented, one more blank line follows the last block, and
  the whole stands between a fixed prologue and a fixed epilogue.
-/
import DualRail.Optics.Component

set_option autoImplicit false

namespace DualRail

/-- A line of a program. -/
inductive Line
  | component (c : Component)
  | blank
deriving DecidableEq, Repr, Inhabited

namespace Line

/-- The text of a line, without its end. -/
def text : Line → String
  | component c => c.text
  | blank => ""

/-- The component of a line that has one. -/
def component? : Line → Option Component
  | component c => some c
  | blank => none

end Line

/-- The text of lines, each ended by a line feed. -/
def linesText (lines : List Line) : String :=
  String.join (lines.map fun l => l.text ++ "\n")

/-- The lines that one operation is lowered to. -/
structure Block where
  lines : List Line
deriving DecidableEq, Repr, Inhabited

namespace Block

/-- A block without lines. -/
def empty : Block := ⟨[]⟩

/-- A block of components. -/
def ofComponents (cs : List Component) : Block := ⟨cs.map .component⟩

/-- Add a component. -/
def push (b : Block) (c : Component) : Block := ⟨b.lines ++ [.component c]⟩

/-- Add a blank line. -/
def pushBlank (b : Block) : Block := ⟨b.lines ++ [.blank]⟩

/-- Add the lines of another block. -/
def extend (b other : Block) : Block := ⟨b.lines ++ other.lines⟩

/-- The components, from the first line to the last. -/
def components (b : Block) : List Component := b.lines.filterMap Line.component?

/-- The number of components. -/
def componentCount (b : Block) : Nat := b.components.length

/-- Whether the block has no lines. -/
def isEmpty (b : Block) : Bool := b.lines.isEmpty

/-- The text of a block. -/
def text (b : Block) : String := linesText b.lines

@[simp] theorem components_ofComponents (cs : List Component) :
    (ofComponents cs).components = cs := by
  induction cs with
  | nil => rfl
  | cons c cs ih => exact congrArg (c :: ·) ih

@[simp] theorem components_extend (b other : Block) :
    (b.extend other).components = b.components ++ other.components :=
  List.filterMap_append

end Block

/-- A list of blocks, one per lowered operation. -/
structure Program where
  operations : List Block
deriving DecidableEq, Repr, Inhabited

namespace Program

/-- What stands before the lines of every program. -/
def prologue : String := ".text\n    _init:\n        nop\n\n"

/-- What stands after the lines of every program. -/
def epilogue : String := "    _exit:\n        nop \n        ret\n"

/-- What stands before every line. -/
def indent : String := "    "

/-- A program without operations. -/
def empty : Program := ⟨[]⟩

/-- Add a block. -/
def push (p : Program) (b : Block) : Program := ⟨p.operations ++ [b]⟩

/-- The components, block by block. -/
def components (p : Program) : List Component := p.operations.flatMap (·.components)

/-- The number of operations. -/
def operationCount (p : Program) : Nat := p.operations.length

/-- The number of components. -/
def componentCount (p : Program) : Nat := p.components.length

/-- All lines: the lines of each block, and a blank line after it. -/
def lines (p : Program) : List Line := p.operations.flatMap fun b => b.lines ++ [.blank]

/-- The lines as text, without indent and frame. -/
def body (p : Program) : String := linesText p.lines

/-- A line as it stands in the program: indented and ended. -/
def indented (l : Line) : String := indent ++ l.text ++ "\n"

/-- The text of a program: the prologue, the indented lines with a blank one at
the end, and the epilogue. -/
def render (p : Program) : String :=
  prologue ++ String.join ((p.lines ++ [Line.blank]).map indented) ++ epilogue

end Program

end DualRail
