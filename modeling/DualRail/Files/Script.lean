/-
  Scripts: computations that read and write files.

  A script asks for what it needs from the file system, one request after the
  other, and goes on with the answer.  It can be run on a file tree, which makes
  it a function, or by a program on real files.
-/
import DualRail.Files.Tree

set_option autoImplicit false

namespace DualRail.Files

/-- A computation that reads and writes files. -/
inductive Script (α : Type) where
  | done (a : α)
  | readText (path : String) (next : Except FileError String → Script α)
  | pathExists (path : String) (next : Bool → Script α)
  | writeText (path text : String) (next : Except FileError Unit → Script α)

namespace Script

variable {α β : Type}

/-- Go on with the result of a script. -/
def andThen (s : Script α) (f : α → Script β) : Script β :=
  match s with
  | done a => f a
  | readText path next => readText path fun r => (next r).andThen f
  | pathExists path next => pathExists path fun r => (next r).andThen f
  | writeText path text next => writeText path text fun r => (next r).andThen f

instance : Monad Script where
  pure := done
  bind := andThen

/-- Ask for the text of a file. -/
def read (path : String) : Script (Except FileError String) := readText path done

/-- Ask whether there is something at a path. -/
def ask (path : String) : Script Bool := pathExists path done

/-- Create or replace a file. -/
def write (path text : String) : Script (Except FileError Unit) := writeText path text done

/-- Run a script on a file tree.  A request that fails changes nothing. -/
def runOn (t : FileTree) : Script α → α × FileTree
  | done a => (a, t)
  | readText path next => (next (t.readText path)).runOn t
  | pathExists path next => (next (t.pathExists path)).runOn t
  | writeText path text next =>
      match t.writeText path text with
      | .ok t' => (next (.ok ())).runOn t'
      | .error e => (next (.error e)).runOn t

@[simp] theorem runOn_pure (t : FileTree) (a : α) : (pure a : Script α).runOn t = (a, t) := rfl

/-- A script that goes on with another runs on what the first leaves behind. -/
@[simp] theorem runOn_bind (t : FileTree) (s : Script α) (f : α → Script β) :
    (s >>= f).runOn t = (f (s.runOn t).1).runOn (s.runOn t).2 := by
  change (s.andThen f).runOn t = _
  induction s generalizing t with
  | done a => rfl
  | readText path next ih => exact ih _ t
  | pathExists path next ih => exact ih _ t
  | writeText path text next ih =>
    simp only [andThen, runOn]
    cases t.writeText path text with
    | ok t' => exact ih _ t'
    | error e => exact ih _ t

@[simp] theorem runOn_read (t : FileTree) (path : String) :
    (read path).runOn t = (t.readText path, t) := rfl

@[simp] theorem runOn_ask (t : FileTree) (path : String) :
    (ask path).runOn t = (t.pathExists path, t) := rfl

theorem runOn_write (t : FileTree) (path text : String) :
    (write path text).runOn t =
      match t.writeText path text with
      | .ok t' => (.ok (), t')
      | .error e => (.error e, t) := by
  unfold write runOn
  cases t.writeText path text with
  | ok t' => rfl
  | error e => rfl

end Script

end DualRail.Files
