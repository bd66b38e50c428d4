/-
  The compiler.

  A circuit is taken from its source, checked against the device, changed by the
  circuit passes, lowered operation by operation, and changed by the program
  passes.  An operation without a lowering is left out.  What a device refuses
  is only reported, unless the policy is to enforce its rules.
-/
import DualRail.Compile.Pass
import DualRail.Compile.Protocol
import DualRail.Compile.Sink
import DualRail.Compile.Source
import DualRail.Optics.Lowering

set_option autoImplicit false

namespace DualRail

/-- What happens when a device refuses a circuit. -/
inductive Policy
  | report
  | enforce
deriving DecidableEq, Repr, Inhabited

namespace Policy

/-- The name of a policy. -/
def name : Policy → String
  | report => "Report"
  | enforce => "Enforce"

end Policy

/-- A protocol, a policy and the passes that are run. -/
structure Compiler where
  protocol : Protocol
  policy : Policy
  circuitPasses : List (Pass Circuit)
  programPasses : List (Pass Program)

namespace Compiler

/-- A compiler that reports what a device refuses and runs no passes. -/
def new (protocol : Protocol) : Compiler := ⟨protocol, .report, [], []⟩

/-- The compiler for the only protocol. -/
def default : Compiler := new .klm

/-- The settings of a compiler and the number of its passes. -/
def summary (c : Compiler) : String :=
  "Compiler \x7b protocol: " ++ c.protocol.title ++ ", policy: " ++ c.policy.name ++
    ", circuit_passes: " ++ c.circuitPasses.length.repr ++
    ", program_passes: " ++ c.programPasses.length.repr ++ " \x7d"

/-! ## Lowering a circuit -/

/-- Lower an operation, if it has a lowering. -/
def lower (c : Compiler) (moment : Nat) (i : Instruction) :
    Traced CompileError (Option Block) :=
  match GateOp.ofInstruction? i with
  | some op => do
      let block ← (Lowering.lower op).mapError fun e => .disordered e.low e.upper
      Traced.emit .debug ("Translated " ++ i.text)
        [.number "moment" moment, .number "components" block.componentCount]
      return some block
  | none => do
      Traced.emit .warn ("Skipping " ++ i.text ++ ": no " ++ c.protocol.name ++ " lowering") []
      return none

/-- Lower operations of a moment and add their blocks to a program. -/
def lowerOperations (c : Compiler) (moment : Nat) :
    List Instruction → Program → Traced CompileError Program
  | [], p => pure p
  | i :: rest, p => do
      match ← c.lower moment i with
      | some block => c.lowerOperations moment rest (p.push block)
      | none => c.lowerOperations moment rest p

/-- Lower moments, the first of which has the number `index`. -/
def lowerMoments (c : Compiler) (index : Nat) :
    List Moment → Program → Traced CompileError Program
  | [], p => pure p
  | m :: rest, p => do
      let p ← c.lowerOperations index m.operations p
      c.lowerMoments (index + 1) rest p

/-- The program of a circuit, without any check. -/
def lowerCircuit (c : Compiler) (circuit : Circuit) : Traced CompileError Program :=
  c.lowerMoments 0 circuit.moments .empty

/-! ## Compiling -/

section Compiling

variable {δ : Type} [Hardware δ]

/-- Check a circuit against a device as the policy demands. -/
def validate (c : Compiler) (device : δ) (circuit : Circuit) : Traced CompileError Unit :=
  (Hardware.check device circuit).recover fun v =>
    match c.policy with
    | .enforce => Traced.fail (.violation v)
    | .report => Traced.emit .error ("Device " ++ Hardware.name device ++ ": " ++ v.message) []

/-- Compile the circuit of a source, without the span around it. -/
def compileSteps (c : Compiler) (source : Source) (device : δ) :
    Traced CompileError Program := do
  let circuit ← source.circuit
  Traced.emit .info
    ("Compiling '" ++ circuit.name ++ "' (" ++ circuit.size.toNat.repr ++ " qubits, " ++
      circuit.operationCount.repr ++ " operations) for " ++ c.protocol.name) []
  Traced.emit .debug ("Input circuit:\n" ++ circuit.text) []
  c.validate device circuit
  let circuit ← Pass.runAll "circuit" c.circuitPasses circuit
  let program ← c.lowerCircuit circuit
  let program ← Pass.runAll "program" c.programPasses program
  Traced.emit .info
    ("Compilation completed: " ++ program.operationCount.repr ++ " operations, " ++
      program.componentCount.repr ++ " components") []
  return program

/-- Compile the circuit of a source for a device. -/
def compile (c : Compiler) (source : Source) (device : δ) : Traced CompileError Program :=
  (c.compileSteps source device).within
    ⟨"compile", [.text "source" source.name, .text "device" (Hardware.name device)]⟩

/-- Give a compiled program to a sink. -/
def deliver {m : Type → Type} [Monad m] (sink : Sink m) (compiled : Traced CompileError Program) :
    m (Traced CompileError Program) :=
  match compiled.outcome with
  | .error e => pure ⟨compiled.log, .error e⟩
  | .ok program => do
      let written ← sink program.render
      return ⟨compiled.log ++ written.log, written.outcome.map fun _ => program⟩

/-- Compile the circuit of a source for a device and give the text of the program
to a sink. -/
def compileTo {m : Type → Type} [Monad m] (c : Compiler) (source : Source) (device : δ)
    (sink : Sink m) : m (Traced CompileError Program) := do
  let result ← deliver sink (c.compile source device)
  return result.within ⟨"compile_to", [.text "source" source.name]⟩

end Compiling

end Compiler

end DualRail
