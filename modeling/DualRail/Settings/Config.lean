/-
  The configuration of a run.

  Settings come from a file, from the environment and from the command line; what
  comes later wins.  A configuration is checked before and after the command line
  has its say.
-/
import DualRail.Compile.Compiler
import DualRail.Text.Integer

set_option autoImplicit false

namespace DualRail

open Files (FileError)

/-- The settings of a run.  Without a number of qubits, the device has as many as
the circuit. -/
structure Config where
  circuit : String
  qubits : Option UInt32
  output : String
  protocol : Protocol
  strict : Bool
  logLevel : String
deriving DecidableEq, Repr, Inhabited

/-- Why a configuration is refused. -/
inductive ConfigProblem
  | noQubits
  | emptyOutput
  | emptyCircuit
  | unknownLogLevel (name : String)
deriving DecidableEq, Repr, Inhabited

namespace ConfigProblem

/-- The text of a problem. -/
def message : ConfigProblem → String
  | noQubits => "qubits must be greater than 0"
  | emptyOutput => "output path must not be empty"
  | emptyCircuit => "circuit must not be empty"
  | unknownLogLevel name => "Invalid log level: " ++ name

end ConfigProblem

/-- Why there is no configuration. -/
inductive ConfigError
  | file (path : String) (error : FileError)
  | parse (fault : Fault)
  | invalid (problem : ConfigProblem)
deriving DecidableEq, Repr, Inhabited

namespace ConfigError

/-- The text of an error. -/
def message : ConfigError → String
  | file path e => "IO error: " ++ path ++ ": " ++ e.message
  | parse fault => "Parse error: " ++ fault.message
  | invalid problem => "Validation error: " ++ problem.message

end ConfigError

/-- The variables of the environment. -/
abbrev Environment := String → Option String

/-- Settings from the command line; a missing one leaves the configured value. -/
structure Overrides where
  circuit : Option String
  qubits : Option UInt32
  output : Option String
  protocol : Option Protocol
  strict : Bool
deriving DecidableEq, Repr, Inhabited

namespace Config

/-- The settings that hold where nothing else is said. -/
def default : Config := ⟨"bell", none, Sink.defaultPath, .klm, false, Level.name .warn⟩

/-- What happens when the device refuses the circuit. -/
def policy (c : Config) : Policy := if c.strict then .enforce else .report

/-- The first problem of a configuration. -/
def problem? (c : Config) : Option ConfigProblem :=
  if c.qubits = some 0 then some .noQubits
  else if c.output = "" then some .emptyOutput
  else if c.circuit = "" then some .emptyCircuit
  else if (Level.ofName? c.logLevel).isNone then some (.unknownLogLevel c.logLevel)
  else none

/-- Refuse a configuration with a problem. -/
def check (c : Config) : Except ConfigError Config :=
  match c.problem? with
  | some problem => .error (.invalid problem)
  | none => .ok c

/-! ## The environment -/

/-- The number of qubits that a variable asks for, if it is one of 32 bits. -/
def qubitsOf? (text : String) : Option UInt32 :=
  match Text.unsigned? text with
  | some n => if n < Nat.pow 2 32 then some n.toUInt32 else none
  | none => none

/-- The truth value that a variable asks for, in upper or lower case. -/
def strictOf? (text : String) : Option Bool :=
  let lower := text.map Char.toLower
  if ["1", "true", "yes", "on"].contains lower then some true
  else if ["0", "false", "no", "off"].contains lower then some false
  else none

/-- Let the environment change settings.  A variable that cannot be read is
ignored. -/
def withEnvironment (c : Config) (env : Environment) : Config :=
  { circuit := (env "KLMC_CIRCUIT").getD c.circuit
    qubits := ((env "KLMC_QUBITS").bind qubitsOf?).or c.qubits
    output := (env "KLMC_OUTPUT").getD c.output
    protocol :=
      ((env "KLMC_PROTOCOL").bind fun v => (Protocol.ofName v).toOption).getD c.protocol
    strict := ((env "KLMC_STRICT").bind strictOf?).getD c.strict
    logLevel := (env "KLMC_LOG_LEVEL").getD c.logLevel }

/-! ## The command line -/

/-- Let the command line change settings. -/
def withOverrides (c : Config) (o : Overrides) : Except ConfigError Config :=
  check
    { c with
      circuit := o.circuit.getD c.circuit
      qubits := o.qubits.or c.qubits
      output := o.output.getD c.output
      protocol := o.protocol.getD c.protocol
      strict := c.strict || o.strict }

end Config

end DualRail
