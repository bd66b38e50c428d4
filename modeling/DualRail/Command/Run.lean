/-
  Running the command line.

  A run reads the configuration, carries out the command and leaves an exit code,
  what is printed, and what is logged.  Log and errors go to the error stream.
-/
import DualRail.Command.Help
import DualRail.Command.Load
import DualRail.Settings.File

set_option autoImplicit false

namespace DualRail.Command

open Files (Script)

/-- The version of the tool. -/
def toolVersion : String := "0.3.0"

/-- What a run leaves behind, files apart. -/
structure Outcome where
  exit : Nat
  stdout : String
  stderr : String
deriving DecidableEq, Repr, Inhabited

/-! ## The log on the console -/

/-- A character of a message on the console.  Those that could start a command to
the terminal are replaced by their number. -/
def messageChar (c : Char) : String :=
  if c = '\x1b' then "\\x1b"
  else if c = '\x07' then "\\x07"
  else if c = '\x08' then "\\x08"
  else if c = '\x0c' then "\\x0c"
  else if c = '\x7f' then "\\x7f"
  else if 0x80 ≤ c.toNat ∧ c.toNat ≤ 0x9f then Text.numbered c
  else c.toString

/-- A message on the console. -/
def messageText (s : String) : String := String.join (s.toList.map messageChar)

/-- A field on the console. -/
def fieldText (f : Field) : String :=
  f.name ++ "=" ++ (if f.quoted then Text.quoted f.value else f.value)

/-- A span on the console. -/
def spanText (s : Span) : String :=
  s.name ++ "\x7b" ++ String.intercalate " " (s.fields.map fieldText) ++ "\x7d:"

/-- The spans around an event on the console. -/
def spansText (spans : List Span) : String :=
  if spans.isEmpty then "" else String.join (spans.map spanText) ++ " "

/-- An event on the console, with the spans around it. -/
def eventText (around : List Span) (e : Event) : String :=
  let label := String.ofList (List.replicate (5 - e.level.label.length) ' ') ++ e.level.label
  label ++ " " ++ spansText around ++ messageText e.message ++
    String.join (e.fields.map fun f => " " ++ fieldText f) ++ "\n"

/-- A log on the console. -/
def logText (limit : Level) (log : Log) : String :=
  String.join ((log.eventsWithin limit []).map fun e => eventText e.1 e.2)

/-- The level up to which events are shown. -/
def logLimit (verbosity : Nat) (loaded : Except ConfigError Config) : Level :=
  match verbosity with
  | 0 =>
      match loaded with
      | .ok c => (Level.ofName? c.logLevel).getD .warn
      | .error _ => .warn
  | 1 => .info
  | 2 => .debug
  | _ => .trace

/-! ## Commands -/

/-- What a command leaves behind: what it prints and logs, and the text of the
error that stopped it, if one did. -/
structure Report where
  printed : String
  log : Log
  error : Option String
deriving Repr, Inhabited

namespace Report

/-- The outcome of a run with this report. -/
def outcome (limit : Level) (r : Report) : Outcome :=
  match r.error with
  | none => ⟨0, r.printed, logText limit r.log⟩
  | some e => ⟨1, r.printed, logText limit r.log ++ "Error: " ++ e ++ "\n"⟩

end Report

/-- What is printed before anything is done. -/
def startText (c : Config) : String :=
  "→ Compiling " ++ c.circuit ++ " for protocol " ++ c.protocol.name ++ "\n"

/-- What is printed once the circuit is there. -/
def loadedText (c : Circuit) : String :=
  "  Loaded: " ++ c.size.toNat.repr ++ " qubits, depth " ++ c.depth.repr ++ ", " ++
    c.operationCount.repr ++ " operations\n"

/-- What is printed once the program is written. -/
def doneText (output : String) (p : Program) : String :=
  "✓ Compilation complete\n  Result: " ++ p.operationCount.repr ++ " operations, " ++
    p.componentCount.repr ++ " components\n  Output: " ++ output ++ "\n"

/-- The compiler that a configuration asks for. -/
def compilerOf (c : Config) : Compiler := { Compiler.new c.protocol with policy := c.policy }

/-- The device that a configuration asks for. -/
def deviceOf (c : Config) (circuit : Circuit) : Device := ⟨c.qubits.getD circuit.size⟩

/-- Compile a circuit and write its program to the output file. -/
def compileCircuit (c : Config) (circuit : Circuit) : Script (Traced CompileError Program) :=
  (compilerOf c).compileTo (Source.ofCircuit circuit) (deviceOf c circuit) (Sink.file c.output)

/-- Carry out the command to compile. -/
def compile (c : Config) (print : Bool) : Script Report := do
  let loaded ← load c.circuit
  match loaded.outcome with
  | .error e => return ⟨startText c, loaded.log, some e.message⟩
  | .ok circuit => do
      let compiled ← compileCircuit c circuit
      let log := loaded.log ++ compiled.log
      let printed := startText c ++ loadedText circuit
      match compiled.outcome with
      | .error e => return ⟨printed, log, some ("Compilation failed: " ++ e.report)⟩
      | .ok program =>
          let programText := if print then "\n" ++ program.render else ""
          return ⟨printed ++ doneText c.output program ++ programText, log, none⟩

/-- The list of builtin circuits. -/
def circuitsText : String :=
  "Builtin circuits:\n" ++
    String.join (Builtin.all.map fun b =>
      "  " ++ padTo 15 b.name ++ " " ++ b.description ++ "\n") ++
    "\nAny other circuit can be passed as a .json file.\n"

/-- The text of the command that shows the version. -/
def aboutText : String :=
  toolName ++ " v" ++ toolVersion ++ " - photonic circuit compiler\n\n" ++
    "Components:\n" ++
    "  klm-ir       Line-qubit circuit representation\n" ++
    "  klm-compile  Gate-to-component compiler\n" ++
    "  klm-cli      Command-line interface\n\n" ++
    "Protocols:  " ++ String.intercalate ", " (Protocol.all.map Protocol.name) ++ "\n" ++
    "License:    Apache-2.0\n"

/-- Carry out a command with the configuration that was loaded for it. -/
def carryOut (action : Subcommand) (g : Given) (loaded : Except ConfigError Config) :
    Script Report :=
  match action with
  | .circuits => return ⟨circuitsText, [], none⟩
  | .version => return ⟨aboutText, [], none⟩
  | .compile =>
      match loaded.bind fun c => c.withOverrides g.overrides with
      | .error e => return ⟨"", [], some e.message⟩
      | .ok c => compile c g.print

/-! ## Runs -/

/-- What is printed when the arguments make no sense.  The error stream is read as
plain text, so commands to the terminal are dropped, those of the arguments too. -/
def usageText (e : UsageError) : String :=
  Text.plain (Text.emphasised "error:" ++ " " ++ e.message ++
    "\n\nFor more information, try '" ++ Text.emphasised "--help" ++ "'.\n")

/-- Run the tool with these arguments. -/
def run (args : List String) (env : Environment) : Script Outcome :=
  match parse args with
  | .error e => return ⟨2, "", usageText e⟩
  | .ok .nothing => return ⟨2, "", Topic.tool.text⟩
  | .ok .versionText => return ⟨0, toolName ++ " " ++ toolVersion ++ "\n", ""⟩
  | .ok (.help topic) => return ⟨0, topic.text, ""⟩
  | .ok (.run action g) => do
      let loaded ← Config.load g.config env
      let report ← carryOut action g loaded
      return report.outcome (logLimit g.verbosity loaded)

end DualRail.Command
