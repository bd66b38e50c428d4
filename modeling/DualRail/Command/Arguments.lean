/-
  The arguments of the command line.

  An option takes its value from the same argument or from the next one.  A value
  from the next argument is looked at only when another option follows or the
  arguments end, so that an argument that makes no sense at all is reported
  first.  Help is given as soon as it is asked for, whatever comes after.
-/
import DualRail.Settings.Config
import DualRail.Text.Terminal

set_option autoImplicit false

namespace DualRail.Command

/-! ## What is asked for -/

/-- An option with a value. -/
inductive OptionName
  | circuit
  | qubits
  | output
  | protocol
  | config
deriving DecidableEq, Repr, Inhabited

namespace OptionName

/-- Every option with a value. -/
def all : List OptionName := [circuit, qubits, output, protocol, config]

/-- The long name of an option. -/
def long : OptionName → String
  | circuit => "circuit"
  | qubits => "qubits"
  | output => "output"
  | protocol => "protocol"
  | config => "config"

/-- The short name of an option that has one. -/
def letter? : OptionName → Option Char
  | circuit => some 'c'
  | qubits => some 'q'
  | output => some 'o'
  | protocol => some 'p'
  | config => none

/-- The option with a short name. -/
def ofShort? (c : Char) : Option OptionName := all.find? (·.letter? == some c)

/-- The option with a long name. -/
def ofLong? (name : String) : Option OptionName := all.find? (·.long == name)

/-- How an option is shown. -/
def shown (o : OptionName) : String :=
  "--" ++ o.long ++ " <" ++ o.long.map Char.toUpper ++ ">"

end OptionName

/-- What is given to a command.  `verbosity` counts how often more of the log was
asked for. -/
structure Given where
  verbosity : Nat
  circuit : Option String
  qubits : Option UInt32
  output : Option String
  protocol : Option Protocol
  config : Option String
  strict : Bool
  print : Bool
deriving DecidableEq, Repr, Inhabited

namespace Given

/-- Nothing. -/
def nothing : Given := ⟨0, none, none, none, none, none, false, false⟩

/-- The settings among what is given. -/
def overrides (g : Given) : Overrides := ⟨g.circuit, g.qubits, g.output, g.protocol, g.strict⟩

/-- Whether an option is given. -/
def has (g : Given) : OptionName → Bool
  | .circuit => g.circuit.isSome
  | .qubits => g.qubits.isSome
  | .output => g.output.isSome
  | .protocol => g.protocol.isSome
  | .config => g.config.isSome

end Given

/-- A command of the tool. -/
inductive Subcommand
  | compile
  | circuits
  | version
deriving DecidableEq, Repr, Inhabited

namespace Subcommand

/-- Every command. -/
def all : List Subcommand := [compile, circuits, version]

/-- The name of a command. -/
def name : Subcommand → String
  | compile => "compile"
  | circuits => "circuits"
  | version => "version"

/-- The command with a name. -/
def ofName? (name : String) : Option Subcommand := all.find? (·.name == name)

end Subcommand

/-- What help is about: the tool, one of its commands, or the help. -/
inductive Topic
  | tool
  | command (action : Subcommand)
  | help
deriving DecidableEq, Repr, Inhabited

/-- What the arguments ask for: nothing at all, the short version text, help, or a
command. -/
inductive Request
  | nothing
  | versionText
  | help (topic : Topic)
  | run (action : Subcommand) (given : Given)
deriving DecidableEq, Repr, Inhabited

/-! ## What can be wrong -/

/-- Why the arguments make no sense. -/
inductive UsageError
  | invalidValue (o : OptionName) (value reason : String)
  | missingValue (o : OptionName)
  | repeated (name : String)
  | unexpected (argument : String)
  | unexpectedValue (name value : String)
  | unknownCommand (name : String)
  | noCommand
deriving DecidableEq, Repr, Inhabited

namespace UsageError

open Text (emphasised)

/-- The text of an error, with what it is about in bold letters. -/
def message : UsageError → String
  | invalidValue o value reason =>
      "invalid value '" ++ emphasised value ++ "' for '" ++ emphasised o.shown ++ "': " ++ reason
  | missingValue o =>
      "a value is required for '" ++ emphasised o.shown ++ "' but none was supplied"
  | repeated name => "the argument '" ++ emphasised name ++ "' cannot be used multiple times"
  | unexpected argument => "unexpected argument '" ++ emphasised argument ++ "' found"
  | unexpectedValue name value =>
      "unexpected value '" ++ emphasised value ++ "' for '" ++ emphasised name ++
        "' found; no more were expected"
  | unknownCommand name => "unrecognized subcommand '" ++ emphasised name ++ "'"
  | noCommand => "a subcommand is required"

end UsageError

/-! ## Single arguments -/

/-- The form of an argument. -/
inductive Argument
  | separator
  | long (name : String) (value : Option String)
  | short (letters : List Char)
  | word (text : String)
deriving DecidableEq, Repr, Inhabited

namespace Argument

/-- The form of an argument.  A lone hyphen is a word. -/
def ofString (text : String) : Argument :=
  match text.toList with
  | ['-', '-'] => separator
  | '-' :: '-' :: rest =>
      let name := String.ofList (rest.takeWhile (· != '='))
      match rest.dropWhile (· != '=') with
      | _ :: value => long name (some (String.ofList value))
      | [] => long name none
  | '-' :: c :: rest => short (c :: rest)
  | _ => word text

end Argument

/-! ## Values -/

/-- The greatest number of qubits. -/
def maxQubits : Int := 4294967295

/-- The number of qubits that a text stands for. -/
def qubitsOf (value : String) : Except UsageError UInt32 :=
  match Text.integer64 value with
  | .error e => .error (.invalidValue .qubits value e.message)
  | .ok n =>
      if 0 ≤ n ∧ n ≤ maxQubits then .ok n.toNat.toUInt32
      else .error (.invalidValue .qubits value (toString n ++ " is not in 0..=4294967295"))

/-- The path that a text stands for. -/
def pathOf (o : OptionName) (value : String) : Except UsageError String :=
  if value = "" then .error (.missingValue o) else .ok value

/-- Store the value of an option that is not given yet. -/
def store (g : Given) (o : OptionName) (value : String) : Except UsageError Given :=
  if g.has o then .error (.repeated o.shown)
  else
    match o with
    | .circuit => .ok { g with circuit := some value }
    | .qubits => (qubitsOf value).map fun n => { g with qubits := some n }
    | .output => (pathOf o value).map fun p => { g with output := some p }
    | .protocol =>
        match Protocol.ofName value with
        | .ok p => .ok { g with protocol := some p }
        | .error reason => .error (.invalidValue o value reason)
    | .config => (pathOf o value).map fun p => { g with config := some p }

/-! ## The arguments of a command -/

/-- What was given so far, and an option that waits for its value or to be stored. -/
structure Draft where
  given : Given
  pending : Option (OptionName × Option String)
deriving DecidableEq, Repr, Inhabited

namespace Draft

/-- Store a waiting option. -/
def settle (d : Draft) : Except UsageError Given :=
  match d.pending with
  | none => .ok d.given
  | some (o, none) => .error (.missingValue o)
  | some (o, some value) => store d.given o value

/-- Start an option, with a value or before it. -/
def addOption (d : Draft) (o : OptionName) (value : Option String) : Except UsageError Draft := do
  let g ← d.settle
  match value with
  | some v => do
      let g ← store g o v
      return ⟨g, none⟩
  | none => return ⟨g, some (o, none)⟩

/-- Ask for more of the log. -/
def addVerbose (d : Draft) : Except UsageError Draft := do
  let g ← d.settle
  return ⟨{ g with verbosity := g.verbosity + 1 }, none⟩

/-- Ask for strict checks. -/
def addStrict (d : Draft) : Except UsageError Draft := do
  let g ← d.settle
  if g.strict then .error (.repeated "--strict") else return ⟨{ g with strict := true }, none⟩

/-- Ask for the program to be printed. -/
def addPrint (d : Draft) : Except UsageError Draft := do
  let g ← d.settle
  if g.print then .error (.repeated "--print") else return ⟨{ g with print := true }, none⟩

/-- Ask for help, which ends the arguments. -/
def askHelp (d : Draft) : Except UsageError (Option Draft) := d.settle.map fun _ => none

/-- Take in a long option; nothing is left if it asks for help.  Only the command to
compile has options of its own. -/
def addLong (d : Draft) (compiles : Bool) (name : String) (value : Option String) :
    Except UsageError (Option Draft) :=
  let flag (add : Draft → Except UsageError (Option Draft)) : Except UsageError (Option Draft) :=
    match value with
    | some v => .error (.unexpectedValue ("--" ++ name) v)
    | none => add d
  if name = "help" then flag askHelp
  else if name = "verbose" then flag fun d => d.addVerbose.map some
  else if compiles then
    if name = "strict" then flag fun d => d.addStrict.map some
    else if name = "print" then flag fun d => d.addPrint.map some
    else
      match OptionName.ofLong? name with
      | some o => (d.addOption o value).map some
      | none => .error (.unexpected ("--" ++ name))
  else .error (.unexpected ("--" ++ name))

/-- A value that follows a short option directly or after an equals sign. -/
def attached : List Char → Option String
  | [] => none
  | '=' :: rest => some (String.ofList rest)
  | cs => some (String.ofList cs)

/-- Take in short options, one letter each; the first with a value takes all that
follows it, and nothing is left after the one that asks for help. -/
def addShort (d : Draft) (compiles : Bool) : List Char → Except UsageError (Option Draft)
  | [] => .ok (some d)
  | c :: rest =>
      if c == 'h' then d.askHelp
      else if c == 'v' then do
        let d ← d.addVerbose
        d.addShort compiles rest
      else
        match (if compiles then OptionName.ofShort? c else none) with
        | some o => (d.addOption o (attached rest)).map some
        | none => .error (.unexpected ("-" ++ c.toString))

/-- Take in the arguments after the name of a command; nothing is left if they ask
for help. -/
def addAll (d : Draft) (compiles : Bool) : List String → Except UsageError (Option Given)
  | [] => d.settle.map some
  | arg :: rest =>
      match Argument.ofString arg with
      | .separator =>
          match rest with
          | [] => d.settle.map some
          | next :: _ => .error (.unexpected next)
      | .long name value => do
          match ← d.addLong compiles name value with
          | some d => d.addAll compiles rest
          | none => return none
      | .short letters => do
          match ← d.addShort compiles letters with
          | some d => d.addAll compiles rest
          | none => return none
      | .word text =>
          match d.pending with
          | some (o, none) => addAll ⟨d.given, some (o, some text)⟩ compiles rest
          | _ => .error (.unexpected text)

end Draft

/-! ## All arguments -/

/-- Take in short options before a command: a request that ends the arguments, or how
often more of the log is asked for. -/
def countShort (n : Nat) : List Char → Except UsageError (Request ⊕ Nat)
  | [] => .ok (.inr n)
  | c :: rest =>
      if c == 'v' then countShort (n + 1) rest
      else if c == 'V' then .ok (.inl .versionText)
      else if c == 'h' then .ok (.inl (.help .tool))
      else .error (.unexpected ("-" ++ c.toString))

/-- Arguments without a command ask for nothing if they hold nothing else; otherwise
the command is missing. -/
def withoutCommand (verbosity : Nat) : Except UsageError Request :=
  if verbosity = 0 then .ok .nothing else .error .noCommand

namespace Topic

/-- The topic with a name below a topic.  Only the tool has commands. -/
def below? (t : Topic) (name : String) : Option Topic :=
  match t with
  | tool => if name = "help" then some help else (Subcommand.ofName? name).map command
  | command _ | help => none

/-- The topic that names lead to. -/
def follow (t : Topic) : List String → Except UsageError Topic
  | [] => .ok t
  | name :: rest =>
      match t.below? name with
      | some next => next.follow rest
      | none => .error (.unknownCommand name)

end Topic

/-- The command with its arguments.  What is asked of the log after the name of
the command counts, if anything is. -/
def parseCommand (verbosity : Nat) (name : String) (args : List String) :
    Except UsageError Request :=
  match Subcommand.ofName? name with
  | none => .error (.unknownCommand name)
  | some action => do
      match ← Draft.addAll ⟨.nothing, none⟩ (action == .compile) args with
      | none => return .help (.command action)
      | some g =>
          let total := if g.verbosity = 0 then verbosity else g.verbosity
          return .run action { g with verbosity := total }

/-- Take in the arguments, after `verbosity` requests for more of the log. -/
def parseFrom (verbosity : Nat) : List String → Except UsageError Request
  | [] => withoutCommand verbosity
  | arg :: rest =>
      match Argument.ofString arg with
      | .separator =>
          match rest with
          | [] => withoutCommand verbosity
          | next :: _ => .error (.unexpected next)
      | .long name value =>
          match value with
          | some v =>
              if name = "verbose" ∨ name = "version" ∨ name = "help" then
                .error (.unexpectedValue ("--" ++ name) v)
              else .error (.unexpected ("--" ++ name))
          | none =>
              if name = "verbose" then parseFrom (verbosity + 1) rest
              else if name = "version" then .ok .versionText
              else if name = "help" then .ok (.help .tool)
              else .error (.unexpected ("--" ++ name))
      | .short letters => do
          match ← countShort verbosity letters with
          | .inr n => parseFrom n rest
          | .inl request => return request
      | .word name =>
          if name = "help" then (Topic.tool.follow rest).map .help
          else parseCommand verbosity name rest

/-- What the arguments ask for. -/
def parse (args : List String) : Except UsageError Request := parseFrom 0 args

end DualRail.Command
