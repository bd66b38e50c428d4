/-
  The help texts of the command line.

  A help text says what its topic is for and how it is called, and then lists in two
  columns what can be given: the commands, the options or the arguments.
-/
import DualRail.Command.Arguments

set_option autoImplicit false

namespace DualRail.Command

/-- The name of the tool. -/
def toolName : String := "klmc"

/-- Fill a text up to a width. -/
def padTo (width : Nat) (s : String) : String :=
  s ++ String.ofList (List.replicate (width - s.length) ' ')

/-! ## Tables -/

/-- A row of a help text: how something is written, and what it is for. -/
structure HelpRow where
  form : String
  purpose : String
deriving DecidableEq, Repr, Inhabited

/-- Rows under a title.  The second column starts behind the longest form. -/
def helpTable (title : String) (rows : List HelpRow) : String :=
  let width := rows.foldl (fun w row => max w row.form.length) 0
  "\n" ++ title ++ ":\n" ++
    String.join (rows.map fun row => "  " ++ padTo width row.form ++ "  " ++ row.purpose ++ "\n")

namespace OptionName

/-- What an option is for. -/
def purpose : OptionName → String
  | circuit => "Builtin circuit name or path to a JSON circuit file"
  | qubits => "Number of line qubits on the device"
  | output => "Output file"
  | protocol => "Physical protocol (klm)"
  | config => "YAML configuration file"

/-- The row of an option.  The long names stand below each other. -/
def row (o : OptionName) : HelpRow :=
  match o.letter? with
  | some c => ⟨"-" ++ c.toString ++ ", " ++ o.shown, o.purpose⟩
  | none => ⟨"    " ++ o.shown, o.purpose⟩

end OptionName

namespace HelpRow

/-- The row of the request for more of the log. -/
def verbose : HelpRow := ⟨"-v, --verbose...", "Increase verbosity (-v, -vv, -vvv)"⟩

/-- The row of the request for strict checks. -/
def strict : HelpRow := ⟨"    --strict", "Abort on device constraint violations"⟩

/-- The row of the request for the program to be printed. -/
def print : HelpRow := ⟨"    --print", "Also print the program to stdout"⟩

/-- The row of the request for help. -/
def help : HelpRow := ⟨"-h, --help", "Print help"⟩

/-- The row of the request for the short version text. -/
def version : HelpRow := ⟨"-V, --version", "Print version"⟩

end HelpRow

/-! ## Topics -/

namespace Subcommand

/-- What a command is for. -/
def purpose : Subcommand → String
  | compile => "Compile a circuit into a photonic program"
  | circuits => "List builtin circuits"
  | version => "Show version information"

/-- The rows of the options of a command. -/
def optionRows : Subcommand → List HelpRow
  | compile =>
      [OptionName.circuit.row, .verbose, OptionName.qubits.row, OptionName.output.row,
        OptionName.protocol.row, .strict, OptionName.config.row, .print, .help]
  | circuits | version => [.verbose, .help]

end Subcommand

namespace Topic

/-- What a topic is for. -/
def purpose : Topic → String
  | tool => "Command-line interface for the KLM photonic compiler"
  | command action => action.purpose
  | help => "Print this message or the help of the given subcommand(s)"

/-- How a topic is called. -/
def usage : Topic → String
  | tool => toolName ++ " [OPTIONS] <COMMAND>"
  | command action => toolName ++ " " ++ action.name ++ " [OPTIONS]"
  | help => toolName ++ " help [COMMAND]..."

/-- The rows of the commands. -/
def commandRows : List HelpRow :=
  (Subcommand.all.map fun action => ⟨action.name, action.purpose⟩) ++ [⟨"help", help.purpose⟩]

/-- What can be given with a topic. -/
def tables : Topic → String
  | tool =>
      helpTable "Commands" commandRows ++ helpTable "Options" [.verbose, .help, .version]
  | command action => helpTable "Options" action.optionRows
  | help => helpTable "Arguments" [⟨"[COMMAND]...", "Print help for the subcommand(s)"⟩]

/-- The help text of a topic. -/
def text (t : Topic) : String := t.purpose ++ "\n\nUsage: " ++ t.usage ++ "\n" ++ t.tables

end Topic

end DualRail.Command
