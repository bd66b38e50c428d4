/-
  Configuration files.

  A configuration file is a YAML mapping from the names of settings to their
  values, in any order.  No setting may be given twice, and no other key may be
  there.
-/
import DualRail.Settings.Config
import DualRail.Yaml.Decode

set_option autoImplicit false

namespace DualRail.Config

open Files (FileError Script)

/-- The names of the settings. -/
def settingNames : List String :=
  ["circuit", "qubits", "output", "protocol", "strict", "log_level"]

/-- The settings that were read so far. -/
structure Draft where
  circuit : Option String
  qubits : Option (Option UInt32)
  output : Option String
  protocol : Option Protocol
  strict : Option Bool
  logLevel : Option String
deriving DecidableEq, Repr, Inhabited

namespace Draft

/-- No settings. -/
def empty : Draft := ⟨none, none, none, none, none, none⟩

/-- The configuration with these settings, and the default of all others. -/
def complete (d : Draft) : Config :=
  { circuit := d.circuit.getD Config.default.circuit
    qubits := d.qubits.getD Config.default.qubits
    output := d.output.getD Config.default.output
    protocol := d.protocol.getD Config.default.protocol
    strict := d.strict.getD Config.default.strict
    logLevel := d.logLevel.getD Config.default.logLevel }

/-- Read the value of a setting, unless it was read before or is missing. -/
def take {α : Type} (name : String) (before : Option α) (value : Option Yaml.Node)
    (decode : Yaml.Node → Except Fault α) : Except Fault α :=
  match before, value with
  | some _, _ => .error (.duplicateField name)
  | none, none => .error .malformed
  | none, some n => decode n

/-- Add the setting with the key `key`.  `path` is how faults of its value name
it. -/
def addSetting (d : Draft) (key path : String) (value : Option Yaml.Node) : Except Fault Draft :=
  let text (expected : String) := Yaml.decodeSetting path (Yaml.decodeText expected)
  if key = "circuit" then
    (take key d.circuit value (text "a string")).map fun v => { d with circuit := some v }
  else if key = "qubits" then
    (take key d.qubits value (Yaml.decodeOptional path Yaml.decodeUInt32)).map fun v =>
      { d with qubits := some v }
  else if key = "output" then
    (take key d.output value (text "path string")).map fun v => { d with output := some v }
  else if key = "protocol" then
    (take key d.protocol value
      (Yaml.decodeSymbol path (Protocol.all.map Protocol.name) Protocol.ofName?)).map fun v =>
        { d with protocol := some v }
  else if key = "strict" then
    (take key d.strict value (Yaml.decodeSetting path Yaml.decodeBool)).map fun v =>
      { d with strict := some v }
  else if key = "log_level" then
    (take key d.logLevel value (text "a string")).map fun v => { d with logLevel := some v }
  else .error (.unknownField key settingNames)

/-- Add an entry. -/
def addEntry (d : Draft) (e : Yaml.Entry) : Except Fault Draft := do
  let key ← Yaml.decodeText "field identifier" e.key
  d.addSetting key (if e.keyAliased then "?" else key) e.value

/-- Add entries, the first of them first. -/
def addEntries (d : Draft) : List Yaml.Entry → Except Fault Draft
  | [] => .ok d
  | e :: rest => do
      let d ← d.addEntry e
      d.addEntries rest

end Draft

/-- Refuse a document that breaks the rules after its data. -/
def checkWhole {α : Type} (whole : Bool) (a : α) : Except Fault α :=
  if whole then .ok a else .error .malformed

/-- The configuration of a document.  An empty one leaves everything as it is. -/
def ofDocument : Yaml.Document → Except Fault Config
  | .missing => .ok default
  | .broken => .error .malformed
  | .single n whole =>
      match n with
      | .scalar s =>
          if s.text = "" ∧ s.style = .plain then checkWhole whole default
          else .error (n.fault "struct Config")
      | _ => .error (n.fault "struct Config")
  | .mapping entries whole => do
      let d ← Draft.empty.addEntries entries
      checkWhole whole d.complete

/-- The configuration of a text. -/
def ofText (text : String) : Except Fault Config := ofDocument (.ofText text)

/-- The configuration of a file with this content. -/
def ofFile (path : String) (content : Except FileError String) : Except ConfigError Config :=
  match content with
  | .error e => .error (.file path e)
  | .ok text => (ofText text).mapError .parse

/-- Read a configuration file, if there is one. -/
def readFile : Option String → Script (Except ConfigError Config)
  | none => return .ok default
  | some path => do
      let content ← Script.read path
      return ofFile path content

/-- The configuration of a file, if there is one, and of the environment. -/
def load (path : Option String) (env : Environment) : Script (Except ConfigError Config) := do
  let config ← readFile path
  return do
    let c ← config
    (c.withEnvironment env).check

end DualRail.Config
