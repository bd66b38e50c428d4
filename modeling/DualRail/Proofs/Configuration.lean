/-
  Where the configuration of a run comes from.

  A configuration is valid if it names a circuit and an output file, asks for no empty
  device and for a level of the log that exists; these are the configurations that pass
  the check (`Config.check_eq_ok_iff`).  The settings of the file come first
  (`Config.FromFile`), the environment may replace them, and the command line what it
  gives (`Config.overlaid`).  What is checked is the configuration without the command
  line, and then the configuration with it.
-/
import DualRail.Proofs.Soundness
import DualRail.Settings.File

set_option autoImplicit false

namespace DualRail.Config

open Files (FileTree)

/-! ## Valid configurations -/

/-- A configuration that a run can work with. -/
structure Valid (c : Config) : Prop where
  qubits : c.qubits ≠ some 0
  output : c.output ≠ ""
  circuit : c.circuit ≠ ""
  logLevel : ∃ level : Level, c.logLevel = level.name

theorem not_ofName?_isNone_iff {text : String} :
    ¬ (Level.ofName? text).isNone = true ↔ ∃ level : Level, text = level.name := by
  rw [Option.isNone_iff_eq_none, ← Ne, Option.ne_none_iff_exists']
  constructor
  · rintro ⟨level, hlevel⟩
    have hname := List.find?_some hlevel
    exact ⟨level, (eq_of_beq hname).symm⟩
  · rintro ⟨level, rfl⟩
    exact ⟨level, level.ofName?_name⟩

theorem problem?_eq_none_iff {c : Config} : c.problem? = none ↔ c.Valid := by
  unfold problem?
  constructor
  · intro h
    split at h
    · cases h
    · split at h
      · cases h
      · split at h
        · cases h
        · split at h
          · cases h
          · rename_i hqubits houtput hcircuit hname
            exact ⟨hqubits, houtput, hcircuit, not_ofName?_isNone_iff.mp hname⟩
  · rintro ⟨hqubits, houtput, hcircuit, hname⟩
    rw [if_neg hqubits, if_neg houtput, if_neg hcircuit,
      if_neg (not_ofName?_isNone_iff.mpr hname)]

/-- The check lets valid configurations pass, and no others. -/
theorem check_eq_ok_iff {c c' : Config} : c.check = .ok c' ↔ c = c' ∧ c.Valid := by
  rw [← problem?_eq_none_iff, check]
  cases c.problem? with
  | none => simp
  | some problem => simp

/-! ## The sources of settings -/

/-- The settings of a file, or those that hold without a file. -/
inductive FromFile (t : FileTree) : Option String → Config → Prop
  | none : FromFile t none .default
  | file {path text : String} {c : Config} (content : t.readText path = .ok text)
      (settings : ofText text = .ok c) : FromFile t (some path) c

/-- The configuration with what the command line gives. -/
def overlaid (c : Config) (o : Overrides) : Config :=
  { c with
    circuit := o.circuit.getD c.circuit
    qubits := o.qubits.or c.qubits
    output := o.output.getD c.output
    protocol := o.protocol.getD c.protocol
    strict := c.strict || o.strict }

theorem withOverrides_eq_ok_iff {c c' : Config} {o : Overrides} :
    c.withOverrides o = .ok c' ↔ c.overlaid o = c' ∧ (c.overlaid o).Valid :=
  check_eq_ok_iff

/-- A configuration is read from a file without changing one, and it is the one that the
file gives. -/
theorem readFile_runOn (t : FileTree) (path : Option String) :
    ((readFile path).runOn t).2 = t ∧
      ∀ c : Config, ((readFile path).runOn t).1 = .ok c ↔ FromFile t path c := by
  cases path with
  | none =>
      refine ⟨rfl, fun c => ?_⟩
      constructor
      · intro h
        cases h
        exact .none
      · rintro ⟨⟩
        rfl
  | some path =>
      rw [readFile, Files.Script.runOn_bind, Files.Script.runOn_read]
      refine ⟨rfl, fun c => ?_⟩
      change ofFile path (t.readText path) = .ok c ↔ _
      cases hcontent : t.readText path with
      | error e =>
          refine ⟨nofun, ?_⟩
          rintro (_ | ⟨content, _⟩)
          rw [hcontent] at content
          cases content
      | ok text =>
          rw [ofFile, mapError_eq_ok_iff]
          constructor
          · exact .file hcontent
          · rintro (_ | ⟨content, settings⟩)
            rw [hcontent] at content
            cases content
            exact settings

/-- What the file and the environment ask for, if it is valid. -/
def Layered (t : FileTree) (path : Option String) (env : Environment) (c : Config) : Prop :=
  ∃ base : Config, FromFile t path base ∧ base.withEnvironment env = c ∧ c.Valid

theorem load_runOn (t : FileTree) (path : Option String) (env : Environment) :
    ((load path env).runOn t).2 = t ∧
      ∀ c : Config, ((load path env).runOn t).1 = .ok c ↔ Layered t path env c := by
  obtain ⟨htree, hfile⟩ := readFile_runOn t path
  rw [load, Files.Script.runOn_bind, htree]
  refine ⟨rfl, fun c => ?_⟩
  refine bind_eq_ok_iff.trans ?_
  constructor
  · rintro ⟨base, hbase, hcheck⟩
    obtain ⟨rfl, hvalid⟩ := check_eq_ok_iff.mp hcheck
    exact ⟨base, (hfile base).mp hbase, rfl, hvalid⟩
  · rintro ⟨base, hbase, rfl, hvalid⟩
    exact ⟨base, (hfile base).mpr hbase, check_eq_ok_iff.mpr ⟨rfl, hvalid⟩⟩

end DualRail.Config
