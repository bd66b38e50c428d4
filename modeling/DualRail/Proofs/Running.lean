/-
  Runs of the command to compile.

  A run needs a configuration, a circuit that its name stands for, a device that accepts
  the circuit or need not, and a place for the output file (`Command.Ready`).  If one of
  them is missing, the run ends with an error before anything is written, and the file
  tree is the one that it started with.  If all are there, the run succeeds, and all that
  it leaves behind is the text of the translated circuit in the output file
  (`Command.run_all_or_nothing`).
-/
import DualRail.Command.Run
import DualRail.Proofs.Configuration
import DualRail.Proofs.Pipeline
import DualRail.Proofs.Storage
import DualRail.Proofs.Writing

set_option autoImplicit false

namespace DualRail

open Files (FileTree Path Place Script)

/-! ## Compiling to a file -/

section Storing

variable {t : FileTree} {path : String}

theorem Sink.file_of_creates {place : Place} (h : t.Creates path place) (text : String) :
    ((Sink.file path text).runOn t).1.outcome = .ok () ∧
      ((Sink.file path text).runOn t).2 = t.put place (.text text) := by
  have hwrite : t.writeText path text = .ok (t.put place (.text text)) :=
    FileTree.writeText_eq_ok_iff.mpr ⟨place, h, rfl⟩
  rw [Sink.file, Script.runOn_bind, Script.runOn_write, hwrite]
  exact ⟨rfl, rfl⟩

theorem Sink.file_of_not_creates (h : ∀ place : Place, ¬ t.Creates path place) (text : String) :
    (∃ e : CompileError, ((Sink.file path text).runOn t).1.outcome = .error e) ∧
      ((Sink.file path text).runOn t).2 = t := by
  rw [Sink.file, Script.runOn_bind, Script.runOn_write]
  cases hwrite : t.writeText path text with
  | error e => exact ⟨⟨_, rfl⟩, rfl⟩
  | ok t' =>
      obtain ⟨place, hplace, _⟩ := FileTree.writeText_eq_ok_iff.mp hwrite
      exact absurd hplace (h place)

namespace Compiler

variable {δ : Type} [Hardware δ] {k : Compiler} {source : Source} {d : δ}

/-- A program that is compiled is stored where the path leads to. -/
theorem compileTo_file_of_ok {place : Place} {p : Program}
    (hcompile : (k.compile source d).outcome = .ok p) (h : t.Creates path place) :
    ((k.compileTo source d (Sink.file path)).runOn t).1.outcome = .ok p ∧
      ((k.compileTo source d (Sink.file path)).runOn t).2 = t.put place (.text p.render) := by
  obtain ⟨houtcome, htree⟩ := Sink.file_of_creates h p.render
  unfold compileTo deliver
  rw [Script.runOn_bind, hcompile]
  dsimp only
  rw [Script.runOn_bind, htree]
  refine ⟨?_, rfl⟩
  change ((Sink.file path p.render).runOn t).1.outcome.map _ = _
  rw [houtcome]
  rfl

/-- Without a program, or without a place for it, nothing is stored. -/
theorem compileTo_file_of_not
    (h : ∀ (p : Program) (place : Place), (k.compile source d).outcome = .ok p →
      ¬ t.Creates path place) :
    (∃ e : CompileError,
        ((k.compileTo source d (Sink.file path)).runOn t).1.outcome = .error e) ∧
      ((k.compileTo source d (Sink.file path)).runOn t).2 = t := by
  unfold compileTo deliver
  rw [Script.runOn_bind]
  cases hcompile : (k.compile source d).outcome with
  | error e => exact ⟨⟨e, rfl⟩, rfl⟩
  | ok p =>
      obtain ⟨⟨e, houtcome⟩, htree⟩ :=
        Sink.file_of_not_creates (fun place => h p place hcompile) p.render
      dsimp only
      rw [Script.runOn_bind, htree]
      refine ⟨⟨e, ?_⟩, rfl⟩
      change ((Sink.file path p.render).runOn t).1.outcome.map _ = _
      rw [houtcome]
      rfl

end Compiler

end Storing

/-! ## Circuits by name -/

namespace Source

theorem readCircuit_eq_ok_iff {path : String} {content : Except Files.FileError String}
    {c : Circuit} :
    (readCircuit path content).outcome = .ok c ↔
      ∃ text : String,
        content = .ok text ∧ Circuit.ofJsonText text = .ok c ∧ c.verify = .ok () := by
  simp only [readCircuit, Traced.outcome_bind, Traced.outcome_ofExcept, Traced.outcome_emit,
    Traced.outcome_pure, bind_eq_ok_iff, mapError_eq_ok_iff]
  constructor
  · rintro ⟨text, htext, c', hc, u, hverify, _, _, hreturn⟩
    cases hreturn
    exact ⟨text, htext, hc, hverify⟩
  · rintro ⟨text, htext, hc, hverify⟩
    exact ⟨text, htext, c, hc, (), hverify, (), trivial, rfl⟩

end Source

namespace Command

/-- A name stands for a circuit: it is that of a builtin circuit, or the path of a JSON file
with a circuit in it that is verified. -/
inductive Names (t : FileTree) (name : String) : Circuit → Prop
  | builtin {b : Builtin} {c : Circuit}
      (extension : (Path.ofString name).hasExtension "json" = false)
      (known : Builtin.ofName name = .ok b) (built : b.circuit = .ok c) : Names t name c
  | file {text : String} {c : Circuit}
      (extension : (Path.ofString name).hasExtension "json" = true)
      (content : t.readText name = .ok text) (read : Circuit.ofJsonText text = .ok c)
      (verified : c.verify = .ok ()) : Names t name c

section Names

variable {t : FileTree} {name : String} {c : Circuit}

theorem names_iff_of_json (h : (Path.ofString name).hasExtension "json" = true) :
    Names t name c ↔ (Source.readCircuit name (t.readText name)).outcome = .ok c := by
  rw [Source.readCircuit_eq_ok_iff]
  constructor
  · rintro (⟨hother, _, _⟩ | ⟨_, content, read, verified⟩)
    · rw [h] at hother
      cases hother
    · exact ⟨_, content, read, verified⟩
  · rintro ⟨text, content, read, verified⟩
    exact .file h content read verified

theorem names_iff_of_not_json (h : (Path.ofString name).hasExtension "json" = false) :
    Names t name c ↔ ∃ b : Builtin, Builtin.ofName name = .ok b ∧
      (Source.builtin b).circuit.outcome = .ok c := by
  simp only [Source.builtin, Traced.outcome_ofExcept, mapError_eq_ok_iff]
  constructor
  · rintro (⟨_, known, built⟩ | ⟨hother, _, _, _⟩)
    · exact ⟨_, known, built⟩
    · rw [h] at hother
      cases hother
  · rintro ⟨b, known, built⟩
    exact .builtin h known built

end Names

/-- A name is resolved without changing a file, and to a source of the circuit that it stands
for. -/
theorem resolve_runOn (t : FileTree) (name : String) :
    ((resolve name).runOn t).2 = t ∧
      ∀ c : Circuit, (∃ source : Source, ((resolve name).runOn t).1 = .ok source ∧
        source.circuit.outcome = .ok c) ↔ Names t name c := by
  unfold resolve
  cases hjson : (Path.ofString name).hasExtension "json" with
  | true =>
      rw [if_pos rfl, Script.runOn_bind, Script.runOn_ask]
      cases hexists : t.pathExists name with
      | true =>
          refine ⟨rfl, fun c => ?_⟩
          rw [names_iff_of_json hjson]
          constructor
          · rintro ⟨source, hsource, hc⟩
            cases hsource
            exact hc
          · intro hc
            exact ⟨_, rfl, hc⟩
      | false =>
          refine ⟨rfl, fun c => ?_⟩
          rw [names_iff_of_json hjson]
          constructor
          · rintro ⟨source, hsource, _⟩
            cases hsource
          · intro hc
            -- A file that can be read is there.
            obtain ⟨text, hcontent, _⟩ := Source.readCircuit_eq_ok_iff.mp hc
            rw [FileTree.pathExists_of_readText hcontent] at hexists
            cases hexists
  | false =>
      rw [if_neg Bool.false_ne_true]
      cases hname : Builtin.ofName name with
      | error reason =>
          refine ⟨rfl, fun c => ?_⟩
          rw [names_iff_of_not_json hjson, hname]
          constructor
          · rintro ⟨source, hsource, _⟩
            cases hsource
          · rintro ⟨b, hb, _⟩
            cases hb
      | ok b =>
          refine ⟨rfl, fun c => ?_⟩
          rw [names_iff_of_not_json hjson, hname]
          constructor
          · rintro ⟨source, hsource, hc⟩
            cases hsource
            exact ⟨b, rfl, hc⟩
          · rintro ⟨b', hb, hc⟩
            cases hb
            exact ⟨_, rfl, hc⟩

theorem load_runOn (t : FileTree) (name : String) :
    ((load name).runOn t).2 = t ∧
      ∀ c : Circuit, ((load name).runOn t).1.outcome = .ok c ↔ Names t name c := by
  obtain ⟨htree, hsource⟩ := resolve_runOn t name
  rw [load, Script.runOn_bind, htree]
  cases hresolve : ((resolve name).runOn t).1 with
  | error e =>
      refine ⟨rfl, fun c => ?_⟩
      rw [← hsource]
      refine ⟨nofun, ?_⟩
      rintro ⟨source, hsource, _⟩
      rw [hresolve] at hsource
      cases hsource
  | ok source =>
      refine ⟨rfl, fun c => ?_⟩
      rw [← hsource]
      change (source.circuit.mapError (LoadError.failed name)).outcome = .ok c ↔ _
      rw [Traced.outcome_mapError, mapError_eq_ok_iff, hresolve]
      constructor
      · intro hc
        exact ⟨source, rfl, hc⟩
      · rintro ⟨other, hother, hc⟩
        cases hother
        exact hc

/-! ## The command to compile -/

/-- The device of the configured size, or of the size of the circuit, accepts the circuit, or
what it refuses is only reported. -/
def Accepted (c : Config) (circuit : Circuit) : Prop :=
  ((Device.mk (c.qubits.getD circuit.size)).check circuit).outcome = .ok () ∨ c.strict = false

theorem compile_eq_ok_iff {c : Config} {circuit : Circuit} {p : Program} :
    ((compilerOf c).compile (.ofCircuit circuit) (deviceOf c circuit)).outcome = .ok p ↔
      Accepted c circuit ∧ ((Compiler.new c.protocol).lowerCircuit circuit).outcome = .ok p := by
  have hpolicy : (compilerOf c).policy = .report ↔ c.strict = false := by
    change (if c.strict = true then Policy.enforce else .report) = .report ↔ _
    cases c.strict with
    | false => simp
    | true => simp
  have hlower : ((compilerOf c).lowerCircuit circuit).outcome =
      ((Compiler.new c.protocol).lowerCircuit circuit).outcome := by
    rw [Compiler.lowerCircuit_outcome, Compiler.lowerCircuit_outcome]
  rw [Compiler.compile_eq_ok_iff, ← hlower]
  constructor
  · rintro ⟨_, _, lowered, given, admitted, passed, translated, finished⟩
    -- Without passes, what is lowered is the circuit itself, and its program is the result.
    cases given
    cases passed
    cases finished
    exact ⟨admitted.imp_right hpolicy.mp, translated⟩
  · rintro ⟨accepted, translated⟩
    exact ⟨circuit, circuit, p, rfl, accepted.imp_right hpolicy.mpr, .nil _, translated, .nil _⟩

/-- What a configuration needs to be carried out. -/
structure Ready (t : FileTree) (c : Config) (circuit : Circuit) (place : Place) : Prop where
  names : Names t c.circuit circuit
  accepted : Accepted c circuit
  creates : t.Creates c.output place

/-- A run that succeeds stores the program of the circuit and prints it if asked to. -/
theorem compile_of_ready {t : FileTree} {c : Config} {circuit : Circuit} {place : Place}
    (h : Ready t c circuit place) (print : Bool) :
    ∃ program : Program, ((Compiler.new c.protocol).lowerCircuit circuit).outcome = .ok program ∧
      ((compile c print).runOn t).1.error = none ∧
      ((compile c print).runOn t).2 = t.put place (.text program.render) ∧
      (print = true → ∃ shown : String,
        ((compile c print).runOn t).1.printed = shown ++ program.render) := by
  obtain ⟨htree, hnames⟩ := load_runOn t c.circuit
  have hload := (hnames circuit).mpr h.names
  refine ⟨_, Compiler.lowerCircuit_outcome _ circuit, ?_⟩
  have hcompile := compile_eq_ok_iff.mpr ⟨h.accepted, Compiler.lowerCircuit_outcome _ circuit⟩
  obtain ⟨houtcome, hstored⟩ := Compiler.compileTo_file_of_ok hcompile h.creates
  rw [compile, Script.runOn_bind, hload, htree]
  dsimp only
  rw [Script.runOn_bind, compileCircuit, houtcome, hstored]
  refine ⟨rfl, rfl, ?_⟩
  rintro rfl
  exact ⟨startText c ++ loadedText circuit ++ doneText c.output _ ++ "\n",
    String.append_assoc.symm⟩

/-- A run that cannot succeed ends with an error and changes no file. -/
theorem compile_of_not_ready {t : FileTree} {c : Config}
    (h : ∀ (circuit : Circuit) (place : Place), ¬ Ready t c circuit place) (print : Bool) :
    (∃ e : String, ((compile c print).runOn t).1.error = some e) ∧
      ((compile c print).runOn t).2 = t := by
  obtain ⟨htree, hnames⟩ := load_runOn t c.circuit
  rw [compile, Script.runOn_bind, htree]
  cases hload : ((load c.circuit).runOn t).1.outcome with
  | error e => exact ⟨⟨_, rfl⟩, rfl⟩
  | ok circuit =>
      -- The circuit is there, so it is the device or the output file that stops the run.
      have hfails : ∀ (p : Program) (place : Place),
          ((compilerOf c).compile (.ofCircuit circuit) (deviceOf c circuit)).outcome = .ok p →
            ¬ t.Creates c.output place := by
        intro p place hcompile hcreates
        obtain ⟨haccepted, _⟩ := compile_eq_ok_iff.mp hcompile
        exact h circuit place ⟨(hnames circuit).mp hload, haccepted, hcreates⟩
      obtain ⟨⟨e, houtcome⟩, hsame⟩ := Compiler.compileTo_file_of_not hfails
      dsimp only
      rw [Script.runOn_bind, compileCircuit, houtcome, hsame]
      exact ⟨⟨_, rfl⟩, rfl⟩

/-! ## Whole runs -/

namespace Report

theorem outcome_of_none {r : Report} (h : r.error = none) (limit : Level) :
    (r.outcome limit).exit = 0 ∧ (r.outcome limit).stdout = r.printed := by
  rw [outcome, h]
  exact ⟨rfl, rfl⟩

theorem exit_outcome_of_some {r : Report} {e : String} (h : r.error = some e) (limit : Level) :
    (r.outcome limit).exit = 1 := by
  rw [outcome, h]

end Report

/-- The configuration of a run: what the file and the environment ask for, with what the
command line gives. -/
def Configured (t : FileTree) (env : Environment) (g : Given) (c : Config) : Prop :=
  ∃ layered : Config, Config.Layered t g.config env layered ∧ layered.overlaid g.overrides = c ∧
    c.Valid

section Runs

variable {t : FileTree} {env : Environment} {args : List String} {g : Given}

theorem configured_iff {c : Config} :
    (((Config.load g.config env).runOn t).1.bind fun c => c.withOverrides g.overrides) = .ok c ↔
      Configured t env g c := by
  obtain ⟨_, hload⟩ := Config.load_runOn t g.config env
  rw [bind_eq_ok_iff]
  constructor
  · rintro ⟨layered, hlayered, hoverrides⟩
    obtain ⟨rfl, hvalid⟩ := Config.withOverrides_eq_ok_iff.mp hoverrides
    exact ⟨layered, (hload layered).mp hlayered, rfl, hvalid⟩
  · rintro ⟨layered, hlayered, rfl, hvalid⟩
    exact ⟨layered, (hload layered).mpr hlayered, Config.withOverrides_eq_ok_iff.mpr ⟨rfl, hvalid⟩⟩

variable (hargs : parse args = .ok (.run .compile g))

include hargs

/-- A run with a configuration carries out the command with it. -/
theorem run_of_configured {c : Config} (h : Configured t env g c) :
    ∃ limit : Level, (run args env).runOn t =
      (((compile c g.print).runOn t).1.outcome limit, ((compile c g.print).runOn t).2) := by
  obtain ⟨htree, _⟩ := Config.load_runOn t g.config env
  have hconfig := configured_iff.mpr h
  rw [run, hargs]
  dsimp only
  rw [Script.runOn_bind, Script.runOn_bind, htree, carryOut, hconfig]
  exact ⟨_, rfl⟩

theorem run_of_not_configured (h : ∀ c : Config, ¬ Configured t env g c) :
    ((run args env).runOn t).1.exit = 1 ∧ ((run args env).runOn t).2 = t := by
  obtain ⟨htree, _⟩ := Config.load_runOn t g.config env
  rw [run, hargs]
  dsimp only
  rw [Script.runOn_bind, Script.runOn_bind, htree, carryOut]
  cases hconfig : ((Config.load g.config env).runOn t).1.bind fun c =>
      c.withOverrides g.overrides with
  | error e => exact ⟨rfl, rfl⟩
  | ok c => exact absurd (configured_iff.mp hconfig) (h c)

theorem run_of_ready {c : Config} {circuit : Circuit} {place : Place}
    (hconfig : Configured t env g c) (hready : Ready t c circuit place) :
    ∃ program : Program, ((Compiler.new c.protocol).lowerCircuit circuit).outcome = .ok program ∧
      ((run args env).runOn t).1.exit = 0 ∧
      ((run args env).runOn t).2 = t.put place (.text program.render) ∧
      (g.print = true → ∃ shown : String,
        ((run args env).runOn t).1.stdout = shown ++ program.render) := by
  obtain ⟨limit, hrun⟩ := run_of_configured hargs hconfig
  obtain ⟨program, hprogram, herror, htree, hprinted⟩ := compile_of_ready hready g.print
  obtain ⟨hexit, hstdout⟩ := Report.outcome_of_none herror limit
  rw [hrun, hexit, hstdout]
  exact ⟨program, hprogram, rfl, htree, hprinted⟩

theorem run_of_not_ready
    (h : ∀ (c : Config) (circuit : Circuit) (place : Place), Configured t env g c →
      ¬ Ready t c circuit place) :
    ((run args env).runOn t).1.exit = 1 ∧ ((run args env).runOn t).2 = t := by
  by_cases hconfig : ∃ c : Config, Configured t env g c
  · obtain ⟨c, hc⟩ := hconfig
    obtain ⟨limit, hrun⟩ := run_of_configured hargs hc
    obtain ⟨⟨e, herror⟩, htree⟩ :=
      compile_of_not_ready (fun circuit place => h c circuit place hc) g.print
    rw [hrun]
    exact ⟨Report.exit_outcome_of_some herror limit, htree⟩
  · exact run_of_not_configured hargs (not_exists.mp hconfig)

end Runs

/-- A run of the command to compile succeeds exactly if there is a valid configuration, its
circuit is found, the device accepts the circuit or need not, and the output file can be
created.  Then the output file holds the text of the program, no other place of the file tree
has changed, and what is printed ends with the same text if that was asked for.  Otherwise the
run exits with one and the file tree is as before. -/
theorem run_all_or_nothing {t after : FileTree} {env : Environment} {args : List String}
    {g : Given} {outcome : Outcome} (hargs : parse args = .ok (.run .compile g))
    (hrun : (run args env).runOn t = (outcome, after)) :
    (outcome.exit = 0 ↔ ∃ (c : Config) (circuit : Circuit) (place : Place),
      Configured t env g c ∧ Ready t c circuit place) ∧
    (∀ (c : Config) (circuit : Circuit) (place : Place),
      Configured t env g c → Ready t c circuit place →
        ∃ program : Program,
          ((Compiler.new c.protocol).lowerCircuit circuit).outcome = .ok program ∧
          after.get? place = some (.text program.render) ∧
          after.readText c.output = .ok program.render ∧
          (∀ other : Place, other ≠ place → after.get? other = t.get? other) ∧
          (g.print = true → ∃ shown : String, outcome.stdout = shown ++ program.render)) ∧
    (outcome.exit ≠ 0 → outcome.exit = 1 ∧ after = t) := by
  obtain ⟨rfl, rfl⟩ : ((run args env).runOn t).1 = outcome ∧
      ((run args env).runOn t).2 = after := by
    rw [hrun]
    exact ⟨rfl, rfl⟩
  have hfails : (¬ ∃ (c : Config) (circuit : Circuit) (place : Place),
      Configured t env g c ∧ Ready t c circuit place) →
        ((run args env).runOn t).1.exit = 1 ∧ ((run args env).runOn t).2 = t := by
    intro hnot
    refine run_of_not_ready hargs ?_
    intro c circuit place hconfig hready
    exact hnot ⟨c, circuit, place, hconfig, hready⟩
  have hsucceeds : ∀ (c : Config) (circuit : Circuit) (place : Place),
      Configured t env g c → Ready t c circuit place → ((run args env).runOn t).1.exit = 0 := by
    intro c circuit place hconfig hready
    obtain ⟨_, _, hexit, _⟩ := run_of_ready hargs hconfig hready
    exact hexit
  refine ⟨⟨?_, ?_⟩, ?_, ?_⟩
  · intro hexit
    by_contra hnot
    rw [(hfails hnot).1] at hexit
    cases hexit
  · rintro ⟨c, circuit, place, hconfig, hready⟩
    exact hsucceeds c circuit place hconfig hready
  · intro c circuit place hconfig hready
    obtain ⟨program, hprogram, _, htree, hprinted⟩ := run_of_ready hargs hconfig hready
    rw [htree]
    refine ⟨program, hprogram, FileTree.get?_put_self t place _,
      hready.creates.readText_put program.render, ?_, hprinted⟩
    intro other hother
    exact FileTree.get?_put_of_ne t _ hother
  · intro hexit
    apply hfails
    rintro ⟨c, circuit, place, hconfig, hready⟩
    exact hexit (hsucceeds c circuit place hconfig hready)

/-- A circuit that the device accepts and a configuration file that names another one. -/
def settingsTree : FileTree :=
  Compiler.localCircuit.storedIn.add "klm.yaml" (.text "circuit: missing\nstrict: true\n")

/-- An environment that names the circuit that is there. -/
def circuitEnvironment : Environment := fun name =>
  if name = "KLMC_CIRCUIT" then some "c.json" else none

/-- Arguments that name the configuration file and an output file. -/
def printingArgs (output : String) : List String :=
  ["compile", "--config", "klm.yaml", "--print", "--output", output]

/-- What these arguments give. -/
def printingGiven (output : String) : Given :=
  { Given.nothing with config := some "klm.yaml", output := some output, print := true }

/-- The configuration of a run with all of them. -/
def printingConfig : Config := ⟨"c.json", none, "out.qa", .klm, true, Level.name .warn⟩

theorem configured_settingsTree :
    Configured settingsTree circuitEnvironment (printingGiven "out.qa") printingConfig := by
  have hcontent : settingsTree.readText "klm.yaml" = .ok "circuit: missing\nstrict: true\n" := by
    with_unfolding_all rfl
  have hsettings : Config.ofText "circuit: missing\nstrict: true\n" =
      .ok ⟨"missing", none, Sink.defaultPath, .klm, true, Level.name .warn⟩ := by
    with_unfolding_all rfl
  have hcircuit : "c.json" ≠ "" := by decide
  have hvalid : ∀ output : String, output ≠ "" →
      Config.Valid ⟨"c.json", none, output, .klm, true, Level.name .warn⟩ := by
    intro output houtput
    exact ⟨nofun, houtput, hcircuit, .warn, rfl⟩
  exact ⟨_, ⟨_, .file hcontent hsettings, rfl, hvalid _ (by decide)⟩, rfl, hvalid _ (by decide)⟩

theorem ready_settingsTree :
    Ready settingsTree printingConfig Compiler.localCircuit ["work", "out.qa"] where
  names := by
    have hcontent : settingsTree.readText "c.json" = .ok Compiler.localCircuit.jsonText := by
      with_unfolding_all rfl
    have hextension : (Path.ofString "c.json").hasExtension "json" = true := by
      with_unfolding_all rfl
    exact .file hextension hcontent Compiler.localCircuit.ofJsonText_jsonText rfl
  accepted := .inl rfl
  creates := by
    have htarget : settingsTree.target "out.qa" = .ok ["work", "out.qa"] := by
      with_unfolding_all rfl
    exact ⟨htarget, nofun⟩

theorem not_ready_fullDevice {c : Config} {circuit : Circuit} {place : Place}
    (h : Configured settingsTree circuitEnvironment (printingGiven "/dev/full") c) :
    ¬ Ready settingsTree c circuit place := by
  rintro ⟨_, _, hleads, hfree⟩
  obtain ⟨layered, _, rfl, _⟩ := h
  have htarget : settingsTree.target "/dev/full" = .ok ["dev", "full"] := by
    with_unfolding_all rfl
  cases htarget.symm.trans hleads
  cases hfree .fullDevice rfl

/-- Each of the three sources of settings counts here.  With a full device in the place of the
output file, the same run leaves everything as it was. -/
theorem run_all_or_nothing_settingsTree :
    parse (printingArgs "out.qa") = .ok (.run .compile (printingGiven "out.qa")) ∧
      parse (printingArgs "/dev/full") = .ok (.run .compile (printingGiven "/dev/full")) ∧
      (∃ (outcome : Outcome) (after : FileTree) (program : Program) (shown : String),
        (run (printingArgs "out.qa") circuitEnvironment).runOn settingsTree = (outcome, after) ∧
          outcome.exit = 0 ∧ outcome.stdout = shown ++ program.render ∧
          after.readText "out.qa" = .ok program.render ∧ program.componentCount = 7) ∧
      ∃ outcome : Outcome,
        (run (printingArgs "/dev/full") circuitEnvironment).runOn settingsTree =
            (outcome, settingsTree) ∧ outcome.exit = 1 := by
  have hargs : parse (printingArgs "out.qa") = .ok (.run .compile (printingGiven "out.qa")) := rfl
  have hargsFull : parse (printingArgs "/dev/full") =
      .ok (.run .compile (printingGiven "/dev/full")) := rfl
  refine ⟨hargs, hargsFull, ?_, ?_⟩
  · rcases hrun : (run (printingArgs "out.qa") circuitEnvironment).runOn settingsTree with
      ⟨outcome, after⟩
    obtain ⟨hexit, hstored, _⟩ := run_all_or_nothing hargs hrun
    obtain ⟨program, hprogram, _, hread, _, hshown⟩ :=
      hstored _ _ _ configured_settingsTree ready_settingsTree
    obtain ⟨shown, hstdout⟩ := hshown rfl
    have hzero := hexit.mpr ⟨_, _, _, configured_settingsTree, ready_settingsTree⟩
    rw [Compiler.lowerCircuit_outcome] at hprogram
    cases hprogram
    exact ⟨outcome, after, _, shown, rfl, hzero, hstdout, hread, rfl⟩
  · rcases hrun : (run (printingArgs "/dev/full") circuitEnvironment).runOn settingsTree with
      ⟨outcome, after⟩
    obtain ⟨hexit, _, hsame⟩ := run_all_or_nothing hargsFull hrun
    have hne : outcome.exit ≠ 0 := by
      intro hzero
      obtain ⟨_, _, _, hconfig, hready⟩ := hexit.mp hzero
      exact not_ready_fullDevice hconfig hready
    obtain ⟨hone, rfl⟩ := hsame hne
    exact ⟨outcome, rfl, hone⟩

end Command

end DualRail
