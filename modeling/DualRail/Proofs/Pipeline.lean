/-
  The stages of a compilation.

  A circuit is taken from its source, shown to the device, changed by the circuit
  passes, lowered, and changed by the program passes.  `Compiler.Compiles` says that
  every stage succeeds on what the stage before it gave, `Compiler.Refuses` that one
  stage fails after those before it succeeded.  A compilation for a sink in memory is
  one or the other: the text of the program is added to the sink, or the sink stays as
  it was (`Compiler.storing_staged`).

  Passes that change nothing may stand anywhere among the others.
-/
import DualRail.Proofs.Conformance

set_option autoImplicit false

namespace DualRail

/-! ## Passes -/

namespace Pass

variable {α : Type}

/-- Every pass succeeds on what the pass before it gave. -/
inductive Chain : List (Pass α) → α → α → Prop
  | nil (a : α) : Chain [] a a
  | cons {p : Pass α} {rest : List (Pass α)} {a b c : α} (first : p.run a = .ok b)
      (more : Chain rest b c) : Chain (p :: rest) a c

/-- A pass fails, after all those before it succeeded. -/
def Stops (passes : List (Pass α)) (a : α) (e : CompileError) : Prop :=
  ∃ (before after : List (Pass α)) (p : Pass α) (b : α),
    passes = before ++ p :: after ∧ Chain before a b ∧ p.run b = .error e

/-- The second list is the first one with passes that change nothing put anywhere
into it. -/
inductive Padded : List (Pass α) → List (Pass α) → Prop
  | nil : Padded [] []
  | keep (p : Pass α) {passes padded : List (Pass α)} (more : Padded passes padded) :
      Padded (p :: passes) (p :: padded)
  | insert {passes padded : List (Pass α)} (more : Padded passes padded) :
      Padded passes (identity :: padded)

theorem chain_cons_iff {p : Pass α} {rest : List (Pass α)} {a c : α} :
    Chain (p :: rest) a c ↔ ∃ b : α, p.run a = .ok b ∧ Chain rest b c := by
  constructor
  · rintro (_ | ⟨first, more⟩)
    exact ⟨_, first, more⟩
  · rintro ⟨b, first, more⟩
    exact .cons first more

theorem stops_cons_iff {p : Pass α} {rest : List (Pass α)} {a : α} {e : CompileError} :
    Stops (p :: rest) a e ↔ p.run a = .error e ∨ ∃ b : α, p.run a = .ok b ∧ Stops rest b e := by
  constructor
  · rintro ⟨before, after, q, c, hsplit, hbefore, hq⟩
    cases hbefore with
    | nil =>
        cases hsplit
        exact .inl hq
    | cons first more =>
        cases hsplit
        exact .inr ⟨_, first, _, after, q, c, rfl, more, hq⟩
  · rintro (hp | ⟨b, hp, before, after, q, c, rfl, hbefore, hq⟩)
    · exact ⟨[], rest, p, a, rfl, .nil a, hp⟩
    · exact ⟨p :: before, after, q, c, rfl, .cons hp hbefore, hq⟩

theorem runAll_cons_outcome (stage : String) (p : Pass α) (rest : List (Pass α)) (a : α) :
    (runAll stage (p :: rest) a).outcome =
      (p.run a).bind fun b => (runAll stage rest b).outcome := by
  rw [runAll, Traced.outcome_bind, Traced.outcome_emit]
  exact Traced.outcome_bind _ _

theorem runAll_eq_ok_iff {stage : String} {passes : List (Pass α)} {a c : α} :
    (runAll stage passes a).outcome = .ok c ↔ Chain passes a c := by
  induction passes generalizing a with
  | nil =>
      rw [runAll, Traced.outcome_pure, Except.ok.injEq]
      constructor
      · rintro rfl
        exact .nil a
      · rintro ⟨⟩
        rfl
  | cons p rest ih =>
      rw [runAll_cons_outcome, bind_eq_ok_iff, chain_cons_iff]
      exact exists_congr fun b => and_congr_right fun _ => ih

theorem runAll_eq_error_iff {stage : String} {passes : List (Pass α)} {a : α}
    {e : CompileError} : (runAll stage passes a).outcome = .error e ↔ Stops passes a e := by
  induction passes generalizing a with
  | nil =>
      refine iff_of_false (by nofun) ?_
      rintro ⟨before, after, p, b, hsplit, _⟩
      cases before <;> cases hsplit
  | cons p rest ih =>
      rw [runAll_cons_outcome, bind_eq_error_iff, stops_cons_iff]
      exact or_congr_right (exists_congr fun b => and_congr_right fun _ => ih)

theorem Padded.runAll_outcome {passes padded : List (Pass α)} (h : Padded passes padded)
    (stage : String) (a : α) :
    (runAll stage padded a).outcome = (runAll stage passes a).outcome := by
  induction h generalizing a with
  | nil => rfl
  | keep p more ih =>
      rw [runAll_cons_outcome, runAll_cons_outcome]
      exact congrArg (p.run a).bind (funext ih)
  | insert more ih =>
      rw [runAll_cons_outcome]
      exact ih a

end Pass

/-! ## The stages -/

namespace Compiler

section Stages

variable {δ : Type} [Hardware δ] {k : Compiler} {source : Source} {d : δ} {c : Circuit}
  {p : Program} {e : CompileError}

/-- The device accepts the circuit, or what it refuses is only reported. -/
def Admits (k : Compiler) (d : δ) (c : Circuit) : Prop :=
  (Hardware.check d c).outcome = .ok () ∨ k.policy = .report

/-- Every stage succeeds, and the last one gives the program. -/
def Compiles (k : Compiler) (source : Source) (d : δ) (p : Program) : Prop :=
  ∃ (c changed : Circuit) (lowered : Program),
    source.circuit.outcome = .ok c ∧ k.Admits d c ∧ Pass.Chain k.circuitPasses c changed ∧
      (k.lowerCircuit changed).outcome = .ok lowered ∧ Pass.Chain k.programPasses lowered p

/-- A stage fails, after all those before it succeeded. -/
inductive Refuses (k : Compiler) (source : Source) (d : δ) : CompileError → Prop
  | source {e : CompileError} (fails : source.circuit.outcome = .error e) : Refuses k source d e
  | device {c : Circuit} {v : Violation} (given : source.circuit.outcome = .ok c)
      (enforced : k.policy = .enforce) (fails : (Hardware.check d c).outcome = .error v) :
      Refuses k source d (.violation v)
  | circuitPass {c : Circuit} {e : CompileError} (given : source.circuit.outcome = .ok c)
      (admitted : k.Admits d c) (fails : Pass.Stops k.circuitPasses c e) : Refuses k source d e
  | lowering {c changed : Circuit} {e : CompileError} (given : source.circuit.outcome = .ok c)
      (admitted : k.Admits d c) (passed : Pass.Chain k.circuitPasses c changed)
      (fails : (k.lowerCircuit changed).outcome = .error e) : Refuses k source d e
  | programPass {c changed : Circuit} {lowered : Program} {e : CompileError}
      (given : source.circuit.outcome = .ok c) (admitted : k.Admits d c)
      (passed : Pass.Chain k.circuitPasses c changed)
      (translated : (k.lowerCircuit changed).outcome = .ok lowered)
      (fails : Pass.Stops k.programPasses lowered e) : Refuses k source d e

theorem validate_eq_ok_iff {u : Unit} : (k.validate d c).outcome = .ok u ↔ k.Admits d c := by
  rw [validate, Traced.outcome_recover, Admits]
  cases (Hardware.check d c).outcome with
  | ok u => simp
  | error v => cases k.policy <;> simp

theorem validate_eq_error_iff :
    (k.validate d c).outcome = .error e ↔
      k.policy = .enforce ∧
        ∃ v : Violation, (Hardware.check d c).outcome = .error v ∧ e = .violation v := by
  rw [validate, Traced.outcome_recover]
  cases (Hardware.check d c).outcome with
  | ok u => simp
  | error v => cases k.policy <;> simp [eq_comm]

/-- The stages one after the other. -/
theorem compile_stages (k : Compiler) (source : Source) (d : δ) :
    (k.compile source d).outcome =
      source.circuit.outcome.bind fun c =>
        (k.validate d c).outcome.bind fun _ =>
          (Pass.runAll "circuit" k.circuitPasses c).outcome.bind fun changed =>
            (k.lowerCircuit changed).outcome.bind fun lowered =>
              (Pass.runAll "program" k.programPasses lowered).outcome := by
  simp only [compile_outcome, lowerCircuit_outcome]
  rfl

theorem compile_eq_ok_iff : (k.compile source d).outcome = .ok p ↔ k.Compiles source d p := by
  simp only [compile_stages, bind_eq_ok_iff, validate_eq_ok_iff, Pass.runAll_eq_ok_iff]
  constructor
  · rintro ⟨c, given, _, admitted, changed, passed, lowered, translated, finished⟩
    exact ⟨c, changed, lowered, given, admitted, passed, translated, finished⟩
  · rintro ⟨c, changed, lowered, given, admitted, passed, translated, finished⟩
    exact ⟨c, given, (), admitted, changed, passed, lowered, translated, finished⟩

theorem compile_eq_error_iff :
    (k.compile source d).outcome = .error e ↔ k.Refuses source d e := by
  simp only [compile_stages, bind_eq_error_iff, validate_eq_ok_iff, validate_eq_error_iff,
    Pass.runAll_eq_ok_iff, Pass.runAll_eq_error_iff]
  constructor
  · rintro (fails | ⟨c, given, ⟨enforced, v, fails, rfl⟩ | ⟨_, admitted, fails |
      ⟨changed, passed, fails | ⟨lowered, translated, fails⟩⟩⟩⟩)
    · exact .source fails
    · exact .device given enforced fails
    · exact .circuitPass given admitted fails
    · exact .lowering given admitted passed fails
    · exact .programPass given admitted passed translated fails
  · intro h
    cases h with
    | source fails => exact .inl fails
    | device given enforced fails => exact .inr ⟨_, given, .inl ⟨enforced, _, fails, rfl⟩⟩
    | circuitPass given admitted fails =>
        exact .inr ⟨_, given, .inr ⟨(), admitted, .inl fails⟩⟩
    | lowering given admitted passed fails =>
        exact .inr ⟨_, given, .inr ⟨(), admitted, .inr ⟨_, passed, .inl fails⟩⟩⟩
    | programPass given admitted passed translated fails =>
        exact .inr ⟨_, given, .inr ⟨(), admitted, .inr ⟨_, passed, .inr ⟨_, translated, fails⟩⟩⟩⟩

/-! ## Sinks in memory -/

/-- The result of a compilation for a sink in memory that holds `text`, and what the
sink holds afterwards. -/
def storing (k : Compiler) (source : Source) (d : δ) (text : String) :
    Except CompileError Program × String :=
  let (result, held) := (k.compileTo source d Sink.memory).run text
  (result.outcome, held)

theorem storing_of_ok (text : String) (h : (k.compile source d).outcome = .ok p) :
    k.storing source d text = (.ok p, text ++ p.render) := by
  unfold storing compileTo deliver
  rw [h]
  rfl

theorem storing_of_error (text : String) (h : (k.compile source d).outcome = .error e) :
    k.storing source d text = (.error e, text) := by
  unfold storing compileTo deliver
  rw [h]
  rfl

theorem storing_congr {other : Compiler} (text : String)
    (h : (other.compile source d).outcome = (k.compile source d).outcome) :
    other.storing source d text = k.storing source d text := by
  cases hresult : (k.compile source d).outcome with
  | error e => rw [storing_of_error text hresult, storing_of_error text (h.trans hresult)]
  | ok p => rw [storing_of_ok text hresult, storing_of_ok text (h.trans hresult)]

/-- The compiler with other passes. -/
def withPasses (k : Compiler) (circuitPasses : List (Pass Circuit))
    (programPasses : List (Pass Program)) : Compiler :=
  { k with circuitPasses := circuitPasses, programPasses := programPasses }

theorem compile_withPasses_outcome {circuitPasses : List (Pass Circuit)}
    {programPasses : List (Pass Program)} (hcircuit : Pass.Padded k.circuitPasses circuitPasses)
    (hprogram : Pass.Padded k.programPasses programPasses) :
    ((k.withPasses circuitPasses programPasses).compile source d).outcome =
      (k.compile source d).outcome := by
  rw [compile_outcome, compile_outcome]
  simp only [withPasses, hcircuit.runAll_outcome, hprogram.runAll_outcome]
  rfl

end Stages

/-- A compilation for a sink in memory gives a program exactly when every stage
succeeds, and then its text is added to the sink.  It gives an error exactly when a
stage fails after those before it succeeded, and then the sink stays as it was.
Passes that change nothing, put anywhere among the others, change neither the result
nor the sink. -/
theorem storing_staged {δ : Type} [Hardware δ] (k : Compiler) (source : Source) (d : δ)
    (text : String) :
    (∀ (p : Program) (held : String), k.storing source d text = (.ok p, held) ↔
      k.Compiles source d p ∧ held = text ++ p.render) ∧
    (∀ (e : CompileError) (held : String), k.storing source d text = (.error e, held) ↔
      k.Refuses source d e ∧ held = text) ∧
    (∀ (circuitPasses : List (Pass Circuit)) (programPasses : List (Pass Program)),
      Pass.Padded k.circuitPasses circuitPasses → Pass.Padded k.programPasses programPasses →
        (k.withPasses circuitPasses programPasses).storing source d text =
          k.storing source d text) := by
  refine ⟨?_, ?_, ?_⟩
  · intro p held
    rw [← compile_eq_ok_iff]
    cases hresult : (k.compile source d).outcome with
    | error e => simp [storing_of_error text hresult]
    | ok q =>
        rw [storing_of_ok text hresult, Prod.mk.injEq, Except.ok.injEq]
        refine and_congr_right ?_
        rintro rfl
        exact eq_comm
  · intro e held
    rw [← compile_eq_error_iff]
    cases hresult : (k.compile source d).outcome with
    | error e' =>
        rw [storing_of_error text hresult, Prod.mk.injEq]
        exact and_congr_right fun _ => eq_comm
    | ok p => simp [storing_of_ok text hresult]
  · intro circuitPasses programPasses hcircuit hprogram
    exact storing_congr text (compile_withPasses_outcome hcircuit hprogram)

/-- A pass that puts a copy of the program after it. -/
def repeating : Pass Program :=
  ⟨"repeat", .transformation, fun p => .ok ⟨p.operations ++ p.operations⟩⟩

/-- A pass that refuses every circuit. -/
def refusing : Pass Circuit := ⟨"refuse", .analysis, fun c => .error (.pass "refuse" c.name)⟩

/-- What the device refuses here is only reported.  Between passes that change nothing,
one pass still changes the program and another one still stops the compilation. -/
theorem storing_staged_localCircuit :
    Pass.Padded [repeating] [.identity, repeating, .identity] ∧
      Pass.Padded [refusing] [.identity, refusing] ∧
      (∃ p : Program, p.operationCount = 6 ∧
        (withPasses default [.identity] [.identity, repeating, .identity]).storing
          (.ofCircuit localCircuit) (Device.mk 1) "held" = (.ok p, "held" ++ p.render)) ∧
      (withPasses default [.identity, refusing] [repeating]).storing
        (.ofCircuit localCircuit) (Device.mk 1) "held" =
          (.error (.pass "refuse" "local"), "held") := by
  have hrepeating : Pass.Padded [repeating] [.identity, repeating, .identity] :=
    .insert (.keep _ (.insert .nil))
  have hrefusing : Pass.Padded [refusing] [.identity, refusing] := .insert (.keep _ .nil)
  refine ⟨hrepeating, hrefusing, ?_, ?_⟩
  · let blocks := localCircuit.lowerable.map GateOp.block
    obtain ⟨hok, _, hpadded⟩ :=
      storing_staged (withPasses default [] [repeating]) (.ofCircuit localCircuit)
        (Device.mk 1) "held"
    have hcompiles : (withPasses default [] [repeating]).Compiles (.ofCircuit localCircuit)
        (Device.mk 1) ⟨blocks ++ blocks⟩ :=
      ⟨_, _, _, rfl, .inr rfl, .nil _, lowerCircuit_outcome _ _, .cons rfl (.nil _)⟩
    refine ⟨⟨blocks ++ blocks⟩, rfl, ?_⟩
    exact (hpadded [.identity] _ (.insert .nil) hrepeating).trans
      ((hok _ _).mpr ⟨hcompiles, rfl⟩)
  · obtain ⟨_, herror, hpadded⟩ :=
      storing_staged (withPasses default [refusing] [repeating]) (.ofCircuit localCircuit)
        (Device.mk 1) "held"
    have hrefuses : (withPasses default [refusing] [repeating]).Refuses (.ofCircuit localCircuit)
        (Device.mk 1) (.pass "refuse" "local") :=
      .circuitPass rfl (.inr rfl) ⟨[], [], refusing, _, rfl, .nil _, rfl⟩
    exact (hpadded _ [repeating] hrefusing (.keep _ .nil)).trans
      ((herror _ _).mpr ⟨hrefuses, rfl⟩)

end Compiler

end DualRail
