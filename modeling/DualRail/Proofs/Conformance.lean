/-
  What a device accepts and what the compiler makes of it.

  A device looks at the kind of an operation, at the range of its operands and at the
  distance of two of them.  Lowering looks at the kind and the number of operands, and
  takes the distance as the sign that a network is needed.  On sound circuits the two
  draw the same line: a device accepts exactly the gates on its own qubits that are
  lowered without a network, and measurements that do not reach across the line
  (`Device.checkOperation_eq_ok_iff`).

  So when the rules of the device are enforced, a circuit either is refused for the
  first operation beyond the line, or becomes a program without networks, block for
  gate.
-/
import DualRail.Proofs.Ports

set_option autoImplicit false

namespace DualRail

/-! ## Operations that are lowered without a network -/

namespace Block

theorem blank_notMem_ofComponents (cs : List Component) : .blank ∉ (ofComponents cs).lines := by
  simp [ofComponents]

end Block

namespace GateOp

/-- A blank line is the end of a network. -/
theorem blank_mem_block_cnot {control target : Qubit} :
    Line.blank ∈ (cnot control target).block.lines ↔ 1 < control.distance target := by
  by_cases hdistant : 1 < control.distance target
  · refine iff_of_true ?_ hdistant
    apply List.mem_append_right
    rw [Lowering.routing_of_distant hdistant]
    exact List.mem_append_right _ (List.mem_singleton.mpr rfl)
  · refine iff_of_false ?_ hdistant
    rw [block, Lowering.routing_of_near hdistant]
    intro hblank
    rcases List.mem_append.mp hblank with hblank | hblank
    · exact Block.blank_notMem_ofComponents _ hblank
    · exact List.not_mem_nil hblank

end GateOp

namespace Instruction

/-- The instruction has a lowering, and this is its block. -/
def LowersTo (i : Instruction) (b : Block) : Prop :=
  ∃ op : GateOp, GateOp.ofInstruction? i = some op ∧ (Lowering.lower op).outcome = .ok b

/-- The instruction acts on exactly two qubits, and they are not neighbours. -/
def Distant (i : Instruction) : Prop :=
  ∃ p q : Qubit, i.qubits = [p, q] ∧ p.distance q ≠ 1

/-- Whether the instruction is a gate. -/
def isGate (i : Instruction) : Bool := i.action.gate?.isSome

/-- Whether the instruction is the given gate. -/
def applies (g : Gate) (i : Instruction) : Bool := i.action = .gate g

/-- The instruction is a gate of one of the three kinds that have a lowering. -/
def IsLowerableGate (i : Instruction) : Prop :=
  i.action = .gate .cnot ∨ i.action = .gate .pauliX ∨ i.action = .gate .hadamard

theorem lowersTo_block (op : GateOp) : op.instruction.LowersTo op.block :=
  ⟨op, GateOp.ofInstruction?_instruction op, Lowering.lower_outcome op⟩

theorem LowersTo.exists_op {i : Instruction} {b : Block} (h : i.LowersTo b) :
    ∃ op : GateOp, i = op.instruction ∧ b = op.block := by
  obtain ⟨op, hop, hb⟩ := h
  rw [Lowering.lower_outcome, Except.ok.injEq] at hb
  exact ⟨op, GateOp.eq_instruction_of_ofInstruction? hop, hb.symm⟩

/-- A sound instruction is lowered without a blank line exactly when it is one of the
three gates and its operands are not apart. -/
theorem lowersTo_without_blank_iff {size : UInt32} {i : Instruction} (hi : i.Sound size) :
    (∃ b : Block, i.LowersTo b ∧ Line.blank ∉ b.lines) ↔ i.IsLowerableGate ∧ ¬ i.Distant := by
  constructor
  · rintro ⟨b, hb, hblank⟩
    obtain ⟨op, rfl, rfl⟩ := hb.exists_op
    cases op with
    | cnot control target =>
        refine ⟨.inl rfl, ?_⟩
        rintro ⟨p, q, hpq, hdistance⟩
        cases hpq
        rw [GateOp.blank_mem_block_cnot] at hblank
        -- Distance zero would be a repeated operand.
        have hsame : control.index = target.index := by
          unfold Qubit.distance at hblank hdistance
          omega
        have hnodup := hi.nodup
        rw [Qubit.ext_index hsame] at hnodup
        exact (List.nodup_cons.mp hnodup).1 List.mem_cons_self
    | h q =>
        refine ⟨.inr (.inr rfl), ?_⟩
        rintro ⟨p, q, hpq, _⟩
        cases hpq
    | x q =>
        refine ⟨.inr (.inl rfl), ?_⟩
        rintro ⟨p, q, hpq, _⟩
        cases hpq
  · rintro ⟨hgate, hnear⟩
    cases i with
    | mk action qubits =>
        rcases hgate with hgate | hgate | hgate
        · cases hgate
          obtain ⟨control, target, rfl⟩ := List.length_eq_two.mp (hi.arity 2 rfl)
          refine ⟨_, lowersTo_block (.cnot control target), ?_⟩
          rw [GateOp.blank_mem_block_cnot]
          intro hdistant
          exact hnear ⟨control, target, rfl, Nat.ne_of_gt hdistant⟩
        · cases hgate
          obtain ⟨q, rfl⟩ := List.length_eq_one_iff.mp (hi.arity 1 rfl)
          exact ⟨_, lowersTo_block (.x q), Block.blank_notMem_ofComponents _⟩
        · cases hgate
          obtain ⟨q, rfl⟩ := List.length_eq_one_iff.mp (hi.arity 1 rfl)
          exact ⟨_, lowersTo_block (.h q), Block.blank_notMem_ofComponents _⟩

end Instruction

/-! ## What a device accepts -/

namespace Device

/-- What a device runs: operations on its own qubits, which are gates that are lowered
without a blank line, or measurements that are not apart. -/
def Runs (d : Device) (i : Instruction) : Prop :=
  (∀ q ∈ i.qubits, q.index < d.size.toNat) ∧
    (((∃ g : Gate, i.action = .gate g) ∧ ∃ b : Block, i.LowersTo b ∧ Line.blank ∉ b.lines) ∨
      (i.action.isMeasure = true ∧ ¬ i.Distant))

theorem checkAction_eq_ok_iff {i : Instruction} :
    checkAction i = .ok () ↔ i.IsLowerableGate ∨ i.action.isMeasure = true := by
  unfold checkAction Instruction.IsLowerableGate
  cases i.action with
  | gate g => cases g <;> simp [Action.isMeasure]
  | measure key => simp [Action.isMeasure]
  | barrier => simp [Action.isMeasure]

theorem checkRange_eq_ok_iff {d : Device} {i : Instruction} :
    d.checkRange i = .ok () ↔ ∀ q ∈ i.qubits, q.index < d.size.toNat := by
  have hinside : (∀ q ∈ i.qubits, q.index < d.size.toNat) ↔
      i.qubits.find? (fun q => d.size ≤ q.position) = none := by
    rw [List.find?_eq_none]
    refine forall₂_congr fun q _ => ?_
    rw [decide_eq_true_iff, UInt32.le_iff_toNat_le, Nat.not_le]
    rfl
  rw [hinside, checkRange]
  cases i.qubits.find? fun q => d.size ≤ q.position with
  | none => simp
  | some q => simp

theorem checkLocality_eq_ok_iff {i : Instruction} : checkLocality i = .ok () ↔ ¬ i.Distant := by
  unfold checkLocality Instruction.Distant
  split
  · rename_i p q hqubits
    rw [hqubits]
    by_cases hadjacent : p.distance q = 1
    · have hpair : ¬ ∃ p' q' : Qubit, [p, q] = [p', q'] ∧ p'.distance q' ≠ 1 := by
        rintro ⟨p', q', hpq, hdistance⟩
        cases hpq
        exact hdistance hadjacent
      rw [Qubit.isAdjacent, if_pos (beq_iff_eq.mpr hadjacent)]
      exact iff_of_true rfl hpair
    · rw [Qubit.isAdjacent, if_neg (fun h => hadjacent (beq_iff_eq.mp h))]
      exact iff_of_false (by nofun) (fun h => h ⟨p, q, rfl, hadjacent⟩)
  · rename_i hqubits
    refine iff_of_true rfl ?_
    rintro ⟨p, q, hpq, _⟩
    exact hqubits p q hpq

/-- On sound instructions the device draws the line where networks begin. -/
theorem checkOperation_eq_ok_iff {d : Device} {size : UInt32} {i : Instruction}
    (hi : i.Sound size) : d.checkOperation i = .ok () ↔ d.Runs i := by
  have hkind : (∃ b : Block, i.LowersTo b ∧ Line.blank ∉ b.lines) →
      ∃ g : Gate, i.action = .gate g := by
    rintro ⟨b, hb, _⟩
    obtain ⟨op, rfl, _⟩ := hb.exists_op
    cases op <;> exact ⟨_, rfl⟩
  unfold checkOperation
  rw [then_eq_ok_iff, then_eq_ok_iff, checkAction_eq_ok_iff, checkRange_eq_ok_iff,
    checkLocality_eq_ok_iff, Runs, and_iff_right_of_imp hkind,
    Instruction.lowersTo_without_blank_iff hi]
  tauto

theorem checkOperations_eq_ok_iff {d : Device} {ops : List Instruction} :
    d.checkOperations ops = .ok () ↔ ∀ i ∈ ops, d.checkOperation i = .ok () := by
  induction ops with
  | nil => simp [checkOperations]
  | cons i rest ih => rw [List.forall_mem_cons, checkOperations, then_eq_ok_iff, ih]

/-- The violation that is reported is that of the first operation that is refused. -/
theorem checkOperations_eq_error {d : Device} {v : Violation} {ops : List Instruction}
    (h : d.checkOperations ops = .error v) :
    ∃ (before after : List Instruction) (i : Instruction), ops = before ++ i :: after ∧
      (∀ j ∈ before, d.checkOperation j = .ok ()) ∧ d.checkOperation i = .error v := by
  induction ops with
  | nil => cases h
  | cons i rest ih =>
      rw [checkOperations] at h
      cases hi : d.checkOperation i with
      | error w =>
          rw [hi] at h
          cases h
          exact ⟨[], rest, i, rfl, by simp, hi⟩
      | ok u =>
          rw [hi] at h
          obtain ⟨before, after, j, hsplit, hbefore, hj⟩ := ih h
          refine ⟨i :: before, after, j, congrArg (i :: ·) hsplit, ?_, hj⟩
          exact List.forall_mem_cons.mpr ⟨hi, hbefore⟩

theorem hardware_check (d : Device) (c : Circuit) : Hardware.check d c = d.check c := rfl

theorem check_outcome (d : Device) (c : Circuit) :
    (d.check c).outcome = d.checkOperations c.operations := by
  unfold check
  rw [Traced.outcome_bind, Traced.outcome_ofExcept]
  cases d.checkOperations c.operations with
  | error v => rfl
  | ok u => rfl

/-- A sound circuit is accepted exactly when the device runs all its operations. -/
theorem checkOperations_operations_iff {d : Device} {c : Circuit} (hc : c.Sound) :
    d.checkOperations c.operations = .ok () ↔ ∀ i ∈ c.operations, d.Runs i := by
  rw [checkOperations_eq_ok_iff]
  exact forall₂_congr fun i hi => checkOperation_eq_ok_iff (hc.of_mem_operations hi)

/-- A sound circuit is refused for the first operation that the device does not run. -/
theorem exists_first_refused {d : Device} {c : Circuit} {v : Violation} (hc : c.Sound)
    (h : d.checkOperations c.operations = .error v) :
    ∃ (before after : List Instruction) (i : Instruction), c.operations = before ++ i :: after ∧
      (∀ j ∈ before, d.Runs j) ∧ ¬ d.Runs i ∧ d.checkOperation i = .error v := by
  obtain ⟨before, after, i, hsplit, hbefore, hi⟩ := checkOperations_eq_error h
  have hruns : ∀ j ∈ before ++ i :: after, d.checkOperation j = .ok () ↔ d.Runs j := by
    intro j hj
    rw [← hsplit] at hj
    exact checkOperation_eq_ok_iff (hc.of_mem_operations hj)
  refine ⟨before, after, i, hsplit, ?_, ?_, hi⟩
  · intro j hj
    exact (hruns j (List.mem_append_left _ hj)).mp (hbefore j hj)
  · intro hrun
    rw [(hruns i (List.mem_append_right _ List.mem_cons_self)).mpr hrun] at hi
    cases hi

end Device

/-! ## Programs without networks -/

namespace GateOp

theorem ofInstruction?_measure {i : Instruction} (h : i.action.isMeasure = true) :
    ofInstruction? i = none := by
  cases hop : ofInstruction? i with
  | none => rfl
  | some op =>
      rw [eq_instruction_of_ofInstruction? hop] at h
      cases op <;> cases h

theorem components_block_cnot {control target : Qubit}
    (h : Line.blank ∉ (cnot control target).block.lines) :
    (cnot control target).block.components = (Lowering.cnotBody control target).components := by
  rw [blank_mem_block_cnot] at h
  rw [components_cnot, Lowering.routing_of_near h]
  exact List.append_nil _

/-- Without a network, H and X take one component and a controlled not takes five. -/
theorem length_components_block {op : GateOp} (h : Line.blank ∉ op.block.lines) :
    op.block.components.length =
      [op.instruction].countP (Instruction.applies .hadamard) +
        [op.instruction].countP (Instruction.applies .pauliX) +
        5 * [op.instruction].countP (Instruction.applies .cnot) := by
  cases op with
  | cnot control target =>
      rw [components_block_cnot h]
      rfl
  | h q => rfl
  | x q => rfl

/-- Without a network, only X crosses rails. -/
theorem crossings_block {op : GateOp} (h : Line.blank ∉ op.block.lines) :
    op.block.components.filter (·.part.isCrossing) =
      ([op.instruction].filter (Instruction.applies .pauliX)).flatMap fun i =>
        i.qubits.flatMap fun q => (Lowering.pauliX q).components := by
  cases op with
  | cnot control target =>
      rw [components_block_cnot h]
      rfl
  | h q => rfl
  | x q => rfl

end GateOp

/-- A program for operations that a device runs: block for gate, with the components
that each gate needs and no other crossings than those of X, on rails of the device. -/
structure Device.LocalProgram (d : Device) (ops : List Instruction) (p : Program) : Prop where
  blocks : List.Forall₂ Instruction.LowersTo (ops.filter Instruction.isGate) p.operations
  operationCount : p.operationCount = ops.countP Instruction.isGate
  componentCount : p.componentCount =
    ops.countP (Instruction.applies .hadamard) + ops.countP (Instruction.applies .pauliX) +
      5 * ops.countP (Instruction.applies .cnot)
  crossings : p.components.filter (·.part.isCrossing) =
    (ops.filter (Instruction.applies .pauliX)).flatMap fun i =>
      i.qubits.flatMap fun q => (Lowering.pauliX q).components
  rails : ∀ c ∈ p.components, ∀ r ∈ c.rails, r < 2 * d.size.toNat

namespace Device

theorem LocalProgram.nil (d : Device) : d.LocalProgram [] .empty where
  blocks := .nil
  operationCount := rfl
  componentCount := rfl
  crossings := rfl
  rails := by
    intro c hc
    exact absurd hc List.not_mem_nil

/-- A measurement leaves no trace in the program. -/
theorem LocalProgram.measure {d : Device} {i : Instruction} {ops : List Instruction} {p : Program}
    (hi : i.action.isMeasure = true) (h : d.LocalProgram ops p) :
    d.LocalProgram (i :: ops) p := by
  cases i with
  | mk action qubits =>
      cases action with
      | measure key =>
          exact ⟨h.blocks, h.operationCount, h.componentCount, h.crossings, h.rails⟩
      | gate g => cases hi
      | barrier => cases hi

theorem LocalProgram.gate {d : Device} {op : GateOp} {ops : List Instruction} {p : Program}
    (hrange : ∀ q ∈ op.instruction.qubits, q.index < d.size.toNat)
    (hblank : Line.blank ∉ op.block.lines) (h : d.LocalProgram ops p) :
    d.LocalProgram (op.instruction :: ops) ⟨op.block :: p.operations⟩ := by
  have hgate : op.instruction.isGate = true := by cases op <;> rfl
  have hcons : op.instruction :: ops = [op.instruction] ++ ops := rfl
  have hcomponents : (Program.mk (op.block :: p.operations)).components =
      op.block.components ++ p.components := rfl
  refine ⟨?_, ?_, ?_, ?_, ?_⟩
  · rw [List.filter_cons_of_pos hgate]
    exact .cons (Instruction.lowersTo_block op) h.blocks
  · rw [List.countP_cons_of_pos hgate, ← h.operationCount]
    rfl
  · rw [Program.componentCount, hcomponents, List.length_append,
      GateOp.length_components_block hblank, hcons, List.countP_append, List.countP_append,
      List.countP_append]
    have hrest := h.componentCount
    rw [Program.componentCount] at hrest
    omega
  · rw [hcomponents, List.filter_append, GateOp.crossings_block hblank, h.crossings,
      hcons, List.filter_append, List.flatMap_append]
  · intro c hc r hr
    rw [hcomponents] at hc
    rcases List.mem_append.mp hc with hc | hc
    · have hhighest := ((GateOp.placedWithin_block hc).rails r hr).2
      exact Nat.lt_of_le_of_lt hhighest (GateOp.highestRail_lt hrange)
    · exact h.rails c hc r hr

/-- Operations that the device runs are translated to a program without networks. -/
theorem localProgram_of_runs {d : Device} {ops : List Instruction} (h : ∀ i ∈ ops, d.Runs i) :
    d.LocalProgram ops ⟨(ops.filterMap GateOp.ofInstruction?).map GateOp.block⟩ := by
  induction ops with
  | nil => exact .nil d
  | cons i rest ih =>
      obtain ⟨⟨hrange, hkind⟩, hrest⟩ := List.forall_mem_cons.mp h
      rcases hkind with ⟨_, b, hb, hblank⟩ | ⟨hmeasure, _⟩
      · obtain ⟨op, rfl, rfl⟩ := hb.exists_op
        rw [List.filterMap_cons_some (GateOp.ofInstruction?_instruction op)]
        exact (ih hrest).gate hrange hblank
      · rw [List.filterMap_cons_none (GateOp.ofInstruction?_measure hmeasure)]
        exact (ih hrest).measure hmeasure

end Device

namespace Compiler

/-- The compiler with a policy that runs no passes. -/
def withoutPasses (protocol : Protocol) (policy : Policy) : Compiler :=
  { new protocol with policy := policy }

theorem compile_outcome {δ : Type} [Hardware δ] (k : Compiler) (source : Source) (d : δ) :
    (k.compile source d).outcome =
      source.circuit.outcome.bind fun c =>
        (k.validate d c).outcome.bind fun _ =>
          (Pass.runAll "circuit" k.circuitPasses c).outcome.bind fun c' =>
            (Pass.runAll "program" k.programPasses ⟨c'.lowerable.map GateOp.block⟩).outcome := by
  unfold compile compileSteps
  simp only [Traced.outcome_within, Traced.outcome_bind, Traced.outcome_emit, Traced.outcome_pure,
    lowerCircuit_outcome]
  have hreturn : ∀ result : Except CompileError Program,
      (result.bind fun p => (Except.ok () : Except CompileError Unit).bind fun _ => .ok p) =
        result := by
    intro result
    cases result with
    | error e => rfl
    | ok p => rfl
  simp only [hreturn]
  rfl

section WithoutPasses

variable {protocol : Protocol} {d : Device} {source : Source} {c : Circuit}

/-- What is refused stops the compiler if the rules are enforced. -/
theorem validate_enforce :
    ((withoutPasses protocol .enforce).validate d c).outcome =
      (d.checkOperations c.operations).mapError .violation := by
  rw [validate, Traced.outcome_recover, Device.hardware_check, Device.check_outcome]
  cases d.checkOperations c.operations with
  | error v => rfl
  | ok u => rfl

theorem validate_report : ((withoutPasses protocol .report).validate d c).outcome = .ok () := by
  rw [validate, Traced.outcome_recover, Device.hardware_check, Device.check_outcome]
  cases d.checkOperations c.operations with
  | error v => rfl
  | ok u => rfl

variable (hsource : source.circuit.outcome = .ok c)

include hsource

theorem compile_withoutPasses_outcome {policy : Policy} :
    ((withoutPasses protocol policy).compile source d).outcome =
      ((withoutPasses protocol policy).validate d c).outcome.bind fun _ =>
        .ok ⟨c.lowerable.map GateOp.block⟩ := by
  rw [compile_outcome, hsource]
  rfl

theorem compile_report_outcome :
    ((withoutPasses protocol .report).compile source d).outcome =
      .ok ⟨c.lowerable.map GateOp.block⟩ := by
  rw [compile_withoutPasses_outcome hsource, validate_report]
  rfl

theorem compile_enforce_of_ok (h : d.checkOperations c.operations = .ok ()) :
    ((withoutPasses protocol .enforce).compile source d).outcome =
      .ok ⟨c.lowerable.map GateOp.block⟩ := by
  rw [compile_withoutPasses_outcome hsource, validate_enforce, h]
  rfl

theorem compile_enforce_of_error {v : Violation} (h : d.checkOperations c.operations = .error v) :
    ((withoutPasses protocol .enforce).compile source d).outcome = .error (.violation v) := by
  rw [compile_withoutPasses_outcome hsource, validate_enforce, h]
  rfl

end WithoutPasses

/-- A device accepts a verified circuit exactly when it runs every operation.  Under
enforcement and without passes, the compiler then returns the program that it returns
when it only reports, and that program has no networks; otherwise it fails with the
violation of the first operation that the device does not run. -/
theorem compile_enforce_iff_runs (protocol : Protocol) (d : Device) {source : Source}
    {c : Circuit} (hsource : source.circuit.outcome = .ok c) (hc : c.verify = .ok ()) :
    ((d.check c).outcome = .ok () ↔ ∀ i ∈ c.operations, d.Runs i) ∧
    ((∃ p : Program, ((withoutPasses protocol .enforce).compile source d).outcome = .ok p) ↔
      ∀ i ∈ c.operations, d.Runs i) ∧
    (∀ p : Program, ((withoutPasses protocol .enforce).compile source d).outcome = .ok p →
      ((withoutPasses protocol .report).compile source d).outcome = .ok p ∧
        d.LocalProgram c.operations p) ∧
    ((¬ ∀ i ∈ c.operations, d.Runs i) →
      ∃ (before after : List Instruction) (i : Instruction) (v : Violation),
        c.operations = before ++ i :: after ∧ (∀ j ∈ before, d.Runs j) ∧ ¬ d.Runs i ∧
          d.checkOperation i = .error v ∧
          ((withoutPasses protocol .enforce).compile source d).outcome =
            .error (.violation v)) := by
  have hsound := Circuit.verify_eq_ok_iff.mp hc
  have hiff : d.checkOperations c.operations = .ok () ↔ ∀ i ∈ c.operations, d.Runs i :=
    Device.checkOperations_operations_iff hsound
  rw [Device.check_outcome]
  cases hcheck : d.checkOperations c.operations with
  | ok u =>
      have hruns := hiff.mp hcheck
      have henforce : ((withoutPasses protocol .enforce).compile source d).outcome =
          .ok ⟨c.lowerable.map GateOp.block⟩ := compile_enforce_of_ok hsource hcheck
      refine ⟨iff_of_true rfl hruns, iff_of_true ⟨_, henforce⟩ hruns, ?_, ?_⟩
      · intro p hp
        rw [henforce] at hp
        cases hp
        exact ⟨compile_report_outcome hsource, Device.localProgram_of_runs hruns⟩
      · intro hnot
        exact absurd hruns hnot
  | error v =>
      have hnot : ¬ ∀ i ∈ c.operations, d.Runs i := by
        rw [← hiff, hcheck]
        nofun
      have henforce : ((withoutPasses protocol .enforce).compile source d).outcome =
          .error (.violation v) := compile_enforce_of_error hsource hcheck
      refine ⟨iff_of_false (by nofun) hnot, iff_of_false ?_ hnot, ?_, ?_⟩
      · rintro ⟨p, hp⟩
        rw [henforce] at hp
        cases hp
      · intro p hp
        rw [henforce] at hp
        cases hp
      · intro _
        obtain ⟨before, after, i, hsplit, hbefore, hi, hv⟩ :=
          Device.exists_first_refused hsound hcheck
        exact ⟨before, after, i, v, hsplit, hbefore, hi, hv, henforce⟩

/-- A circuit that a device with three qubits runs; its measurement acts on qubits that
are apart, but not on two of them. -/
def localCircuit : Circuit :=
  ⟨"local", 3, [⟨[.ofGate .hadamard [⟨0⟩], .ofGate .pauliX [⟨2⟩]]⟩,
    ⟨[.ofGate .cnot [⟨2⟩, ⟨1⟩]]⟩, ⟨[.measure [⟨0⟩, ⟨1⟩, ⟨2⟩] "m"]⟩]⟩

theorem compile_enforce_iff_runs_localCircuit :
    (Source.ofCircuit localCircuit).circuit.outcome = .ok localCircuit ∧
      localCircuit.verify = .ok () ∧
      ∃ p : Program,
        ((withoutPasses .klm .enforce).compile (.ofCircuit localCircuit) ⟨3⟩).outcome = .ok p ∧
        ((withoutPasses .klm .report).compile (.ofCircuit localCircuit) ⟨3⟩).outcome = .ok p ∧
        Device.LocalProgram ⟨3⟩ localCircuit.operations p ∧ p.componentCount = 7 := by
  have hsource : (Source.ofCircuit localCircuit).circuit.outcome = .ok localCircuit := rfl
  have hverify : localCircuit.verify = .ok () := rfl
  have hcheck : ((Device.mk 3).check localCircuit).outcome = .ok () := rfl
  obtain ⟨haccepts, hcompiles, hprogram, _⟩ :=
    compile_enforce_iff_runs .klm ⟨3⟩ hsource hverify
  obtain ⟨p, hp⟩ := hcompiles.mpr (haccepts.mp hcheck)
  obtain ⟨hreport, hlocal⟩ := hprogram p hp
  exact ⟨hsource, hverify, p, hp, hreport, hlocal, hlocal.componentCount⟩

end Compiler

end DualRail
