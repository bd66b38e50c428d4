/-
  What translation returns.

  Lowering is written with a log and with an error, because a routing network
  refuses operands that come with the higher position first.  A controlled not
  orders its operands before it asks for a network, so nothing is ever refused:
  the block of an operation is a function of the operation (`GateOp.block`), and
  the program of a circuit is the list of the blocks of its lowerable operations
  in compilation order (`Compiler.lowerCircuit_outcome`).  Everything that is
  proved about compiled programs starts from this equation.

  The lowerable operations are the CX instructions on two qubits and the H and X
  instructions on one, no more and no less (`Circuit.map_instruction_lowerable`).
-/
import DualRail.Compile.Compiler

set_option autoImplicit false

namespace DualRail

/-! ## The block of an operation -/

namespace Routing

theorem network_outcome_of_distant {low upper : Qubit} (h : low.index + 1 < upper.index) :
    (network low upper).outcome = .ok (networkBlock low.index upper.index) := by
  have hordered : ¬ upper.index < low.index := by omega
  have hdistant : ¬ low.distance upper ≤ 1 := by
    unfold Qubit.distance
    omega
  unfold network
  rw [if_neg hordered, if_neg hdistant]
  simp [Except.bind]

end Routing

namespace Lowering

/-- The lines that stand before and after the body of a controlled not. -/
def routing (control target : Qubit) : Block :=
  if 1 < control.distance target then
    Routing.networkBlock (min control.index target.index) (max control.index target.index)
  else .empty

theorem routing_of_near {control target : Qubit} (h : ¬ 1 < control.distance target) :
    routing control target = .empty := if_neg h

theorem routing_of_distant {control target : Qubit} (h : 1 < control.distance target) :
    routing control target =
      Routing.networkBlock (min control.index target.index) (max control.index target.index) :=
  if_pos h

/-- The lines of a network are crossings and a blank line. -/
theorem mem_lines_routing {control target : Qubit} {l : Line}
    (hl : l ∈ (routing control target).lines) :
    l = .blank ∨ ∃ a b, l = .component (.crossing a b) := by
  by_cases h : 1 < control.distance target
  · rw [routing_of_distant h, Routing.networkBlock, List.mem_append, List.mem_map] at hl
    rcases hl with ⟨c, hc, rfl⟩ | hblank
    · right
      obtain ⟨p, _, hp⟩ := List.mem_flatMap.mp hc
      simp only [Routing.exchange, List.mem_cons, List.not_mem_nil, or_false] at hp
      rcases hp with rfl | rfl | rfl | rfl <;> exact ⟨_, _, rfl⟩
    · left
      exact List.mem_singleton.mp hblank
  · rw [routing_of_near h] at hl
    exact absurd hl List.not_mem_nil

/-- The operands reach the network in order, so it is always built. -/
theorem cnotRouting_outcome (control target : Qubit) :
    (cnotRouting control target).outcome = .ok (routing control target) := by
  unfold cnotRouting
  by_cases h : 1 < control.distance target
  · rw [if_pos h, routing_of_distant h]
    unfold Qubit.distance at h
    -- Whichever operand is lower comes first.
    by_cases hle : control.index ≤ target.index
    · have hfar : control.index + 1 < target.index := by omega
      rw [Qubit.ordered, if_pos hle, Nat.min_eq_left hle, Nat.max_eq_right hle]
      exact Routing.network_outcome_of_distant hfar
    · have hfar : target.index + 1 < control.index := by omega
      have hge : target.index ≤ control.index := by omega
      rw [Qubit.ordered, if_neg hle, Nat.min_eq_right hge, Nat.max_eq_left hge]
      exact Routing.network_outcome_of_distant hfar
  · rw [if_neg h, routing_of_near h]
    rfl

end Lowering

namespace GateOp

/-- The lines of an operation. -/
def block : GateOp → Block
  | cnot control target =>
      ((Lowering.routing control target).extend (Lowering.cnotBody control target)).extend
        (Lowering.routing control target)
  | h q => Lowering.hadamard q
  | x q => Lowering.pauliX q

end GateOp

namespace Lowering

theorem cnot_outcome (control target : Qubit) :
    (cnot control target).outcome = .ok (GateOp.cnot control target).block := by
  unfold cnot
  rw [Traced.outcome_bind, cnotRouting_outcome]
  rfl

theorem lower_outcome (op : GateOp) : (lower op).outcome = .ok op.block := by
  cases op with
  | cnot control target => exact cnot_outcome control target
  | h q => rfl
  | x q => rfl

end Lowering

/-! ## The instructions with a lowering -/

namespace GateOp

/-- The instruction that stands for an operation. -/
def instruction : GateOp → Instruction
  | cnot control target => .ofGate .cnot [control, target]
  | h q => .ofGate .hadamard [q]
  | x q => .ofGate .pauliX [q]

theorem ofInstruction?_instruction (op : GateOp) : ofInstruction? op.instruction = some op := by
  cases op <;> rfl

theorem instruction_injective {a b : GateOp} (h : a.instruction = b.instruction) : a = b := by
  have hread := ofInstruction?_instruction a
  rw [h, ofInstruction?_instruction b] at hread
  exact (Option.some.inj hread).symm

theorem eq_instruction_of_ofInstruction? {i : Instruction} {op : GateOp}
    (h : ofInstruction? i = some op) : i = op.instruction := by
  cases i with
  | mk action qubits =>
      unfold ofInstruction? at h
      split at h
      case h_4 => cases h
      all_goals
        rename_i haction hqubits
        cases h
        cases haction
        cases hqubits
        rfl

end GateOp

namespace Instruction

/-- Whether the instruction has a lowering: CX on two qubits, or H or X on one. -/
def isLowerable (i : Instruction) : Bool :=
  match i.action, i.qubits with
  | .gate .cnot, [_, _] => true
  | .gate .hadamard, [_] => true
  | .gate .pauliX, [_] => true
  | _, _ => false

theorem isLowerable_of_some {i : Instruction} {op : GateOp}
    (h : GateOp.ofInstruction? i = some op) : i.isLowerable = true := by
  rw [GateOp.eq_instruction_of_ofInstruction? h]
  cases op <;> rfl

theorem exists_op_of_isLowerable {i : Instruction} (h : i.isLowerable = true) :
    ∃ op : GateOp, i = op.instruction := by
  cases i with
  | mk action qubits =>
      rw [isLowerable] at h
      dsimp only at h
      split at h
      · exact ⟨.cnot _ _, rfl⟩
      · exact ⟨.h _, rfl⟩
      · exact ⟨.x _, rfl⟩
      · cases h

theorem isLowerable_of_none {i : Instruction} (h : GateOp.ofInstruction? i = none) :
    i.isLowerable = false := by
  cases hlowerable : i.isLowerable with
  | false => rfl
  | true =>
      obtain ⟨op, rfl⟩ := exists_op_of_isLowerable hlowerable
      rw [GateOp.ofInstruction?_instruction] at h
      cases h

end Instruction

/-! ## The program of a circuit -/

namespace Circuit

/-- The operations that have a lowering, in compilation order. -/
def lowerable (c : Circuit) : List GateOp := c.operations.filterMap GateOp.ofInstruction?

/-- The lowerable operations stand for the instructions with a lowering, in the same
order. -/
theorem map_instruction_lowerable (c : Circuit) :
    c.lowerable.map GateOp.instruction = c.operations.filter Instruction.isLowerable := by
  rw [lowerable]
  induction c.operations with
  | nil => rfl
  | cons i rest ih =>
      cases hop : GateOp.ofInstruction? i with
      | none =>
          rw [List.filterMap_cons_none hop, ih,
            List.filter_cons_of_neg (by rw [Instruction.isLowerable_of_none hop]; nofun)]
      | some op =>
          rw [List.filterMap_cons_some hop, List.map_cons, ih,
            List.filter_cons_of_pos (Instruction.isLowerable_of_some hop),
            GateOp.eq_instruction_of_ofInstruction? hop]

/-- Two circuits have the same lowerable operations exactly when they have the same
instructions with a lowering, in the same order. -/
theorem lowerable_eq_iff (c d : Circuit) :
    c.lowerable = d.lowerable ↔
      c.operations.filter Instruction.isLowerable =
        d.operations.filter Instruction.isLowerable := by
  rw [← map_instruction_lowerable, ← map_instruction_lowerable]
  exact (List.map_inj_right fun _ _ => GateOp.instruction_injective).symm

end Circuit

namespace Compiler

theorem lower_outcome (k : Compiler) (moment : Nat) (i : Instruction) :
    (k.lower moment i).outcome = .ok ((GateOp.ofInstruction? i).map GateOp.block) := by
  unfold lower
  cases GateOp.ofInstruction? i with
  | none => rfl
  | some op =>
      rw [Traced.outcome_bind, Traced.outcome_mapError, Lowering.lower_outcome]
      rfl

/-- Operations are lowered one after the other onto the program so far. -/
theorem lowerOperations_outcome (k : Compiler) (moment : Nat) :
    ∀ (ops : List Instruction) (p : Program),
      (k.lowerOperations moment ops p).outcome =
        .ok ⟨p.operations ++ (ops.filterMap GateOp.ofInstruction?).map GateOp.block⟩ := by
  intro ops
  induction ops with
  | nil =>
      intro p
      simp [lowerOperations]
  | cons i rest ih =>
      intro p
      unfold lowerOperations
      rw [Traced.outcome_bind, lower_outcome]
      cases hop : GateOp.ofInstruction? i with
      | none =>
          simp only [Option.map_none, Except.bind, List.filterMap_cons_none hop]
          exact ih p
      | some op =>
          simp only [Option.map_some, Except.bind, List.filterMap_cons_some hop]
          rw [ih (p.push op.block)]
          simp [Program.push]

theorem lowerMoments_outcome (k : Compiler) :
    ∀ (ms : List Moment) (index : Nat) (p : Program),
      (k.lowerMoments index ms p).outcome =
        .ok ⟨p.operations ++
          ((ms.flatMap (·.operations)).filterMap GateOp.ofInstruction?).map GateOp.block⟩ := by
  intro ms
  induction ms with
  | nil =>
      intro index p
      simp [lowerMoments]
  | cons m rest ih =>
      intro index p
      unfold lowerMoments
      rw [Traced.outcome_bind, lowerOperations_outcome]
      simp only [Except.bind]
      rw [ih]
      simp [List.filterMap_append]

/-- Translation never fails, and its blocks are those of the lowerable
operations. -/
theorem lowerCircuit_outcome (k : Compiler) (c : Circuit) :
    (k.lowerCircuit c).outcome = .ok ⟨c.lowerable.map GateOp.block⟩ := by
  unfold lowerCircuit
  rw [lowerMoments_outcome]
  rfl

end Compiler

end DualRail
