/-
  Programs restore the layout.

  H moves nothing, a controlled not undoes its network with the same network, and
  X crosses the two rails of its qubit.  So the waveguides of a position never
  leave its rails, and after a whole program they have changed places exactly when
  the number of X operations on the position is odd.
-/
import Mathlib.Algebra.Ring.Parity
import DualRail.Proofs.Layout

set_option autoImplicit false

namespace DualRail

namespace Instruction

/-- Whether the instruction crosses the rails of a position: an X on the one qubit
that is there. -/
def flips (position : Nat) (i : Instruction) : Bool :=
  match i.action, i.qubits with
  | .gate .pauliX, [q] => q.index == position
  | _, _ => false

theorem isLowerable_of_flips {i : Instruction} {position : Nat} (h : i.flips position = true) :
    i.isLowerable = true := by
  cases i with
  | mk action qubits =>
      rw [flips] at h
      dsimp only at h
      split at h
      · rfl
      · cases h

end Instruction

namespace GateOp

/-- Whether the operation crosses the rails of a position. -/
def flips (position : Nat) (op : GateOp) : Bool := op.instruction.flips position

theorem flips_cnot (position : Nat) (control target : Qubit) :
    (cnot control target).flips position = false := rfl

theorem flips_h (position : Nat) (q : Qubit) : (h q).flips position = false := rfl

theorem flips_x (position : Nat) (q : Qubit) :
    (x q).flips position = (q.index == position) := rfl

end GateOp

namespace Circuit

/-- The number of X instructions on the one qubit of a position. -/
def flipCount (c : Circuit) (position : Nat) : Nat :=
  c.operations.countP (Instruction.flips position)

theorem countP_flips_lowerable (c : Circuit) (position : Nat) :
    c.lowerable.countP (GateOp.flips position) = c.flipCount position := by
  have hmap : c.lowerable.countP (GateOp.flips position) =
      (c.lowerable.map GateOp.instruction).countP (Instruction.flips position) :=
    List.countP_map.symm
  rw [hmap, map_instruction_lowerable, List.countP_filter, flipCount]
  congr 1
  funext i
  cases hflips : i.flips position with
  | false => rfl
  | true => rw [Instruction.isLowerable_of_flips hflips]; rfl

end Circuit

namespace Layout

/-- The two waveguides of a position have changed places. -/
def Crosses (l : Layout) (position : Nat) : Prop :=
  l (2 * position) = 2 * position + 1 ∧ l (2 * position + 1) = 2 * position

/-- The two waveguides of a position lie on their own rails. -/
def Fixes (l : Layout) (position : Nat) : Prop :=
  l (2 * position) = 2 * position ∧ l (2 * position + 1) = 2 * position + 1

/-! ## One operation -/

theorem run_cnotBody (l : Layout) (control target : Qubit) :
    l.run (Lowering.cnotBody control target).components = l := by
  simp only [Lowering.cnotBody, Block.components_ofComponents, run_cons, run_nil, step_coupler]

theorem run_block_cnot (l : Layout) (control target : Qubit) :
    l.run (GateOp.cnot control target).block.components = l := by
  rw [GateOp.block, Block.components_extend, Block.components_extend, run_append, run_append,
    run_cnotBody, run_routing_twice]

theorem run_block_h (l : Layout) (q : Qubit) : l.run (GateOp.h q).block.components = l := rfl

theorem run_block_x (l : Layout) (q : Qubit) :
    l.run (GateOp.x q).block.components = l.exchange (2 * q.index + 1) (2 * q.index) := by
  rw [← RailPair.toNat_output, ← RailPair.toNat_input]
  rfl

/-- An operation leaves the waveguides of a position in place, or exchanges the
two if it flips the position. -/
theorem run_block_apply (l : Layout) (op : GateOp) (position : Nat) {side : Nat}
    (hside : side < 2) :
    l.run op.block.components (2 * position + side) =
      l (2 * position + (side + (if op.flips position then 1 else 0)) % 2) := by
  have hkept : (side + 0) % 2 = side := Nat.mod_eq_of_lt hside
  cases op with
  | cnot control target =>
      rw [run_block_cnot, GateOp.flips_cnot, if_neg Bool.false_ne_true, hkept]
  | h q =>
      rw [run_block_h, GateOp.flips_h, if_neg Bool.false_ne_true, hkept]
  | x q =>
      rw [run_block_x, exchange_apply]
      congr 1
      by_cases hq : q.index = position
      · rw [GateOp.flips_x, if_pos (beq_iff_eq.mpr hq), hq]
        have hrail : side = 0 ∨ side = 1 := by omega
        rcases hrail with rfl | rfl
        · exact Equiv.swap_apply_right _ _
        · exact Equiv.swap_apply_left _ _
      · rw [GateOp.flips_x, if_neg (by simpa using hq), hkept]
        exact Equiv.swap_apply_of_ne_of_ne (by omega) (by omega)

/-! ## Whole programs -/

/-- After a sequence of operations the waveguides of a position have been
exchanged as often as there are operations that flip it. -/
theorem run_blocks_apply (position : Nat) :
    ∀ (ops : List GateOp) (l : Layout) (side : Nat), side < 2 →
      l.run (Program.mk (ops.map GateOp.block)).components (2 * position + side) =
        l (2 * position + (side + ops.countP (GateOp.flips position)) % 2) := by
  intro ops
  induction ops with
  | nil =>
      intro l side hside
      rw [List.countP_nil, Nat.add_zero, Nat.mod_eq_of_lt hside]
      rfl
  | cons op ops ih =>
      -- The rest starts in the layout that the first operation leaves behind.
      intro l side hside
      have hsplit : (Program.mk ((op :: ops).map GateOp.block)).components =
          op.block.components ++ (Program.mk (ops.map GateOp.block)).components := rfl
      rw [hsplit, run_append, ih _ _ hside, run_block_apply _ _ _ (Nat.mod_lt _ Nat.two_pos),
        List.countP_cons, Nat.mod_add_mod, Nat.add_assoc]

end Layout

namespace Compiler

/-- Translation gives a program after which the waveguides of every position lie
on its rails, exchanged exactly when the circuit has an odd number of X instructions
on one qubit there.  In particular the network before the body of a controlled not
is undone by the one after it, in every layout. -/
theorem lowerCircuit_restores_layout (k : Compiler) (c : Circuit) :
    (∃ p : Program, (k.lowerCircuit c).outcome = .ok p ∧
      ∀ position : Nat,
        ((Layout.initial.run p.components).Crosses position ↔ Odd (c.flipCount position)) ∧
        ((Layout.initial.run p.components).Fixes position ↔ ¬ Odd (c.flipCount position))) ∧
    (∀ control target : Qubit, ∃ routing : Block,
      (Lowering.cnotRouting control target).outcome = .ok routing ∧
      (Lowering.cnot control target).outcome =
        .ok ((routing.extend (Lowering.cnotBody control target)).extend routing) ∧
      ∀ l : Layout,
        ((l.run routing.components).run (Lowering.cnotBody control target).components).run
          routing.components = l) := by
  constructor
  · refine ⟨_, lowerCircuit_outcome k c, ?_⟩
    intro position
    have hinput := Layout.run_blocks_apply position c.lowerable .initial 0 (by omega)
    have houtput := Layout.run_blocks_apply position c.lowerable .initial 1 (by omega)
    rw [Layout.initial_apply, c.countP_flips_lowerable] at hinput houtput
    simp only [Nat.add_zero] at hinput
    unfold Layout.Crosses Layout.Fixes
    rw [hinput, houtput, Nat.odd_iff]
    omega
  · intro control target
    refine ⟨Lowering.routing control target, Lowering.cnotRouting_outcome control target,
      Lowering.cnot_outcome control target, ?_⟩
    intro l
    rw [Layout.run_cnotBody, Layout.run_routing_twice]

end Compiler

end DualRail
