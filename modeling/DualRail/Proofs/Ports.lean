/-
  Components that can be placed.

  A chip has its rails side by side.  A component can be placed on it when it leaves
  by the rails by which it is entered and these are neighbours, the higher one first;
  a coupler may also have one of its two ports open.  Everything that lowering emits
  can be placed, and it stays close to its operands: on the rails of its qubit, or
  between the operands of a controlled not with at most one rail below the lower one
  (`GateOp.placedWithin_block`).  So a verified circuit never needs more than the two
  rails of each of its qubits.
-/
import DualRail.Proofs.Interaction
import DualRail.Proofs.Soundness

set_option autoImplicit false

namespace DualRail

namespace Port

/-- The number of the rail, if there is one. -/
def rail? : Port → Option Nat
  | rail index => some index.toNat
  | vacuum => none

end Port

namespace PortPair

/-- The rails of the two ports. -/
def rails (p : PortPair) : List Nat := [p.first, p.second].filterMap Port.rail?

/-- The ports are on neighbouring rails, the first on the higher one. -/
def Neighbouring (p : PortPair) : Prop :=
  ∃ a b : UInt64, p = ⟨.rail a, .rail b⟩ ∧ a.toNat = b.toNat + 1

/-- Exactly one of the ports is open. -/
def HalfOpen (p : PortPair) : Prop :=
  ∃ r : UInt64, p = ⟨.rail r, .vacuum⟩ ∨ p = ⟨.vacuum, .rail r⟩

end PortPair

namespace Component

/-- The rails on which a component stands, on both sides. -/
def rails (c : Component) : List Nat := c.input.rails ++ c.output.rails

/-- A coupler or a crossing that can be placed on a chip. -/
structure Placeable (c : Component) : Prop where
  part : c.part = .directionalStandard ∨ c.part = .crossing
  straight : c.input = c.output
  ports : c.input.Neighbouring ∨ (c.part = .directionalStandard ∧ c.input.HalfOpen)

/-- A component that can be placed and that uses only rails of a range. -/
structure PlacedWithin (low high : Nat) (c : Component) : Prop where
  placeable : c.Placeable
  rails : ∀ r ∈ c.rails, low ≤ r ∧ r ≤ high

theorem mem_rails_straight {part : Part} {a b : Port} {r : Nat} :
    r ∈ (straight part a b).rails ↔ a.rail? = some r ∨ b.rail? = some r := by
  simp [rails, straight, PortPair.rails]

variable {low high : Nat}

theorem PlacedWithin.mono {low' high' : Nat} {c : Component} (h : c.PlacedWithin low high)
    (hlow : low' ≤ low) (hhigh : high ≤ high') : c.PlacedWithin low' high' where
  placeable := h.placeable
  rails := by
    intro r hr
    obtain ⟨hl, hh⟩ := h.rails r hr
    exact ⟨Nat.le_trans hlow hl, Nat.le_trans hh hhigh⟩

theorem placedWithin_neighbours {part : Part} {a b : UInt64}
    (hpart : part = .directionalStandard ∨ part = .crossing) (hab : a.toNat = b.toNat + 1)
    (hlow : low ≤ b.toNat) (hhigh : a.toNat ≤ high) :
    (straight part (.rail a) (.rail b)).PlacedWithin low high where
  placeable := ⟨hpart, rfl, .inl ⟨a, b, rfl, hab⟩⟩
  rails := by
    intro r hr
    rcases mem_rails_straight.mp hr with hr | hr
    · cases hr
      omega
    · cases hr
      omega

theorem placedWithin_halfOpen {a b : Port} {r : UInt64}
    (hopen : PortPair.mk a b = ⟨.rail r, .vacuum⟩ ∨ PortPair.mk a b = ⟨.vacuum, .rail r⟩)
    (hlow : low ≤ r.toNat) (hhigh : r.toNat ≤ high) : (coupler a b).PlacedWithin low high where
  placeable := ⟨.inl rfl, rfl, .inr ⟨rfl, r, hopen⟩⟩
  rails := by
    intro s hs
    have hrail : s = r.toNat := by
      rcases hopen with hopen | hopen
      · cases hopen
        simpa [Port.rail?, eq_comm] using mem_rails_straight.mp hs
      · cases hopen
        simpa [Port.rail?, eq_comm] using mem_rails_straight.mp hs
    rw [hrail]
    exact ⟨hlow, hhigh⟩

/-- A part across the two rails of a qubit. -/
theorem placedWithin_own {part : Part} (q : Qubit)
    (hpart : part = .directionalStandard ∨ part = .crossing)
    (hlow : low ≤ 2 * q.index) (hhigh : 2 * q.index + 1 ≤ high) :
    (straight part (RailPair.ofQubit q).outputPort
      (RailPair.ofQubit q).inputPort).PlacedWithin low high := by
  have hinput := RailPair.toNat_input q
  have houtput := RailPair.toNat_output q
  exact placedWithin_neighbours hpart (by omega) (by omega) (by omega)

end Component

/-! ## Networks -/

namespace Routing

/-- The loop starts at the lower operand, and its guard bounds the highest rail of a
step by the number of the upper position. -/
theorem mem_starts {low upper p : Nat} (hp : p ∈ starts low upper) :
    low ≤ p ∧ 2 * p + 3 ≤ upper + 1 := by
  fun_induction starts low upper with
  | case1 low h ih =>
      rcases List.mem_cons.mp hp with rfl | hp
      · exact ⟨Nat.le_refl _, h⟩
      · obtain ⟨hlow, hupper⟩ := ih hp
        exact ⟨by omega, hupper⟩
  | case2 low h => exact absurd hp List.not_mem_nil

theorem placedWithin_cross {low high b : Nat} (hb : b + 1 < 18446744073709551616) (hlow : low ≤ b)
    (hhigh : b + 1 ≤ high) : (cross (b + 1) b).PlacedWithin low high := by
  have hlower : b.toUInt64.toNat = b := Word.toNat_toUInt64 (Nat.lt_of_succ_lt hb)
  have hhigher : (b + 1).toUInt64.toNat = b + 1 := Word.toNat_toUInt64 hb
  exact Component.placedWithin_neighbours (.inr rfl) (by omega) (by omega) (by omega)

theorem placedWithin_exchange {low high p : Nat} (hp : 2 * p + 3 < 18446744073709551616)
    (hlow : low ≤ 2 * p) (hhigh : 2 * p + 3 ≤ high) {c : Component} (hc : c ∈ exchange p) :
    c.PlacedWithin low high := by
  simp only [exchange, List.mem_cons, List.not_mem_nil, or_false] at hc
  rcases hc with rfl | rfl | rfl | rfl <;>
    exact placedWithin_cross (by omega) (by omega) (by omega)

theorem placedWithin_networkBlock {low upper : Nat} (hupper : upper < 4294967296) {c : Component}
    (hc : c ∈ (networkBlock low upper).components) :
    c.PlacedWithin (2 * low) (2 * upper + 1) := by
  rw [components_networkBlock] at hc
  obtain ⟨p, hp, hcp⟩ := List.mem_flatMap.mp hc
  obtain ⟨hlow, hhigh⟩ := mem_starts hp
  exact placedWithin_exchange (by omega) (by omega) (by omega) hcp

end Routing

/-! ## Operations -/

namespace GateOp

/-- The lowest rail that an operation may use. -/
def lowestRail : GateOp → Nat
  | cnot control target => 2 * min control.index target.index - 1
  | h q => 2 * q.index
  | x q => 2 * q.index

/-- The highest rail that an operation may use. -/
def highestRail : GateOp → Nat
  | cnot control target => 2 * max control.index target.index + 1
  | h q => 2 * q.index + 1
  | x q => 2 * q.index + 1

theorem highestRail_lt {op : GateOp} {size : Nat}
    (h : ∀ q ∈ op.instruction.qubits, q.index < size) : op.highestRail < 2 * size := by
  cases op with
  | cnot control target =>
      have hcontrol := h control List.mem_cons_self
      have htarget := h target (List.mem_cons_of_mem _ List.mem_cons_self)
      simp only [highestRail]
      omega
  | h q =>
      have hq := h q List.mem_cons_self
      simp only [highestRail]
      omega
  | x q =>
      have hq := h q List.mem_cons_self
      simp only [highestRail]
      omega

theorem placedWithin_routing {control target : Qubit} {c : Component}
    (hc : c ∈ (Lowering.routing control target).components) :
    c.PlacedWithin (cnot control target).lowestRail (cnot control target).highestRail := by
  by_cases hdistant : 1 < control.distance target
  · have hmax : max control.index target.index < 4294967296 :=
      Nat.max_lt.mpr ⟨control.index_lt, target.index_lt⟩
    rw [Lowering.routing_of_distant hdistant] at hc
    exact (Routing.placedWithin_networkBlock hmax hc).mono (Nat.sub_le _ _) (Nat.le_refl _)
  · rw [Lowering.routing_of_near hdistant] at hc
    exact absurd hc List.not_mem_nil

/-- The coupler between the control and the rail below it, which at the end of the
line is open on that side. -/
theorem placedWithin_below (control target : Qubit) :
    (Component.coupler (RailPair.ofQubit control).inputPort
      (RailPair.ofQubit control).belowInput).PlacedWithin
        (cnot control target).lowestRail (cnot control target).highestRail := by
  have hinput := RailPair.toNat_input control
  simp only [lowestRail, highestRail]
  by_cases hzero : control.index = 0
  · rw [RailPair.belowInput_of_zero hzero]
    exact Component.placedWithin_halfOpen (.inl rfl) (by omega) (by omega)
  · obtain ⟨below, hbelow, hnat⟩ := RailPair.belowInput_of_pos (Nat.pos_of_ne_zero hzero)
    rw [hbelow]
    exact Component.placedWithin_neighbours (.inl rfl) (by omega) (by omega) (by omega)

theorem placedWithin_cnotBody {control target : Qubit} {c : Component}
    (hc : c ∈ (Lowering.cnotBody control target).components) :
    c.PlacedWithin (cnot control target).lowestRail (cnot control target).highestRail := by
  have hcontrol := RailPair.toNat_output control
  have htarget := RailPair.toNat_input target
  have hown : (Component.coupler (RailPair.ofQubit target).outputPort
      (RailPair.ofQubit target).inputPort).PlacedWithin
        (cnot control target).lowestRail (cnot control target).highestRail := by
    simp only [lowestRail, highestRail]
    exact Component.placedWithin_own target (.inl rfl) (by omega) (by omega)
  simp only [Lowering.cnotBody, Block.components_ofComponents, List.mem_cons, List.not_mem_nil,
    or_false] at hc
  rcases hc with rfl | rfl | rfl | rfl | rfl
  · exact hown
  · simp only [lowestRail, highestRail]
    exact Component.placedWithin_halfOpen (.inr rfl) (by omega) (by omega)
  · exact placedWithin_below control target
  · simp only [lowestRail, highestRail]
    exact Component.placedWithin_halfOpen (.inl rfl) (by omega) (by omega)
  · exact hown

/-- What an operation is lowered to can be placed, on rails near its operands. -/
theorem placedWithin_block {op : GateOp} {c : Component} (hc : c ∈ op.block.components) :
    c.PlacedWithin op.lowestRail op.highestRail := by
  cases op with
  | cnot control target =>
      rw [components_cnot, List.mem_append, List.mem_append] at hc
      rcases hc with hc | hc | hc
      · exact placedWithin_routing hc
      · exact placedWithin_cnotBody hc
      · exact placedWithin_routing hc
  | h q =>
      rw [List.mem_singleton.mp hc]
      exact Component.placedWithin_own q (.inl rfl) (Nat.le_refl _) (Nat.le_refl _)
  | x q =>
      rw [List.mem_singleton.mp hc]
      exact Component.placedWithin_own q (.inr rfl) (Nat.le_refl _) (Nat.le_refl _)

end GateOp

/-! ## Programs -/

namespace Program

/-- The components of a program are those of the blocks of its operations. -/
theorem mem_components_blocks {ops : List GateOp} {c : Component} :
    c ∈ (Program.mk (ops.map GateOp.block)).components ↔
      ∃ op ∈ ops, c ∈ op.block.components := by
  simp [components, List.mem_flatMap]

end Program

namespace Compiler

/-- Translation of a verified circuit gives a program of components that can be
placed, on no more rails than its qubits have.  The components of one operation stay
on the rails of their qubit, or between the operands with one rail to spare. -/
theorem lowerCircuit_placeable (k : Compiler) {c : Circuit} (hc : c.verify = .ok ()) :
    (∃ p : Program, (k.lowerCircuit c).outcome = .ok p ∧
      ∀ comp ∈ p.components, comp.Placeable ∧ ∀ r ∈ comp.rails, r < 2 * c.size.toNat) ∧
    (∀ op : GateOp, ∃ b : Block, (Lowering.lower op).outcome = .ok b ∧
      ∀ comp ∈ b.components, ∀ r ∈ comp.rails, op.lowestRail ≤ r ∧ r ≤ op.highestRail) := by
  constructor
  · refine ⟨_, lowerCircuit_outcome k c, ?_⟩
    intro comp hcomp
    obtain ⟨op, hop, hmem⟩ := Program.mem_components_blocks.mp hcomp
    obtain ⟨i, hi, hiop⟩ := List.mem_filterMap.mp hop
    rw [GateOp.eq_instruction_of_ofInstruction? hiop] at hi
    have hsound := (Circuit.verify_eq_ok_iff.mp hc).of_mem_operations hi
    have hhighest := GateOp.highestRail_lt hsound.inRange
    have hplaced := GateOp.placedWithin_block hmem
    exact ⟨hplaced.placeable, fun r hr => Nat.lt_of_le_of_lt (hplaced.rails r hr).2 hhighest⟩
  · intro op
    refine ⟨op.block, Lowering.lower_outcome op, ?_⟩
    intro comp hcomp
    exact (GateOp.placedWithin_block hcomp).rails

/-- A circuit whose controlled not needs a network and has its control at the end of
the line. -/
def routedCircuit : Circuit :=
  ⟨"routed", 4, [⟨[.ofGate .cnot [⟨0⟩, ⟨3⟩], .ofGate .hadamard [⟨2⟩]]⟩,
    ⟨[.ofGate .pauliX [⟨3⟩]]⟩]⟩

theorem lowerCircuit_placeable_routedCircuit :
    routedCircuit.verify = .ok () ∧
      (∃ p : Program, (default.lowerCircuit routedCircuit).outcome = .ok p ∧
        ∀ comp ∈ p.components, comp.Placeable ∧ ∀ r ∈ comp.rails, r < 2 * 4) ∧
      (∃ b : Block, (Lowering.lower (.cnot ⟨0⟩ ⟨3⟩)).outcome = .ok b ∧
        ∀ comp ∈ b.components, ∀ r ∈ comp.rails, 0 ≤ r ∧ r ≤ 2 * 3 + 1) := by
  have hverify : routedCircuit.verify = .ok () := rfl
  obtain ⟨hprogram, hblocks⟩ := lowerCircuit_placeable default hverify
  exact ⟨hverify, hprogram, hblocks (.cnot ⟨0⟩ ⟨3⟩)⟩

end Compiler

end DualRail
