/-
  Where the operands of a controlled not meet.

  A network is meant to bring two distant qubits together, and the couplers of a
  controlled not are meant to let its operands interact.  Both can be read off the
  layout: two qubits are together when their waveguides lie on neighbouring
  positions, and a coupler joins them when it stands on a waveguide of each.

  A network moves the lower operand by at most one position and never moves the
  upper one.  So it brings together only the positions 0 and 2, although it is
  built for every two positions that are not neighbours.  The one coupler of a
  controlled not that reaches beyond its qubit reaches the position below the
  control, so a target above the control is never met.
-/
import DualRail.Proofs.Layout

set_option autoImplicit false

namespace DualRail

namespace Layout

/-- The two waveguides of a qubit lie on the rails of a position. -/
def Carries (l : Layout) (position : Nat) (q : Qubit) : Prop :=
  (l (2 * position) = 2 * q.index ∧ l (2 * position + 1) = 2 * q.index + 1) ∨
  (l (2 * position) = 2 * q.index + 1 ∧ l (2 * position + 1) = 2 * q.index)

/-- Two qubits lie on neighbouring positions. -/
def Together (l : Layout) (a b : Qubit) : Prop :=
  ∃ p q : Nat, l.Carries p a ∧ l.Carries q b ∧ (p + 1 = q ∨ q + 1 = p)

/-- A waveguide of a qubit lies on a rail. -/
def Holds (l : Layout) (rail : Nat) (q : Qubit) : Prop :=
  l rail = 2 * q.index ∨ l rail = 2 * q.index + 1

/-- A component stands on two rails, one with a waveguide of the one qubit and one
with a waveguide of the other. -/
def Joins (l : Layout) (c : Component) (a b : Qubit) : Prop :=
  ∃ r s : UInt64, c.input = ⟨.rail r, .rail s⟩ ∧
    ((l.Holds r.toNat a ∧ l.Holds s.toNat b) ∨ (l.Holds r.toNat b ∧ l.Holds s.toNat a))

end Layout

namespace Block

/-- The crossings before the first component of another kind. -/
def leadingCrossings (b : Block) : List Component :=
  b.components.takeWhile (·.part.isCrossing)

/-- The components that are not crossings. -/
def couplers (b : Block) : List Component :=
  b.components.filter (!·.part.isCrossing)

end Block

/-! ## Layouts in which neighbours are exchanged -/

namespace Layout

section Exchanged

variable {l : Layout} {low steps : Nat} (hl : ∀ rail, l rail = Routing.partner low steps rail)

include hl

theorem holds_input_iff {position : Nat} {q : Qubit} :
    l.Holds (2 * position) q ↔ Routing.neighbour low steps position = q.index := by
  rw [Holds, hl, Routing.partner_input]
  omega

theorem holds_output_iff {position : Nat} {q : Qubit} :
    l.Holds (2 * position + 1) q ↔ Routing.neighbour low steps position = q.index := by
  rw [Holds, hl, Routing.partner_output]
  omega

theorem carries_iff {position : Nat} {q : Qubit} :
    l.Carries position q ↔ position = Routing.neighbour low steps q.index := by
  rw [Carries, hl, hl, Routing.partner_input, Routing.partner_output, ← Routing.neighbour_eq_iff]
  omega

theorem together_iff {a b : Qubit} :
    l.Together a b ↔
      Routing.neighbour low steps a.index + 1 = Routing.neighbour low steps b.index ∨
      Routing.neighbour low steps b.index + 1 = Routing.neighbour low steps a.index := by
  constructor
  · rintro ⟨p, q, hp, hq, hpq⟩
    rw [carries_iff hl] at hp hq
    rwa [← hp, ← hq]
  · intro h
    exact ⟨_, _, (carries_iff hl).mpr rfl, (carries_iff hl).mpr rfl, h⟩

end Exchanged

end Layout

/-! ## What a network does to its operands -/

namespace Routing

theorem neighbour_upper {low upper : Nat} (h : low + 1 < upper) :
    neighbour low (starts low upper).length upper = upper := by
  rw [length_starts]
  exact neighbour_of_le (by omega)

theorem neighbour_low (low upper : Nat) :
    neighbour low (starts low upper).length low =
      if 2 * low + 2 ≤ upper then low + 1 else low := by
  rw [length_starts, neighbour_self]
  split_ifs <;> omega

theorem initial_run_networkBlock {low upper : Qubit} (rail : Nat) :
    Layout.initial.run (networkBlock low.index upper.index).components rail =
      partner low.index (starts low.index upper.index).length rail := by
  rw [Layout.run_networkBlock upper.index_lt, Layout.initial_apply]

/-- A network is built for every two positions that are not neighbours.  The upper
operand stays where it is, the lower one moves by at most one position, and the two
come together only from the positions 0 and 2. -/
theorem network_together_iff {low upper : Qubit} (h : low.index + 1 < upper.index) :
    ∃ b : Block, (network low upper).outcome = .ok b ∧
      (Layout.initial.run b.components).Carries
        (if 2 * low.index + 2 ≤ upper.index then low.index + 1 else low.index) low ∧
      (Layout.initial.run b.components).Carries upper.index upper ∧
      ((Layout.initial.run b.components).Together low upper ↔
        low.index = 0 ∧ upper.index = 2) := by
  refine ⟨_, network_outcome_of_distant h, ?_, ?_, ?_⟩
  · rw [Layout.carries_iff initial_run_networkBlock, neighbour_low]
  · rw [Layout.carries_iff initial_run_networkBlock, neighbour_upper h]
  · rw [Layout.together_iff initial_run_networkBlock, neighbour_upper h, neighbour_low]
    split_ifs <;> omega

/-- From the positions 0 and 2 the operands do come together. -/
theorem network_together_zero_two :
    (Qubit.mk 0).index + 1 < (Qubit.mk 2).index ∧
      ∃ b : Block, (network ⟨0⟩ ⟨2⟩).outcome = .ok b ∧
        (Layout.initial.run b.components).Carries 1 ⟨0⟩ ∧
        (Layout.initial.run b.components).Carries 2 ⟨2⟩ ∧
        (Layout.initial.run b.components).Together ⟨0⟩ ⟨2⟩ := by
  have hdistant : (Qubit.mk 0).index + 1 < (Qubit.mk 2).index := by decide
  obtain ⟨b, hb, hlow, hupper, htogether⟩ := network_together_iff hdistant
  exact ⟨hdistant, b, hb, hlow, hupper, htogether.mpr (by decide)⟩

/-- From the positions 0 and 3 they do not. -/
theorem network_not_together_zero_three :
    ∃ b : Block, (network ⟨0⟩ ⟨3⟩).outcome = .ok b ∧
      ¬ (Layout.initial.run b.components).Together ⟨0⟩ ⟨3⟩ := by
  have hdistant : (Qubit.mk 0).index + 1 < (Qubit.mk 3).index := by decide
  refine ⟨_, network_outcome_of_distant hdistant, ?_⟩
  rw [Layout.together_iff initial_run_networkBlock, neighbour_upper hdistant, neighbour_low]
  decide

end Routing

/-! ## The couplers of a controlled not -/

namespace Routing

/-- After a network of `steps` steps from `low` on, the operands lie on the position
of the control and on the one below it, in either order. -/
def Meets (low steps control target : Nat) : Prop :=
  0 < control ∧
    ((neighbour low steps control = control ∧ neighbour low steps (control - 1) = target) ∨
      (neighbour low steps control = target ∧ neighbour low steps (control - 1) = control))

end Routing

namespace Lowering

theorem isCrossing_of_mem_routing {control target : Qubit} {c : Component}
    (hc : c ∈ (routing control target).components) : c.part.isCrossing = true := by
  obtain ⟨l, hl, hlc⟩ := List.mem_filterMap.mp hc
  rcases mem_lines_routing hl with rfl | ⟨a, b, rfl⟩
  · exact absurd hlc (by simp [Line.component?])
  · rw [← Option.some.inj hlc]
    rfl

theorem isCrossing_of_mem_cnotBody {control target : Qubit} {c : Component}
    (hc : c ∈ (cnotBody control target).components) : c.part.isCrossing = false := by
  simp only [cnotBody, Block.components_ofComponents, List.mem_cons, List.not_mem_nil,
    or_false] at hc
  rcases hc with rfl | rfl | rfl | rfl | rfl <;> rfl

end Lowering

namespace GateOp

theorem components_cnot (control target : Qubit) :
    (cnot control target).block.components =
      (Lowering.routing control target).components ++
        ((Lowering.cnotBody control target).components ++
          (Lowering.routing control target).components) := by
  rw [block, Block.components_extend, Block.components_extend, List.append_assoc]

theorem leadingCrossings_cnot (control target : Qubit) :
    (cnot control target).block.leadingCrossings =
      (Lowering.routing control target).components := by
  rw [Block.leadingCrossings, components_cnot,
    List.takeWhile_append_of_pos fun _ hc => Lowering.isCrossing_of_mem_routing hc]
  -- The body begins with a coupler, so nothing more is taken.
  exact List.append_nil _

theorem couplers_cnot (control target : Qubit) :
    (cnot control target).block.couplers = (Lowering.cnotBody control target).components := by
  have hrouting : (Lowering.routing control target).components.filter
      (fun c => !c.part.isCrossing) = [] := by
    rw [List.filter_eq_nil_iff]
    intro c hc
    simp [Lowering.isCrossing_of_mem_routing hc]
  have hbody : (Lowering.cnotBody control target).components.filter
      (fun c => !c.part.isCrossing) = (Lowering.cnotBody control target).components := by
    rw [List.filter_eq_self]
    intro c hc
    simp [Lowering.isCrossing_of_mem_cnotBody hc]
  rw [Block.couplers, components_cnot, List.filter_append, List.filter_append, hrouting, hbody,
    List.nil_append, List.append_nil]

end GateOp

namespace RailPair

theorem belowInput_of_pos {q : Qubit} (h : 0 < q.index) :
    ∃ r : UInt64, (ofQubit q).belowInput = .rail r ∧ r.toNat = 2 * (q.index - 1) + 1 := by
  have hinput := toNat_input q
  have hone : (1 : UInt64) ≤ (ofQubit q).input := by
    rw [UInt64.le_iff_toNat_le, hinput]
    change 1 ≤ 2 * q.index
    omega
  have hzero : ¬ (ofQubit q).input = 0 := by
    intro hz
    rw [hz] at hinput
    change 0 = 2 * q.index at hinput
    omega
  refine ⟨(ofQubit q).input - 1, if_neg hzero, ?_⟩
  rw [UInt64.toNat_sub_of_le _ _ hone, hinput]
  change 2 * q.index - 1 = _
  omega

theorem belowInput_of_zero {q : Qubit} (h : q.index = 0) : (ofQubit q).belowInput = .vacuum := by
  have hinput := toNat_input q
  rw [h] at hinput
  exact if_pos (UInt64.toNat_inj.mp hinput)

end RailPair

namespace Layout

section Exchanged

variable {l : Layout} {low steps : Nat} (hl : ∀ rail, l rail = Routing.partner low steps rail)

include hl

/-- A coupler on the two rails of one position does not join two qubits. -/
theorem not_joins_own {q a b : Qubit} (hab : a ≠ b) :
    ¬ l.Joins (.coupler (RailPair.ofQubit q).outputPort (RailPair.ofQubit q).inputPort) a b := by
  rintro ⟨r, s, hports, hjoins⟩
  cases hports
  rw [RailPair.toNat_output, RailPair.toNat_input, holds_output_iff hl, holds_input_iff hl,
    holds_output_iff hl, holds_input_iff hl] at hjoins
  have hindex : a.index = b.index := by omega
  exact hab (Qubit.ext_index hindex)

/-- The coupler between the control and the rail below it joins what lies on the
position of the control with what lies on the position below. -/
theorem joins_below_iff {control target : Qubit} :
    l.Joins (.coupler (RailPair.ofQubit control).inputPort (RailPair.ofQubit control).belowInput)
        control target ↔
      Routing.Meets low steps control.index target.index := by
  unfold Routing.Meets
  by_cases hzero : control.index = 0
  · rw [RailPair.belowInput_of_zero hzero]
    constructor
    · rintro ⟨r, s, hports, _⟩
      cases hports
    · intro h
      omega
  · have hpos : 0 < control.index := Nat.pos_of_ne_zero hzero
    obtain ⟨below, hbelow, hnat⟩ := RailPair.belowInput_of_pos hpos
    have hupper : ∀ q : Qubit, l.Holds (RailPair.ofQubit control).input.toNat q ↔
        Routing.neighbour low steps control.index = q.index := by
      intro q
      rw [RailPair.toNat_input, holds_input_iff hl]
    have hlower : ∀ q : Qubit, l.Holds below.toNat q ↔
        Routing.neighbour low steps (control.index - 1) = q.index := by
      intro q
      rw [hnat, holds_output_iff hl]
    rw [hbelow]
    constructor
    · rintro ⟨r, s, hports, hjoins⟩
      cases hports
      rw [hupper, hlower, hupper, hlower] at hjoins
      exact ⟨hpos, hjoins⟩
    · rintro ⟨_, hjoins⟩
      rw [← hupper, ← hlower, ← hupper, ← hlower] at hjoins
      exact ⟨_, _, rfl, hjoins⟩

/-- Of the five couplers only the one that reaches below the control can join the
operands. -/
theorem exists_joins_cnotBody_iff {control target : Qubit} (hne : control ≠ target) :
    (∃ c ∈ (Lowering.cnotBody control target).components, l.Joins c control target) ↔
      l.Joins (.coupler (RailPair.ofQubit control).inputPort
        (RailPair.ofQubit control).belowInput) control target := by
  simp only [Lowering.cnotBody, Block.components_ofComponents, List.mem_cons, List.not_mem_nil,
    or_false]
  constructor
  · rintro ⟨c, rfl | rfl | rfl | rfl | rfl, hjoins⟩
    · exact absurd hjoins (not_joins_own hl hne)
    · obtain ⟨r, s, hports, _⟩ := hjoins
      cases hports
    · exact hjoins
    · obtain ⟨r, s, hports, _⟩ := hjoins
      cases hports
    · exact absurd hjoins (not_joins_own hl hne)
  · intro hjoins
    exact ⟨_, .inr (.inr (.inl rfl)), hjoins⟩

end Exchanged

end Layout

namespace Lowering

theorem initial_run_routing {control target : Qubit} (rail : Nat) :
    Layout.initial.run (routing control target).components rail =
      Routing.partner (min control.index target.index) (stepCount control target) rail := by
  rw [Layout.run_routing, Layout.initial_apply]

/-- With the target above the control, the network starts at the control and does
not reach the position below it. -/
theorem not_meets_of_lt {control target : Nat} (steps : Nat) (h : control < target) :
    ¬ Routing.Meets control steps control target := by
  rintro ⟨hpos, hmeets⟩
  have hbelow : Routing.neighbour control steps (control - 1) = control - 1 :=
    Routing.neighbour_of_lt (by omega)
  rw [hbelow] at hmeets
  omega

/-- With the target below the control, the control stays and the target moves up by
at most one position. -/
theorem meets_iff_of_lt {control target : Qubit} (h : target.index < control.index) :
    Routing.Meets target.index (stepCount control target) control.index target.index ↔
      control.index = target.index + 1 ∨ (control.index = 2 ∧ target.index = 0) := by
  have hsteps : stepCount control target =
      if target.index + 1 < control.index then (control.index + 2 - 2 * target.index) / 4
      else 0 := by
    unfold stepCount Qubit.distance
    rw [Nat.max_eq_left (by omega), Nat.min_eq_right (by omega)]
    exact if_congr (by omega) rfl rfl
  have hcontrol : Routing.neighbour target.index (stepCount control target) control.index =
      control.index := by
    apply Routing.neighbour_of_le
    rw [hsteps]
    split_ifs <;> omega
  rw [Routing.Meets, hcontrol, Routing.neighbour_eq_iff, Routing.neighbour_self, hsteps]
  split_ifs <;> omega

/-- Lowering a controlled not always gives a block with five couplers.  After the
crossings before them, one of the couplers joins the operands exactly when the
target lies directly below the control, or the control is 2 and the target 0. -/
theorem cnot_joins_iff {control target : Qubit} (hne : control ≠ target) :
    ∃ b : Block, (cnot control target).outcome = .ok b ∧ b.couplers.length = 5 ∧
      ((∃ c ∈ b.couplers,
          (Layout.initial.run b.leadingCrossings).Joins c control target) ↔
        control.index = target.index + 1 ∨ (control.index = 2 ∧ target.index = 0)) := by
  refine ⟨_, cnot_outcome control target, ?_, ?_⟩
  · rw [GateOp.couplers_cnot]
    rfl
  · rw [GateOp.couplers_cnot, GateOp.leadingCrossings_cnot,
      Layout.exists_joins_cnotBody_iff initial_run_routing hne,
      Layout.joins_below_iff initial_run_routing]
    have hindex : control.index ≠ target.index := fun h => hne (Qubit.ext_index h)
    rcases Nat.lt_or_gt_of_ne hindex with hlt | hgt
    · rw [Nat.min_eq_left (Nat.le_of_lt hlt)]
      constructor
      · intro hmeets
        exact absurd hmeets (not_meets_of_lt _ hlt)
      · omega
    · rw [Nat.min_eq_right (Nat.le_of_lt hgt)]
      exact meets_iff_of_lt hgt

/-- The routed operands 2 and 0 are joined. -/
theorem cnot_joins_two_zero :
    Qubit.mk 2 ≠ Qubit.mk 0 ∧
      ∃ b : Block, (cnot ⟨2⟩ ⟨0⟩).outcome = .ok b ∧ b.couplers.length = 5 ∧
        ∃ c ∈ b.couplers, (Layout.initial.run b.leadingCrossings).Joins c ⟨2⟩ ⟨0⟩ := by
  have hne : Qubit.mk 2 ≠ Qubit.mk 0 := by decide
  obtain ⟨b, hb, hfive, hjoins⟩ := cnot_joins_iff hne
  exact ⟨hne, b, hb, hfive, hjoins.mpr (by decide)⟩

/-- The neighbours 0 and 1 are not. -/
theorem cnot_not_joins_zero_one :
    ∃ b : Block, (cnot ⟨0⟩ ⟨1⟩).outcome = .ok b ∧
      ¬ ∃ c ∈ b.couplers, (Layout.initial.run b.leadingCrossings).Joins c ⟨0⟩ ⟨1⟩ := by
  have hne : Qubit.mk 0 ≠ Qubit.mk 1 := by decide
  refine ⟨_, cnot_outcome ⟨0⟩ ⟨1⟩, ?_⟩
  rw [GateOp.couplers_cnot, GateOp.leadingCrossings_cnot,
    Layout.exists_joins_cnotBody_iff initial_run_routing hne,
    Layout.joins_below_iff initial_run_routing]
  intro h
  exact absurd h.1 (by decide)

end Lowering

end DualRail
