/-
  How a network is built.

  The positions of a network are calculated with words of 64 bits, turn by turn: a
  turn compares, adds four crossings and moves on by two positions.  Here that loop
  is a program in which every calculation may leave the words, and then there is no
  result at all.  It is shown that none does: from any two positions of the line the
  loop ends, after a number of turns that is known beforehand, with the lines of
  `Routing.networkBlock`.

  What the network does follows from its turns.  They are two positions apart, so each
  exchanges two neighbours that no other turn touches.
-/
import DualRail.Proofs.Interaction

set_option autoImplicit false

namespace DualRail

/-! ## Words -/

namespace Word

/-- A number as a word, if it fits. -/
def ofNat? (n : Nat) : Option UInt64 :=
  if n < 18446744073709551616 then some n.toUInt64 else none

/-- The sum of two words, if it is a word. -/
def sum? (a b : UInt64) : Option UInt64 := ofNat? (a.toNat + b.toNat)

/-- The product of two words, if it is a word. -/
def product? (a b : UInt64) : Option UInt64 := ofNat? (a.toNat * b.toNat)

theorem sum?_of_lt (a b : Nat) (h : a + b < 18446744073709551616) :
    sum? a.toUInt64 b.toUInt64 = some (a + b).toUInt64 := by
  rw [sum?, toNat_toUInt64 (by omega), toNat_toUInt64 (by omega), ofNat?, if_pos h]

theorem product?_of_lt (a b : Nat) (ha : a < 18446744073709551616)
    (hb : b < 18446744073709551616) (h : a * b < 18446744073709551616) :
    product? a.toUInt64 b.toUInt64 = some (a * b).toUInt64 := by
  rw [product?, toNat_toUInt64 ha, toNat_toUInt64 hb, ofNat?, if_pos h]

theorem toUInt64_le_iff {a b : Nat} (ha : a < 18446744073709551616)
    (hb : b < 18446744073709551616) : a.toUInt64 ≤ b.toUInt64 ↔ a ≤ b := by
  rw [UInt64.le_iff_toNat_le, toNat_toUInt64 ha, toNat_toUInt64 hb]

end Word

/-! ## The loop -/

namespace Routing

/-- What the loop keeps from turn to turn: the position at which the next turn starts,
the number of turns so far, and the lines so far. -/
structure Ladder where
  low : UInt64
  steps : UInt64
  block : Block
deriving DecidableEq, Repr, Inhabited

namespace Ladder

/-- The loop before its first turn. -/
def start (low : Qubit) : Ladder := ⟨low.index.toUInt64, 0, .empty⟩

/-- The condition of the loop, if it can be calculated. -/
def goesOn? (upper : UInt64) (l : Ladder) : Option Bool := do
  let doubled ← Word.product? 2 l.low
  let reach ← Word.sum? doubled 3
  let bound ← Word.sum? upper 1
  return decide (reach ≤ bound)

/-- One turn of the loop, if it can be calculated. -/
def turn? (l : Ladder) : Option Ladder := do
  let i ← Word.product? 2 l.low
  let o ← Word.sum? i 1
  let i1 ← Word.sum? i 2
  let o1 ← Word.sum? i 3
  let low ← Word.sum? l.low 2
  let steps ← Word.sum? l.steps 1
  let block := (((l.block.push (.crossing i1 o)).push (.crossing o i)).push
    (.crossing o1 i1)).push (.crossing i1 o)
  return ⟨low, steps, block⟩

/-- The loop ends after a number of turns, and no calculation leaves the words until
then. -/
inductive Ends (upper : UInt64) : Ladder → Nat → Ladder → Prop
  | stop {l : Ladder} : l.goesOn? upper = some false → Ends upper l 0 l
  | turn {l next last : Ladder} {turns : Nat} : l.goesOn? upper = some true →
      l.turn? = some next → Ends upper next turns last → Ends upper l (turns + 1) last

/-- The loop is deterministic. -/
theorem Ends.unique {upper : UInt64} {l last last' : Ladder} {turns turns' : Nat}
    (h : Ends upper l turns last) (h' : Ends upper l turns' last') :
    turns = turns' ∧ last = last' := by
  induction h generalizing turns' with
  | stop hstop =>
      cases h' with
      | stop _ => exact ⟨rfl, rfl⟩
      | turn hgo _ _ =>
          rw [hstop] at hgo
          cases hgo
  | turn hgo hnext _ ih =>
      cases h' with
      | stop hstop =>
          rw [hgo] at hstop
          cases hstop
      | turn _ hnext' hrest' =>
          rw [hnext, Option.some.injEq] at hnext'
          rw [← hnext'] at hrest'
          obtain ⟨hturns, hlast⟩ := ih hrest'
          exact ⟨congrArg (· + 1) hturns, hlast⟩

/-! ## A turn and a step -/

section Turn

variable {low upper steps : Nat} (b : Block)

/-- The condition compares numbers, as long as the positions are those of a line. -/
theorem goesOn?_eq (hlow : low < 4294967296) (hupper : upper < 4294967296) :
    goesOn? upper.toUInt64 ⟨low.toUInt64, steps.toUInt64, b⟩ =
      some (decide (2 * low + 3 ≤ upper + 1)) := by
  have hdoubled : Word.product? 2 low.toUInt64 = some (2 * low).toUInt64 :=
    Word.product?_of_lt 2 low (by omega) (by omega) (by omega)
  have hreach : Word.sum? (2 * low).toUInt64 3 = some (2 * low + 3).toUInt64 :=
    Word.sum?_of_lt (2 * low) 3 (by omega)
  have hbound : Word.sum? upper.toUInt64 1 = some (upper + 1).toUInt64 :=
    Word.sum?_of_lt upper 1 (by omega)
  simp only [goesOn?, hdoubled, hreach, hbound, Option.bind_eq_bind, Option.bind_some,
    Option.pure_def, Word.toUInt64_le_iff (show 2 * low + 3 < 18446744073709551616 by omega)
      (show upper + 1 < 18446744073709551616 by omega)]

/-- A turn adds the crossings of one step. -/
theorem turn?_eq (hlow : low < 4294967296) (hsteps : steps + 1 < 18446744073709551616) :
    turn? ⟨low.toUInt64, steps.toUInt64, b⟩ =
      some ⟨(low + 2).toUInt64, (steps + 1).toUInt64,
        b.extend (.ofComponents (exchange low))⟩ := by
  have hi : Word.product? 2 low.toUInt64 = some (2 * low).toUInt64 :=
    Word.product?_of_lt 2 low (by omega) (by omega) (by omega)
  have ho : Word.sum? (2 * low).toUInt64 1 = some (2 * low + 1).toUInt64 :=
    Word.sum?_of_lt (2 * low) 1 (by omega)
  have hi1 : Word.sum? (2 * low).toUInt64 2 = some (2 * low + 2).toUInt64 :=
    Word.sum?_of_lt (2 * low) 2 (by omega)
  have ho1 : Word.sum? (2 * low).toUInt64 3 = some (2 * low + 3).toUInt64 :=
    Word.sum?_of_lt (2 * low) 3 (by omega)
  have hnext : Word.sum? low.toUInt64 2 = some (low + 2).toUInt64 :=
    Word.sum?_of_lt low 2 (by omega)
  have hcount : Word.sum? steps.toUInt64 1 = some (steps + 1).toUInt64 :=
    Word.sum?_of_lt steps 1 hsteps
  have hblock : (((b.push (cross (2 * low + 2) (2 * low + 1))).push
      (cross (2 * low + 1) (2 * low))).push (cross (2 * low + 3) (2 * low + 2))).push
      (cross (2 * low + 2) (2 * low + 1)) = b.extend (.ofComponents (exchange low)) := by
    simp [exchange, Block.push, Block.extend, Block.ofComponents]
  rw [← hblock]
  simp only [turn?, hi, ho, hi1, ho1, hnext, hcount, Option.bind_eq_bind, Option.bind_some,
    Option.pure_def, cross]

end Turn

/-- The loop makes a turn for each step of the network.  A position at which there is a
step is less than half of the upper one, so the loop never comes near the end of the
words. -/
theorem ends_starts {low upper : Nat} (hlow : low < 4294967296) (hupper : upper < 4294967296) :
    ∀ (steps : Nat) (b : Block), steps + (starts low upper).length < 18446744073709551616 →
      ∃ last : Ladder, Ends upper.toUInt64 ⟨low.toUInt64, steps.toUInt64, b⟩
          (starts low upper).length last ∧
        last.steps = (steps + (starts low upper).length).toUInt64 ∧
        last.block = b.extend (.ofComponents ((starts low upper).flatMap exchange)) := by
  fun_induction starts low upper with
  | case1 low h ih =>
      intro steps b hroom
      rw [List.length_cons] at hroom ⊢
      obtain ⟨last, hends, hsteps, hblock⟩ := ih (by omega) (steps + 1)
        (b.extend (.ofComponents (exchange low))) (by omega)
      refine ⟨last, .turn ?_ (turn?_eq b hlow (by omega)) hends, ?_, ?_⟩
      · rw [goesOn?_eq b hlow hupper, decide_eq_true h]
      · rw [hsteps, Nat.add_assoc, Nat.add_comm 1]
      · rw [hblock]
        simp [Block.extend, Block.ofComponents]
  | case2 low h =>
      intro steps b _
      refine ⟨_, .stop ?_, rfl, ?_⟩
      · rw [goesOn?_eq b hlow hupper, decide_eq_false h]
      · simp [Block.extend, Block.ofComponents]

end Ladder

/-! ## The steps of a network -/

/-- The number of steps of the network between two positions. -/
def stepsBetween (low upper : Nat) : Nat := (upper + 2 - 2 * low) / 4

theorem starts_eq_map (low upper : Nat) :
    starts low upper = (List.range (stepsBetween low upper)).map (low + 2 * ·) := by
  fun_induction starts low upper with
  | case1 low h ih =>
      have hsteps : stepsBetween low upper = stepsBetween (low + 2) upper + 1 := by
        unfold stepsBetween
        omega
      rw [ih, hsteps, List.range_succ_eq_map, List.map_cons, List.map_map]
      congr 1
      apply List.map_congr_left
      intro k _
      change low + 2 + 2 * k = low + 2 * (k + 1)
      omega
  | case2 low h =>
      have hsteps : stepsBetween low upper = 0 := by
        unfold stepsBetween
        omega
      rw [hsteps]
      rfl

/-- From any two positions of the line, the loop ends with the lines of the network. -/
theorem Ladder.exists_ends_iff (low upper : Qubit) :
    ∃ last : Ladder,
      (∀ (turns : Nat) (l : Ladder), Ends upper.index.toUInt64 (start low) turns l ↔
        turns = stepsBetween low.index upper.index ∧ l = last) ∧
      last.steps.toNat = stepsBetween low.index upper.index ∧
      last.block.pushBlank = networkBlock low.index upper.index := by
  have hlength : (starts low.index upper.index).length = stepsBetween low.index upper.index :=
    length_starts _ _
  have hroom : 0 + stepsBetween low.index upper.index < 18446744073709551616 := by
    have hupper := upper.index_lt
    unfold stepsBetween
    omega
  obtain ⟨last, hends, hsteps, hblock⟩ :=
    ends_starts low.index_lt upper.index_lt 0 .empty (hlength ▸ hroom)
  rw [hlength] at hends hsteps
  refine ⟨last, ?_, ?_, ?_⟩
  · intro turns l
    constructor
    · intro hl
      exact hl.unique hends
    · rintro ⟨rfl, rfl⟩
      exact hends
  · rw [hsteps, Word.toNat_toUInt64 hroom, Nat.zero_add]
  · rw [hblock]
    rfl

/-- Operands that come in order are never refused. -/
theorem network_outcome_of_le {low upper : Qubit} (h : low.index ≤ upper.index) :
    (network low upper).outcome = .ok (Lowering.routing low upper) := by
  by_cases hfar : low.index + 1 < upper.index
  · have hdistant : 1 < low.distance upper := by
      unfold Qubit.distance
      omega
    rw [network_outcome_of_distant hfar, Lowering.routing_of_distant hdistant,
      Nat.min_eq_left h, Nat.max_eq_right h]
  · have hnear : low.distance upper ≤ 1 := by
      unfold Qubit.distance
      omega
    rw [Lowering.routing_of_near (Nat.not_lt.mpr hnear), network, if_neg (Nat.not_lt.mpr h),
      if_pos hnear]
    rfl

theorem stepCount_of_le {low upper : Qubit} (h : low.index ≤ upper.index) :
    Lowering.stepCount low upper = stepsBetween low.index upper.index := by
  unfold Lowering.stepCount stepsBetween Qubit.distance
  rw [Nat.max_eq_right h, Nat.min_eq_left h]
  split_ifs <;> omega

section Neighbours

variable {low steps k : Nat}

theorem neighbour_first (hk : k < steps) :
    neighbour low steps (low + 2 * k) = low + 2 * k + 1 := by
  unfold neighbour
  split_ifs <;> omega

theorem neighbour_second (hk : k < steps) :
    neighbour low steps (low + 2 * k + 1) = low + 2 * k :=
  neighbour_eq_iff.mpr (neighbour_first hk).symm

/-- A position that belongs to no step has no neighbour. -/
theorem neighbour_of_forall_ne {position : Nat}
    (h : ∀ k < steps, position ≠ low + 2 * k ∧ position ≠ low + 2 * k + 1) :
    neighbour low steps position = position := by
  by_cases hbelow : position < low
  · exact neighbour_of_lt hbelow
  · by_cases habove : low + 2 * steps ≤ position
    · exact neighbour_of_le habove
    · have hstep := h ((position - low) / 2) (by omega)
      omega

end Neighbours

end Routing

/-! ## What a network does -/

namespace Layout

/-- Two positions have changed places from one layout to another, input rail with input
rail and output rail with output rail. -/
structure Exchanged (before after : Layout) (p q : Nat) : Prop where
  firstInput : after (2 * p) = before (2 * q)
  firstOutput : after (2 * p + 1) = before (2 * q + 1)
  secondInput : after (2 * q) = before (2 * p)
  secondOutput : after (2 * q + 1) = before (2 * p + 1)

/-- A position has kept its place, with both rails. -/
structure Kept (before after : Layout) (p : Nat) : Prop where
  input : after (2 * p) = before (2 * p)
  output : after (2 * p + 1) = before (2 * p + 1)

section Partners

variable {before after : Layout} {low steps : Nat}
  (h : ∀ rail, after rail = before (Routing.partner low steps rail))

include h

theorem exchanged_of_lt {k : Nat} (hk : k < steps) :
    before.Exchanged after (low + 2 * k) (low + 2 * k + 1) where
  firstInput := by rw [h, Routing.partner_input, Routing.neighbour_first hk]
  firstOutput := by rw [h, Routing.partner_output, Routing.neighbour_first hk]
  secondInput := by rw [h, Routing.partner_input, Routing.neighbour_second hk]
  secondOutput := by rw [h, Routing.partner_output, Routing.neighbour_second hk]

theorem kept_of_forall_ne {p : Nat}
    (hp : ∀ k < steps, p ≠ low + 2 * k ∧ p ≠ low + 2 * k + 1) : before.Kept after p where
  input := by rw [h, Routing.partner_input, Routing.neighbour_of_forall_ne hp]
  output := by rw [h, Routing.partner_output, Routing.neighbour_of_forall_ne hp]

end Partners

end Layout

namespace Routing

/-- A network is built for all operands that come in order.  Neighbours need no lines;
otherwise the lines are those of the steps, four crossings each, and a blank line, and
the loop ends with them after a turn for each step, without leaving the words.  In every
layout each step exchanges two neighbouring positions, all other positions keep their
places, that of the upper operand among them, and the network applied once more undoes
it all. -/
theorem network_exchanges_neighbours {low upper : Qubit} (h : low.index ≤ upper.index) :
    ∃ b : Block, (network low upper).outcome = .ok b ∧
      (upper.index - low.index ≤ 1 → b.lines = []) ∧
      (1 < upper.index - low.index →
        b.lines = ((List.range (stepsBetween low.index upper.index)).flatMap fun k =>
            exchange (low.index + 2 * k)).map Line.component ++ [.blank] ∧
          ∃ last : Ladder,
            (∀ (turns : Nat) (l : Ladder),
              Ladder.Ends upper.index.toUInt64 (.start low) turns l ↔
                turns = stepsBetween low.index upper.index ∧ l = last) ∧
            last.steps.toNat = stepsBetween low.index upper.index ∧
            last.block.pushBlank = b) ∧
      ∀ l : Layout,
        (∀ k < stepsBetween low.index upper.index,
          l.Exchanged (l.run b.components) (low.index + 2 * k) (low.index + 2 * k + 1)) ∧
        (∀ p : Nat, (∀ k < stepsBetween low.index upper.index,
            p ≠ low.index + 2 * k ∧ p ≠ low.index + 2 * k + 1) →
          l.Kept (l.run b.components) p) ∧
        l.Kept (l.run b.components) upper.index ∧
        (l.run b.components).run b.components = l := by
  refine ⟨_, network_outcome_of_le h, ?_, ?_, ?_⟩
  · intro hnear
    have hdistance : ¬ 1 < low.distance upper := by
      unfold Qubit.distance
      omega
    rw [Lowering.routing_of_near hdistance]
    rfl
  · intro hfar
    have hdistance : 1 < low.distance upper := by
      unfold Qubit.distance
      omega
    rw [Lowering.routing_of_distant hdistance, Nat.min_eq_left h, Nat.max_eq_right h]
    constructor
    · rw [networkBlock, starts_eq_map, List.flatMap_map]
    · exact Ladder.exists_ends_iff low upper
  · intro l
    have hrun : ∀ rail, l.run (Lowering.routing low upper).components rail =
        l (partner low.index (stepsBetween low.index upper.index) rail) := by
      intro rail
      rw [Layout.run_routing, stepCount_of_le h, Nat.min_eq_left h]
    refine ⟨?_, ?_, ?_, Layout.run_routing_twice l low upper⟩
    · intro k hk
      exact Layout.exchanged_of_lt hrun hk
    · intro p hp
      exact Layout.kept_of_forall_ne hrun hp
    · -- The last step ends below the upper operand.
      apply Layout.kept_of_forall_ne hrun
      intro k hk
      unfold stepsBetween at hk
      omega

/-- Between the positions 0 and 6 there are two steps, and nothing else moves. -/
theorem network_exchanges_zero_six :
    (Qubit.mk 0).index ≤ (Qubit.mk 6).index ∧
      ∃ b : Block, (network ⟨0⟩ ⟨6⟩).outcome = .ok b ∧
        b.lines = [.component (.crossing 2 1), .component (.crossing 1 0),
          .component (.crossing 3 2), .component (.crossing 2 1), .component (.crossing 6 5),
          .component (.crossing 5 4), .component (.crossing 7 6), .component (.crossing 6 5),
          .blank] ∧
        ∀ l : Layout, l.Exchanged (l.run b.components) 0 1 ∧ l.Exchanged (l.run b.components) 2 3 ∧
          (∀ p : Nat, 4 ≤ p → l.Kept (l.run b.components) p) ∧
          (l.run b.components).run b.components = l := by
  have hle : (Qubit.mk 0).index ≤ (Qubit.mk 6).index := by decide
  obtain ⟨b, hb, _, hfar, hlayout⟩ := network_exchanges_neighbours hle
  obtain ⟨hlines, _⟩ := hfar (by decide)
  refine ⟨hle, b, hb, hlines, ?_⟩
  intro l
  obtain ⟨hexchanged, hkept, _, htwice⟩ := hlayout l
  refine ⟨hexchanged 0 (by decide), hexchanged 1 (by decide), ?_, htwice⟩
  intro p hp
  apply hkept
  intro k hk
  have htwo : k < 2 := hk
  change p ≠ 0 + 2 * k ∧ p ≠ 0 + 2 * k + 1
  omega

end Routing

end DualRail
