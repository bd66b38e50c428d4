/-
  Where the waveguides lie.

  Waveguides are named after the rails on which they start.  A crossing exchanges
  what lies on its two rails and no other component moves anything, so a list of
  components turns one layout of the waveguides into another (`Layout.run`).

  One step of a routing network exchanges two neighbouring positions rail for
  rail.  The steps are two positions apart and never touch the same position, so
  the whole network is an exchange of neighbours too (`Routing.neighbour`): run
  twice it does nothing, whatever the layout is in which it starts.
-/
import Mathlib.Logic.Equiv.Basic
import DualRail.Proofs.Translation

set_option autoImplicit false

namespace DualRail

/-- The waveguide that lies on each rail. -/
abbrev Layout := Equiv.Perm Nat

namespace Layout

/-- Every waveguide lies on the rail after which it is named. -/
def initial : Layout := Equiv.refl Nat

/-- The layout after what lies on two rails has been exchanged. -/
def exchange (l : Layout) (a b : Nat) : Layout := (Equiv.swap a b).trans l

/-- The layout after a component: a crossing exchanges what lies on its rails. -/
def step (l : Layout) (c : Component) : Layout :=
  match c.part, c.input.first, c.input.second with
  | .crossing, .rail a, .rail b => l.exchange a.toNat b.toNat
  | _, _, _ => l

/-- The layout after a list of components, the first of which comes first. -/
def run (l : Layout) (cs : List Component) : Layout := cs.foldl step l

theorem initial_apply (rail : Nat) : initial rail = rail := rfl

theorem exchange_apply (l : Layout) (a b rail : Nat) :
    l.exchange a b rail = l (Equiv.swap a b rail) := rfl

theorem step_crossing (l : Layout) (a b : UInt64) :
    l.step (.crossing a b) = l.exchange a.toNat b.toNat := rfl

theorem step_coupler (l : Layout) (a b : Port) : l.step (.coupler a b) = l := rfl

theorem run_nil (l : Layout) : l.run [] = l := rfl

theorem run_cons (l : Layout) (c : Component) (cs : List Component) :
    l.run (c :: cs) = (l.step c).run cs := rfl

theorem run_append (l : Layout) (cs ds : List Component) :
    l.run (cs ++ ds) = (l.run cs).run ds := List.foldl_append

end Layout

/-! ## Networks -/

namespace Routing

/-- The position with which a network of `steps` steps from the position `low` on
exchanges a position: the other one of the same step, or itself outside the
network. -/
def neighbour (low steps position : Nat) : Nat :=
  if low ≤ position ∧ position < low + 2 * steps then
    if (position - low) % 2 = 0 then position + 1 else position - 1
  else position

/-- The same rail of the neighbour. -/
def partner (low steps rail : Nat) : Nat := 2 * neighbour low steps (rail / 2) + rail % 2

theorem neighbour_of_lt {low steps position : Nat} (h : position < low) :
    neighbour low steps position = position := by
  unfold neighbour
  rw [if_neg (by omega)]

theorem neighbour_of_le {low steps position : Nat} (h : low + 2 * steps ≤ position) :
    neighbour low steps position = position := by
  unfold neighbour
  rw [if_neg (by omega)]

theorem neighbour_self (low steps : Nat) :
    neighbour low steps low = if 0 < steps then low + 1 else low := by
  unfold neighbour
  split_ifs <;> omega

theorem neighbour_zero (low position : Nat) : neighbour low 0 position = position := by
  unfold neighbour
  rw [if_neg (by omega)]

theorem neighbour_neighbour (low steps position : Nat) :
    neighbour low steps (neighbour low steps position) = position := by
  unfold neighbour
  split_ifs <;> omega

theorem neighbour_eq_iff {low steps p q : Nat} :
    neighbour low steps p = q ↔ p = neighbour low steps q := by
  constructor
  · rintro rfl
    exact (neighbour_neighbour low steps p).symm
  · rintro rfl
    exact neighbour_neighbour low steps q

/-- The first step does not touch what the later steps exchange. -/
theorem neighbour_succ (low steps position : Nat) :
    neighbour low 1 (neighbour (low + 2) steps position) = neighbour low (steps + 1) position := by
  unfold neighbour
  split_ifs <;> omega

theorem partner_div_two (low steps rail : Nat) :
    partner low steps rail / 2 = neighbour low steps (rail / 2) := by
  unfold partner
  omega

theorem partner_mod_two (low steps rail : Nat) : partner low steps rail % 2 = rail % 2 := by
  unfold partner
  omega

theorem partner_zero (low rail : Nat) : partner low 0 rail = rail := by
  rw [partner, neighbour_zero, Nat.div_add_mod]

theorem partner_partner (low steps rail : Nat) :
    partner low steps (partner low steps rail) = rail := by
  rw [partner, partner_div_two, partner_mod_two, neighbour_neighbour, Nat.div_add_mod]

theorem partner_succ (low steps rail : Nat) :
    partner low 1 (partner (low + 2) steps rail) = partner low (steps + 1) rail := by
  rw [partner, partner_div_two, partner_mod_two, neighbour_succ, partner]

theorem partner_input (low steps position : Nat) :
    partner low steps (2 * position) = 2 * neighbour low steps position := by
  rw [partner, Nat.mul_div_cancel_left _ Nat.two_pos, Nat.mul_mod_right, Nat.add_zero]

theorem partner_output (low steps position : Nat) :
    partner low steps (2 * position + 1) = 2 * neighbour low steps position + 1 := by
  have hdiv : (2 * position + 1) / 2 = position := by omega
  have hmod : (2 * position + 1) % 2 = 1 := by omega
  rw [partner, hdiv, hmod]

theorem length_starts (low upper : Nat) :
    (starts low upper).length = (upper + 2 - 2 * low) / 4 := by
  fun_induction starts low upper with
  | case1 low h ih =>
      rw [List.length_cons, ih]
      omega
  | case2 low h =>
      rw [List.length_nil]
      omega

theorem components_networkBlock (low upper : Nat) :
    (networkBlock low upper).components = (starts low upper).flatMap exchange := by
  have hsplit : networkBlock low upper =
      (Block.ofComponents ((starts low upper).flatMap exchange)).extend ⟨[.blank]⟩ := rfl
  rw [hsplit, Block.components_extend, Block.components_ofComponents]
  exact List.append_nil _

end Routing

namespace Word

/-- A number that fits is its own word. -/
theorem toNat_toUInt64 {n : Nat} (h : n < 18446744073709551616) : n.toUInt64.toNat = n := by
  simp only [Nat.toUInt64, UInt64.toNat_ofNat']
  exact Nat.mod_eq_of_lt h

end Word

namespace Layout

theorem step_cross (l : Layout) {a b : Nat} (ha : a < 18446744073709551616)
    (hb : b < 18446744073709551616) : l.step (Routing.cross a b) = l.exchange a b := by
  rw [Routing.cross, step_crossing, Word.toNat_toUInt64 ha, Word.toNat_toUInt64 hb]

/-- Four crossings exchange two neighbouring positions, input rail with input rail
and output rail with output rail. -/
theorem swaps_eq_partner (p rail : Nat) :
    Equiv.swap (2 * p + 2) (2 * p + 1) (Equiv.swap (2 * p + 1) (2 * p)
      (Equiv.swap (2 * p + 3) (2 * p + 2) (Equiv.swap (2 * p + 2) (2 * p + 1) rail))) =
      Routing.partner p 1 rail := by
  have hlower : Routing.neighbour p 1 p = p + 1 := Routing.neighbour_self p 1
  have hhigher : Routing.neighbour p 1 (p + 1) = p := Routing.neighbour_eq_iff.mpr hlower.symm
  have hrail : rail = 2 * p ∨ rail = 2 * p + 1 ∨ rail = 2 * (p + 1) ∨ rail = 2 * (p + 1) + 1 ∨
      (rail < 2 * p ∨ 2 * p + 3 < rail) := by omega
  -- The four rails of the step are evaluated, the others are fixed by every crossing.
  rcases hrail with rfl | rfl | rfl | rfl | hrail
  · rw [Routing.partner_input, hlower]
    simp [Equiv.swap_apply_def, Nat.mul_add]
  · rw [Routing.partner_output, hlower]
    simp [Equiv.swap_apply_def, Nat.mul_add]
  · rw [Routing.partner_input, hhigher]
    simp [Equiv.swap_apply_def, Nat.mul_add]
  · rw [Routing.partner_output, hhigher]
    simp [Equiv.swap_apply_def, Nat.mul_add]
  · have hfixed : ∀ {a b : Nat}, 2 * p ≤ a ∧ a ≤ 2 * p + 3 → 2 * p ≤ b ∧ b ≤ 2 * p + 3 →
        Equiv.swap a b rail = rail := by
      intro a b ha hb
      exact Equiv.swap_apply_of_ne_of_ne (by omega) (by omega)
    have houtside : Routing.neighbour p 1 (rail / 2) = rail / 2 := by
      rcases hrail with hbelow | habove
      · exact Routing.neighbour_of_lt (by omega)
      · exact Routing.neighbour_of_le (by omega)
    rw [hfixed (by omega) (by omega), hfixed (by omega) (by omega), hfixed (by omega) (by omega),
      hfixed (by omega) (by omega), Routing.partner, houtside, Nat.div_add_mod]

theorem run_exchange (l : Layout) {p : Nat} (hp : 2 * p + 3 < 18446744073709551616) (rail : Nat) :
    l.run (Routing.exchange p) rail = l (Routing.partner p 1 rail) := by
  simp only [Routing.exchange, run_cons, run_nil]
  rw [step_cross _ (by omega) (by omega), step_cross _ (by omega) (by omega),
    step_cross _ (by omega) (by omega), step_cross _ (by omega) (by omega)]
  exact congrArg l (swaps_eq_partner p rail)

/-- A network exchanges every rail with its partner. -/
theorem run_networkBlock {low upper : Nat} (hupper : upper < 4294967296) (rail : Nat) :
    ∀ l : Layout, l.run (Routing.networkBlock low upper).components rail =
      l (Routing.partner low (Routing.starts low upper).length rail) := by
  rw [Routing.components_networkBlock]
  fun_induction Routing.starts low upper with
  | case1 low h ih =>
      -- The guard of a step bounds the rails it names, so none of them wraps around.
      intro l
      rw [List.flatMap_cons, run_append, ih, run_exchange l (by omega), Routing.partner_succ,
        List.length_cons]
  | case2 low h =>
      intro l
      rw [List.length_nil, Routing.partner_zero]
      rfl

end Layout

/-! ## The network of a controlled not -/

namespace Lowering

/-- The number of steps of the network around the body of a controlled not. -/
def stepCount (control target : Qubit) : Nat :=
  if 1 < control.distance target then
    (max control.index target.index + 2 - 2 * min control.index target.index) / 4
  else 0

end Lowering

namespace Layout

theorem run_routing (l : Layout) (control target : Qubit) (rail : Nat) :
    l.run (Lowering.routing control target).components rail =
      l (Routing.partner (min control.index target.index)
        (Lowering.stepCount control target) rail) := by
  by_cases h : 1 < control.distance target
  · have hmax : max control.index target.index < 4294967296 :=
      Nat.max_lt.mpr ⟨control.index_lt, target.index_lt⟩
    rw [Lowering.routing_of_distant h, run_networkBlock hmax, Routing.length_starts,
      Lowering.stepCount, if_pos h]
  · rw [Lowering.routing_of_near h, Lowering.stepCount, if_neg h, Routing.partner_zero]
    rfl

/-- The same network once more puts everything back. -/
theorem run_routing_twice (l : Layout) (control target : Qubit) :
    (l.run (Lowering.routing control target).components).run
      (Lowering.routing control target).components = l := by
  apply Equiv.ext
  intro rail
  rw [run_routing, run_routing, Routing.partner_partner]

end Layout

end DualRail
