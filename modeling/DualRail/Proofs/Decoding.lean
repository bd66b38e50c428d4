/-
  Reading operations back from lines.

  The lines of a program do not say where an operation ends: a blank line stands
  after every operation, but also inside a routed controlled not, and a network
  without steps is nothing but a blank line.  The first two lines still tell the
  kind of the operation that comes first.  One component and a blank line are H or
  X; anything else is a controlled not, whose operands are those of its first two
  couplers.  `GateOp.first?` reads the first operation in this way, whatever comes
  after it, so the lines of operations form a prefix-free code and a sequence of
  operations is determined by its lines, and by its text.
-/
import DualRail.Proofs.Rendering
import DualRail.Proofs.Translation

set_option autoImplicit false

namespace DualRail

/-! ## Operands -/

namespace Qubit

/-- The qubit that owns a rail. -/
def ofRail (rail : UInt64) : Qubit := ⟨(rail.toNat / 2).toUInt32⟩

theorem ofRail_eq {rail : UInt64} {q : Qubit} (h : rail.toNat / 2 = q.index) :
    ofRail rail = q := by
  apply ext_index
  have hlt := q.index_lt
  simp only [ofRail, index, Nat.toUInt32, UInt32.toNat_ofNat'] at *
  omega

end Qubit

namespace RailPair

theorem ofRail_output (q : Qubit) : Qubit.ofRail (ofQubit q).output = q :=
  Qubit.ofRail_eq (by rw [toNat_output]; omega)

end RailPair

/-! ## The operation that comes first -/

namespace Line

/-- Whether the line is a coupler. -/
def isCoupler : Line → Bool
  | component c => c.part == .directionalStandard
  | blank => false

end Line

namespace GateOp

/-- The operation that consists of one component. -/
def single? (c : Component) : Option GateOp :=
  match c.part, c.input.first with
  | .directionalStandard, .rail r => some (h (.ofRail r))
  | .crossing, .rail r => some (x (.ofRail r))
  | _, _ => none

/-- The controlled not whose couplers stand first: the first coupler is on the
target and the second on the control. -/
def pair? : List Line → Option GateOp
  | .component onTarget :: .component onControl :: _ =>
      match onTarget.input.first, onControl.input.second with
      | .rail t, .rail c => some (cnot (.ofRail c) (.ofRail t))
      | _, _ => none
  | _ => none

/-- The operation whose lines come first. -/
def first? (lines : List Line) : Option GateOp :=
  match lines with
  | .component c :: .blank :: _ => single? c
  | _ => pair? (lines.dropWhile fun l => !l.isCoupler)

/-- The lines of an operation in a program, with the blank line after it. -/
def lines (op : GateOp) : List Line := op.block.lines ++ [.blank]

end GateOp

namespace Lowering

/-- A network begins with two crossings, or is a blank line, or is not there. -/
theorem routing_lines_cases (control target : Qubit) :
    (routing control target).lines = [] ∨ (routing control target).lines = [.blank] ∨
      ∃ a b rest, (routing control target).lines = .component a :: .component b :: rest := by
  by_cases h : 1 < control.distance target
  · right
    rw [routing_of_distant h, Routing.networkBlock]
    cases hstarts : Routing.starts (min control.index target.index)
        (max control.index target.index) with
    | nil => exact .inl rfl
    | cons p ps => exact .inr ⟨_, _, _, rfl⟩
  · left
    rw [routing_of_near h]
    rfl

theorem isCoupler_of_mem_routing {control target : Qubit} {l : Line}
    (hl : l ∈ (routing control target).lines) : l.isCoupler = false := by
  rcases mem_lines_routing hl with rfl | ⟨a, b, rfl⟩
  · rfl
  · rfl

end Lowering

namespace GateOp

/-- The couplers of a controlled not are found behind any lines without couplers. -/
theorem pair?_dropWhile {skipped : List Line} (control target : Qubit) (rest : List Line)
    (hskipped : ∀ l ∈ skipped, l.isCoupler = false) :
    pair? ((skipped ++ ((Lowering.cnotBody control target).lines ++ rest)).dropWhile
      fun l => !l.isCoupler) = some (cnot control target) := by
  rw [List.dropWhile_append_of_pos (by simpa using hskipped)]
  change some (cnot (.ofRail (RailPair.ofQubit control).output)
    (.ofRail (RailPair.ofQubit target).output)) = some (cnot control target)
  rw [RailPair.ofRail_output, RailPair.ofRail_output]

theorem first?_cnot (control target : Qubit) (rest : List Line) :
    first? ((cnot control target).lines ++ rest) = some (cnot control target) := by
  have hlines : (cnot control target).lines ++ rest =
      (Lowering.routing control target).lines ++ ((Lowering.cnotBody control target).lines ++
        ((Lowering.routing control target).lines ++ (.blank :: rest))) := by
    simp [lines, block, Block.extend]
  have hskipped : ∀ l ∈ (Lowering.routing control target).lines, l.isCoupler = false := by
    intro l hl
    exact Lowering.isCoupler_of_mem_routing hl
  have hpair := pair?_dropWhile control target
    ((Lowering.routing control target).lines ++ (.blank :: rest)) hskipped
  rw [hlines]
  -- In each of the three shapes a controlled not does not begin with one component
  -- and a blank line.
  rcases Lowering.routing_lines_cases control target with hr | hr | ⟨a, b, more, hr⟩
  all_goals
    rw [hr] at hpair ⊢
    exact hpair

/-- The first operation is read off whatever lines come after it. -/
theorem first?_lines (op : GateOp) (rest : List Line) :
    first? (op.lines ++ rest) = some op := by
  cases op with
  | cnot control target => exact first?_cnot control target rest
  | h q =>
      change some (h (.ofRail (RailPair.ofQubit q).output)) = some (h q)
      rw [RailPair.ofRail_output]
  | x q =>
      change some (x (.ofRail (RailPair.ofQubit q).output)) = some (x q)
      rw [RailPair.ofRail_output]

/-! ## Sequences of operations -/

theorem lines_prefixFree {a b : GateOp} {x y : List Line} (h : a.lines ++ x = b.lines ++ y) :
    a = b ∧ x = y := by
  have hfirst := first?_lines a x
  rw [h, first?_lines b y] at hfirst
  have hab : a = b := (Option.some.inj hfirst).symm
  subst hab
  exact ⟨rfl, List.append_cancel_left h⟩

theorem lines_ne_nil (op : GateOp) : op.lines ≠ [] := by
  simp [lines]

/-- A sequence of operations is determined by its lines. -/
theorem flatMap_lines_injective :
    ∀ {as bs : List GateOp}, as.flatMap lines = bs.flatMap lines → as = bs := by
  intro as
  induction as with
  | nil =>
      intro bs h
      cases bs with
      | nil => rfl
      | cons b bs =>
          rw [List.flatMap_nil, List.flatMap_cons] at h
          exact absurd (List.append_eq_nil_iff.mp h.symm).1 b.lines_ne_nil
  | cons a as ih =>
      intro bs h
      cases bs with
      | nil =>
          rw [List.flatMap_nil, List.flatMap_cons] at h
          exact absurd (List.append_eq_nil_iff.mp h).1 a.lines_ne_nil
      | cons b bs =>
          rw [List.flatMap_cons, List.flatMap_cons] at h
          obtain ⟨hab, hrest⟩ := lines_prefixFree h
          rw [hab, ih hrest]

theorem program_lines (ops : List GateOp) :
    (Program.mk (ops.map block)).lines = ops.flatMap lines := by
  simp only [Program.lines, List.flatMap_map]
  rfl

/-- A sequence of operations is determined by the text of its program. -/
theorem render_blocks_eq_iff (as bs : List GateOp) :
    (Program.mk (as.map block)).render = (Program.mk (bs.map block)).render ↔ as = bs := by
  rw [Program.render_eq_iff, program_lines, program_lines]
  constructor
  · intro h
    exact flatMap_lines_injective h
  · intro h
    rw [h]

end GateOp

namespace Compiler

/-- Translation always gives a text, and two circuits get the same text exactly
when they have the same lowerable operations in the same order: the same CX
instructions on two qubits and H and X instructions on one, whatever stands between
them. -/
theorem render_lowerCircuit_eq_iff (k₁ k₂ : Compiler) (c₁ c₂ : Circuit) :
    ∃ p₁ p₂ : Program,
      (k₁.lowerCircuit c₁).outcome = .ok p₁ ∧ (k₂.lowerCircuit c₂).outcome = .ok p₂ ∧
        (p₁.render = p₂.render ↔ c₁.lowerable = c₂.lowerable) ∧
        (p₁.render = p₂.render ↔
          c₁.operations.filter Instruction.isLowerable =
            c₂.operations.filter Instruction.isLowerable) ∧
        c₁.lowerable.map GateOp.instruction = c₁.operations.filter Instruction.isLowerable := by
  have hrender := GateOp.render_blocks_eq_iff c₁.lowerable c₂.lowerable
  refine ⟨_, _, lowerCircuit_outcome k₁ c₁, lowerCircuit_outcome k₂ c₂, hrender, ?_,
    c₁.map_instruction_lowerable⟩
  rw [hrender]
  exact c₁.lowerable_eq_iff c₂

end Compiler

end DualRail
