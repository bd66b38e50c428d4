/-
  Where an instruction is placed.

  `Circuit.append` looks back for the last moment that acts on an operand and puts
  the instruction into the moment after it.  So the instruction enters the list of
  operations somewhere in the middle, but whatever it overtakes shares no qubit with
  it: the operations on any one qubit keep their order, with the instruction last
  if it acts on that qubit.
-/
import DualRail.Proofs.Soundness

set_option autoImplicit false

namespace DualRail

/-! ## Moments that leave qubits alone -/

namespace Instruction

theorem actsOn_eq_true_iff {i : Instruction} {q : Qubit} : i.actsOn q = true ↔ q ∈ i.qubits :=
  List.contains_iff_mem

/-- Two lists hold the same instructions, and on every qubit in the same order. -/
structure Rearranged (ops given : List Instruction) : Prop where
  perm : ops.Perm given
  perQubit : ∀ q : Qubit, ops.filter (·.actsOn q) = given.filter (·.actsOn q)

theorem Rearranged.refl (ops : List Instruction) : Rearranged ops ops where
  perm := List.Perm.refl ops
  perQubit := fun _ => rfl

theorem Rearranged.trans {ops middle given : List Instruction} (h : Rearranged ops middle)
    (h' : Rearranged middle given) : Rearranged ops given where
  perm := h.perm.trans h'.perm
  perQubit := fun q => (h.perQubit q).trans (h'.perQubit q)

theorem Rearranged.append_right {ops given : List Instruction} (h : Rearranged ops given)
    (rest : List Instruction) : Rearranged (ops ++ rest) (given ++ rest) where
  perm := h.perm.append_right rest
  perQubit := by
    intro q
    rw [List.filter_append, List.filter_append, h.perQubit]

end Instruction

namespace Moment

/-- A moment without operations. -/
def empty : Moment := ⟨[]⟩

/-- The moment with one more operation at its end. -/
def add (m : Moment) (i : Instruction) : Moment := ⟨m.operations ++ [i]⟩

theorem actsOnAny_eq_false_iff {m : Moment} {qubits : List Qubit} :
    m.actsOnAny qubits = false ↔ ∀ i ∈ m.operations, ∀ q ∈ i.qubits, q ∉ qubits := by
  simp only [actsOnAny, actsOn, List.any_eq_false, List.any_eq_true, Instruction.actsOn_eq_true_iff]
  constructor
  · intro h i hi q hq hqubits
    exact h q hqubits ⟨i, hi, hq⟩
  · rintro h q hqubits ⟨i, hi, hq⟩
    exact h i hi q hq hqubits

theorem actsOnAny_empty (qubits : List Qubit) : empty.actsOnAny qubits = false := by
  rw [actsOnAny_eq_false_iff]
  intro i hi
  exact absurd hi List.not_mem_nil

theorem Sound.empty (size : UInt32) : Moment.empty.Sound size where
  operations := by
    intro i hi
    exact absurd hi List.not_mem_nil
  independent := List.Pairwise.nil

theorem Sound.add {size : UInt32} {m : Moment} {i : Instruction} (hm : m.Sound size)
    (hi : i.Sound size) (hfree : m.actsOnAny i.qubits = false) : (m.add i).Sound size where
  operations := by
    intro j hj
    rcases List.mem_append.mp hj with hj | hj
    · exact hm.operations j hj
    · rw [List.mem_singleton.mp hj]
      exact hi
  independent := by
    rw [actsOnAny_eq_false_iff] at hfree
    refine List.pairwise_append.mpr ⟨hm.independent, List.pairwise_singleton _ _, ?_⟩
    intro j hj k hk
    rw [List.mem_singleton.mp hk]
    exact hfree j hj

end Moment

namespace Circuit

/-! ## The slot of an instruction -/

theorem slot_le_length (qubits : List Qubit) (ms : List Moment) :
    slot qubits ms ≤ ms.length := by
  fun_induction slot qubits ms with
  | case1 => exact Nat.le_refl 0
  | case2 m rest hrest hacts ih => exact Nat.succ_le_succ (Nat.zero_le _)
  | case3 m rest hrest hacts ih => exact Nat.zero_le _
  | case4 m rest k hrest ih =>
      rw [hrest] at ih
      exact Nat.succ_le_succ ih

/-- No moment from the slot on acts on one of the qubits. -/
theorem actsOnAny_of_mem_drop_slot {qubits : List Qubit} {ms : List Moment} {m : Moment}
    (hm : m ∈ ms.drop (slot qubits ms)) : m.actsOnAny qubits = false := by
  fun_induction slot qubits ms with
  | case1 => exact absurd hm List.not_mem_nil
  | case2 first rest hrest hacts ih =>
      rw [hrest] at ih
      exact ih hm
  | case3 first rest hrest hacts ih =>
      rw [hrest] at ih
      rcases List.mem_cons.mp hm with rfl | hm
      · exact Bool.not_eq_true _ ▸ hacts
      · exact ih hm
  | case4 first rest k hrest ih =>
      rw [hrest] at ih
      exact ih hm

/-! ## The moments after an instruction has been placed -/

theorem place_of_lt (i : Instruction) {index : Nat} {ms : List Moment} {m : Moment}
    (hm : ms[index]? = some m) : place i index ms = ms.set index (m.add i) := by
  fun_induction place i index ms with
  | case1 index => exact absurd hm (by simp)
  | case2 first rest =>
      rw [List.getElem?_cons_zero, Option.some.injEq] at hm
      rw [hm]
      rfl
  | case3 index first rest ih =>
      rw [List.getElem?_cons_succ] at hm
      rw [ih hm, List.set_cons_succ]

theorem place_append (i : Instruction) (before rest : List Moment) :
    place i before.length (before ++ rest) = before ++ place i 0 rest := by
  induction before with
  | nil => rfl
  | cons m before ih => exact congrArg (m :: ·) ih

theorem place_length (i : Instruction) (ms : List Moment) :
    place i ms.length ms = ms ++ [Moment.empty.add i] := by
  have h := place_append i ms []
  rwa [List.append_nil] at h

/-- A moment after the placement was there before, or it is the one with the given
index, or a new one, with the instruction at its end. -/
theorem mem_place {i : Instruction} {index : Nat} {ms : List Moment} {m : Moment}
    (hm : m ∈ place i index ms) :
    m ∈ ms ∨ ∃ old, (old = Moment.empty ∨ old ∈ ms.drop index) ∧ m = old.add i := by
  fun_induction place i index ms with
  | case1 index =>
      right
      exact ⟨Moment.empty, .inl rfl, List.mem_singleton.mp hm⟩
  | case2 first rest =>
      rcases List.mem_cons.mp hm with rfl | hm
      · right
        exact ⟨first, .inr List.mem_cons_self, rfl⟩
      · left
        exact List.mem_cons_of_mem _ hm
  | case3 index first rest ih =>
      rcases List.mem_cons.mp hm with rfl | hm
      · left
        exact List.mem_cons_self
      · rcases ih hm with hold | hnew
        · left
          exact List.mem_cons_of_mem _ hold
        · right
          exact hnew

theorem ne_nil_of_mem_place {i : Instruction} {index : Nat} {ms : List Moment} {m : Moment}
    (h : ∀ m ∈ ms, m.operations ≠ []) (hm : m ∈ place i index ms) : m.operations ≠ [] := by
  rcases mem_place hm with hm | ⟨old, _, rfl⟩
  · exact h m hm
  · simp [Moment.add]

/-- The instruction stands after the operations of the moment with the given index
and before those of the next one. -/
theorem operations_place (i : Instruction) (index : Nat) (ms : List Moment) :
    (place i index ms).flatMap (·.operations) =
      (ms.take (index + 1)).flatMap (·.operations) ++
        i :: (ms.drop (index + 1)).flatMap (·.operations) := by
  fun_induction place i index ms with
  | case1 index => rfl
  | case2 first rest => simp
  | case3 index first rest ih => simp [ih]

section Slot

variable (i : Instruction) (ms : List Moment)

theorem perm_place_slot :
    ((place i (slot i.qubits ms) ms).flatMap (·.operations)).Perm
      (ms.flatMap (·.operations) ++ [i]) := by
  rw [operations_place]
  refine List.perm_middle.trans ?_
  rw [← List.flatMap_append, List.take_append_drop]
  exact (List.perm_append_singleton i _).symm

/-- Nothing that the instruction overtakes acts on one of its operands. -/
theorem not_actsOn_of_overtaken {j : Instruction} {q : Qubit} (hq : q ∈ i.qubits)
    (hj : j ∈ (ms.drop (slot i.qubits ms + 1)).flatMap (·.operations)) : ¬ j.actsOn q = true := by
  obtain ⟨m, hm, hjm⟩ := List.mem_flatMap.mp hj
  have hdrop : m ∈ ms.drop (slot i.qubits ms) := by
    rw [← List.tail_drop] at hm
    exact List.mem_of_mem_tail hm
  have hfree := Moment.actsOnAny_eq_false_iff.mp (actsOnAny_of_mem_drop_slot hdrop)
  rw [Instruction.actsOn_eq_true_iff]
  intro hjq
  exact hfree j hjm q hjq hq

/-- On every qubit the instruction comes last, if it acts on it at all. -/
theorem filter_place_slot (q : Qubit) :
    ((place i (slot i.qubits ms) ms).flatMap (·.operations)).filter (·.actsOn q) =
      (ms.flatMap (·.operations) ++ [i]).filter (·.actsOn q) := by
  have hsplit : ms.flatMap (·.operations) =
      (ms.take (slot i.qubits ms + 1)).flatMap (·.operations) ++
        (ms.drop (slot i.qubits ms + 1)).flatMap (·.operations) := by
    rw [← List.flatMap_append, List.take_append_drop]
  rw [operations_place, hsplit, List.append_assoc, List.filter_append, List.filter_append]
  congr 1
  by_cases hq : q ∈ i.qubits
  · have hlater : ((ms.drop (slot i.qubits ms + 1)).flatMap (·.operations)).filter
        (·.actsOn q) = [] := by
      rw [List.filter_eq_nil_iff]
      intro j hj
      exact not_actsOn_of_overtaken i ms hq hj
    have hkept : ∀ rest : List Instruction,
        (i :: rest).filter (·.actsOn q) = i :: rest.filter (·.actsOn q) :=
      fun rest => List.filter_cons_of_pos (Instruction.actsOn_eq_true_iff.mpr hq)
    rw [hkept, List.filter_append, hlater, List.nil_append, hkept, List.filter_nil]
  · have hdropped : ∀ rest : List Instruction,
        (i :: rest).filter (·.actsOn q) = rest.filter (·.actsOn q) :=
      fun rest => List.filter_cons_of_neg fun h => hq (Instruction.actsOn_eq_true_iff.mp h)
    rw [hdropped, List.filter_append, hdropped, List.filter_nil, List.append_nil]

end Slot

/-! ## Circuits -/

theorem append_eq_ok_iff {c d : Circuit} {i : Instruction} :
    c.append i = .ok d ↔
      i.Sound c.size ∧
        d = { c with moments := place i (slot i.qubits c.moments) c.moments } := by
  rw [append, then_return_eq_ok_iff, Instruction.check_eq_ok_iff]

theorem pushMoment_eq_ok_iff {c d : Circuit} {m : Moment} :
    c.pushMoment m = .ok d ↔ m.Sound c.size ∧ d = { c with moments := c.moments ++ [m] } := by
  rw [pushMoment, then_return_eq_ok_iff, Moment.check_eq_ok_iff]

theorem Sound.empty (name : String) (size : UInt32) : (Circuit.empty name size).Sound := by
  intro m hm
  exact absurd hm List.not_mem_nil

/-- The moment at the slot leaves the operands alone, so the instruction is
independent of all its operations. -/
theorem Sound.append {c d : Circuit} {i : Instruction} (hc : c.Sound) (h : c.append i = .ok d) :
    d.Sound := by
  obtain ⟨hi, rfl⟩ := append_eq_ok_iff.mp h
  intro m hm
  rcases mem_place hm with hm | ⟨old, rfl | hold, rfl⟩
  · exact hc m hm
  · exact (Moment.Sound.empty c.size).add hi (Moment.actsOnAny_empty i.qubits)
  · exact (hc old (List.mem_of_mem_drop hold)).add hi (actsOnAny_of_mem_drop_slot hold)

theorem operations_append {c d : Circuit} {i : Instruction} (h : c.append i = .ok d) :
    Instruction.Rearranged d.operations (c.operations ++ [i]) := by
  obtain ⟨_, rfl⟩ := append_eq_ok_iff.mp h
  exact ⟨perm_place_slot i c.moments, filter_place_slot i c.moments⟩

theorem Sound.pushMoment {c d : Circuit} {m : Moment} (hc : c.Sound)
    (h : c.pushMoment m = .ok d) : d.Sound := by
  obtain ⟨hm, rfl⟩ := pushMoment_eq_ok_iff.mp h
  intro n hn
  rcases List.mem_append.mp hn with hn | hn
  · exact hc n hn
  · rw [List.mem_singleton.mp hn]
    exact hm

theorem operations_pushMoment {c d : Circuit} {m : Moment} (h : c.pushMoment m = .ok d) :
    d.operations = c.operations ++ m.operations := by
  obtain ⟨_, rfl⟩ := pushMoment_eq_ok_iff.mp h
  simp [operations]

theorem toNat_size_addQubit {c : Circuit} (h : c.size.toNat + 1 < 4294967296) :
    c.addQubit.2.size.toNat = c.size.toNat + 1 := by
  change (c.size + 1).toNat = _
  rw [UInt32.toNat_add]
  exact Nat.mod_eq_of_lt h

theorem Sound.addQubit {c : Circuit} (hc : c.Sound) (h : c.size.toNat + 1 < 4294967296) :
    c.addQubit.2.Sound := by
  intro m hm
  refine (hc m hm).mono ?_
  rw [toNat_size_addQubit h]
  exact Nat.le_succ _

end Circuit

end DualRail
