/-
  Verifying a circuit and building it again.

  A circuit that comes from elsewhere is verified in one walk over its moments.  The
  same circuit could be built anew, moment after moment, by calls that check each
  moment when it is added.  The two agree in everything: the walk succeeds exactly
  when the building does, which then gives the circuit back, and where the walk
  stops the building stops with the same error (`pushMoments_eq_verifyFrom`).

  The check for overlaps looks at the operands of a whole moment and would also find
  an operand that one instruction repeats.  It never does, because the instructions
  have been checked before: what it finds is shared by two operations.
-/
import DualRail.Proofs.Placement

set_option autoImplicit false

namespace DualRail

/-! ## Overlaps -/

namespace Qubit

/-- A repeat has been seen before, or is there twice. -/
theorem sublist_of_firstRepeat {q : Qubit} {qubits : List Qubit} :
    ∀ {seen : List Qubit}, firstRepeat seen qubits = some q →
      (q ∈ seen ∧ q ∈ qubits) ∨ [q, q].Sublist qubits := by
  induction qubits with
  | nil =>
      intro seen h
      cases h
  | cons p rest ih =>
      intro seen h
      rw [firstRepeat] at h
      split at h
      · rename_i hseen
        cases h
        exact .inl ⟨hseen, List.mem_cons_self⟩
      · rcases ih h with ⟨hq, hrest⟩ | htwice
        · rcases List.mem_cons.mp hq with rfl | hq
          · exact .inr ((List.singleton_sublist.mpr hrest).cons_cons q)
          · exact .inl ⟨hq, List.mem_cons_of_mem p hrest⟩
        · exact .inr (htwice.cons p)

end Qubit

namespace Instruction

/-- A qubit that occurs twice among the operands of instructions that do not repeat
theirs is an operand of two of them. -/
theorem exists_sharing {q : Qubit} {ops : List Instruction} (hops : ∀ i ∈ ops, i.qubits.Nodup)
    (h : [q, q].Sublist (ops.flatMap (·.qubits))) :
    ∃ i j : Instruction, [i, j].Sublist ops ∧ i.actsOn q = true ∧ j.actsOn q = true := by
  induction ops with
  | nil => cases h
  | cons i rest ih =>
      obtain ⟨hi, hrest⟩ := List.forall_mem_cons.mp hops
      rw [List.flatMap_cons, List.sublist_append_iff] at h
      obtain ⟨here, later, hsplit, hhere, hlater⟩ := h
      -- Both occurrences lie further on, or one lies here, or both do.
      rcases here with _ | ⟨p, _ | ⟨p', more⟩⟩
      · subst hsplit
        obtain ⟨j, k, hjk, hj, hk⟩ := ih hrest hlater
        exact ⟨j, k, hjk.cons i, hj, hk⟩
      · cases hsplit
        obtain ⟨j, hj, hq⟩ := List.mem_flatMap.mp (List.singleton_sublist.mp hlater)
        refine ⟨i, j, (List.singleton_sublist.mpr hj).cons_cons i, ?_, ?_⟩
        · exact actsOn_eq_true_iff.mpr (List.singleton_sublist.mp hhere)
        · exact actsOn_eq_true_iff.mpr hq
      · simp only [List.cons_append, List.cons.injEq, List.nil_eq,
          List.append_eq_nil_iff] at hsplit
        obtain ⟨rfl, rfl, rfl, _⟩ := hsplit
        exact absurd hhere (List.nodup_iff_sublist.mp hi q)

/-- An error that is found in an instruction is none of a whole moment. -/
theorem check_ne_overlapping {size : UInt32} {i : Instruction} {index : Nat} {q : Qubit} :
    i.check size ≠ .error (.overlappingMoment index q) := by
  have hoperands : ∀ (qubits seen : List Qubit),
      checkOperands i.name size seen qubits ≠ .error (.overlappingMoment index q) := by
    intro qubits
    induction qubits with
    | nil =>
        intro seen h
        cases h
    | cons p rest ih =>
        intro seen
        rw [checkOperands]
        split
        · intro h
          cases h
        · split
          · intro h
            cases h
          · exact ih (p :: seen)
  have harity : i.checkArity ≠ .error (.overlappingMoment index q) := by
    unfold checkArity
    split
    · split
      · intro h
        cases h
      · intro h
        cases h
    · intro h
      cases h
  unfold check
  cases hi : i.checkArity with
  | error e =>
      intro h
      cases h
      exact harity hi
  | ok u => exact hoperands i.qubits []

end Instruction

namespace Moment

theorem checkOperations_ne_overlapping {size : UInt32} {index : Nat} {q : Qubit}
    {ops : List Instruction} : checkOperations size ops ≠ .error (.overlappingMoment index q) := by
  induction ops with
  | nil => nofun
  | cons i rest ih =>
      rw [checkOperations]
      cases hi : i.check size with
      | error e =>
          intro h
          cases h
          exact Instruction.check_ne_overlapping hi
      | ok u => exact ih

/-- An overlap is reported under the index of the moment, for a qubit on which two of
its operations act. -/
theorem check_eq_overlapping {size : UInt32} {index reported : Nat} {m : Moment} {q : Qubit}
    (h : m.check size index = .error (.overlappingMoment reported q)) :
    reported = index ∧
      ∃ i j : Instruction, [i, j].Sublist m.operations ∧ i.actsOn q = true ∧ j.actsOn q = true := by
  unfold check at h
  cases hops : checkOperations size m.operations with
  | error e =>
      rw [hops] at h
      cases h
      exact absurd hops checkOperations_ne_overlapping
  | ok u =>
      rw [hops] at h
      have hdisjoint : m.checkDisjoint index = .error (.overlappingMoment reported q) := h
      have hnodup : ∀ i ∈ m.operations, i.qubits.Nodup := by
        intro i hi
        exact (checkOperations_eq_ok_iff.mp hops i hi).nodup
      rw [checkDisjoint] at hdisjoint
      split at hdisjoint
      · rename_i p hrepeat
        cases hdisjoint
        refine ⟨rfl, ?_⟩
        rcases Qubit.sublist_of_firstRepeat hrepeat with ⟨hseen, _⟩ | htwice
        · exact absurd hseen List.not_mem_nil
        · exact Instruction.exists_sharing hnodup htwice
      · cases hdisjoint

end Moment

/-! ## Building again -/

namespace Circuit

/-- Moments are added exactly as far as the walk over them gets. -/
theorem pushMoments_eq_verifyFrom (ms : List Moment) :
    ∀ c : Circuit, c.pushMoments ms =
      (verifyFrom c.size c.moments.length ms).map fun _ =>
        { c with moments := c.moments ++ ms } := by
  induction ms with
  | nil =>
      intro c
      rw [pushMoments, verifyFrom, List.append_nil]
      rfl
  | cons m rest ih =>
      intro c
      rw [pushMoments, verifyFrom, pushMoment]
      cases m.check c.size c.moments.length with
      | error e => rfl
      | ok u =>
          refine (ih { c with moments := c.moments ++ [m] }).trans ?_
          rw [List.length_append, List.append_assoc]
          rfl

theorem pushMoments_empty (name : String) (size : UInt32) (ms : List Moment) :
    (empty name size).pushMoments ms =
      (verifyFrom size 0 ms).map fun _ => ⟨name, size, ms⟩ :=
  pushMoments_eq_verifyFrom ms (empty name size)

/-- The walk stops at the first moment that is refused, under the index of this
moment. -/
theorem verifyFrom_eq_error {size : UInt32} {e : CircuitError} {ms : List Moment} :
    ∀ {index : Nat}, verifyFrom size index ms = .error e →
      ∃ (before after : List Moment) (m : Moment), ms = before ++ m :: after ∧
        (∀ m' ∈ before, m'.Sound size) ∧ m.check size (index + before.length) = .error e := by
  induction ms with
  | nil =>
      intro index h
      cases h
  | cons m rest ih =>
      intro index h
      rw [verifyFrom] at h
      cases hm : m.check size index with
      | error e' =>
          rw [hm] at h
          cases h
          exact ⟨[], rest, m, rfl, by simp, hm⟩
      | ok u =>
          rw [hm] at h
          obtain ⟨before, after, m', hsplit, hbefore, hm'⟩ := ih h
          refine ⟨m :: before, after, m', congrArg (m :: ·) hsplit, ?_, ?_⟩
          · exact List.forall_mem_cons.mpr ⟨Moment.check_eq_ok_iff.mp hm, hbefore⟩
          · rw [List.length_cons, Nat.add_comm before.length 1, ← Nat.add_assoc]
            exact hm'

/-- Where a circuit is refused, building it again stops with the same error at the same
moment, after those before it have been added. -/
theorem exists_refused_moment {c : Circuit} {e : CircuitError} (h : c.verify = .error e) :
    ∃ (before after : List Moment) (m : Moment), c.moments = before ++ m :: after ∧
      (empty c.name c.size).pushMoments before = .ok ⟨c.name, c.size, before⟩ ∧
      pushMoment ⟨c.name, c.size, before⟩ m = .error e ∧
      m.check c.size before.length = .error e := by
  obtain ⟨before, after, m, hsplit, hbefore, hm⟩ := verifyFrom_eq_error h
  rw [Nat.zero_add] at hm
  refine ⟨before, after, m, hsplit, ?_, ?_, hm⟩
  · rw [pushMoments_empty, verifyFrom_eq_ok_iff.mpr hbefore]
    rfl
  · rw [pushMoment, hm]
    rfl

/-- Verifying accepts exactly the sound circuits, and agrees with building the circuit
again from its moments: both succeed, and the circuit is back, or both fail with the
same error, which the first refused moment gives.  An overlap is reported only for a
qubit on which two operations of the reported moment act. -/
theorem verify_agrees_with_rebuilding (c : Circuit) :
    (c.verify = .ok () ↔ c.Sound) ∧
    (empty c.name c.size).pushMoments c.moments = c.verify.map (fun _ => c) ∧
    (∀ e : CircuitError, c.verify = .error e →
      ∃ (before after : List Moment) (m : Moment), c.moments = before ++ m :: after ∧
        (empty c.name c.size).pushMoments before = .ok ⟨c.name, c.size, before⟩ ∧
        pushMoment ⟨c.name, c.size, before⟩ m = .error e) ∧
    (∀ (index : Nat) (q : Qubit), c.verify = .error (.overlappingMoment index q) →
      ∃ (m : Moment) (i j : Instruction), c.moments[index]? = some m ∧
        [i, j].Sublist m.operations ∧ i.actsOn q = true ∧ j.actsOn q = true) := by
  refine ⟨verify_eq_ok_iff, pushMoments_empty c.name c.size c.moments, ?_, ?_⟩
  · intro e he
    obtain ⟨before, after, m, hsplit, hbefore, hm, _⟩ := exists_refused_moment he
    exact ⟨before, after, m, hsplit, hbefore, hm⟩
  · intro index q hoverlap
    obtain ⟨before, after, m, hsplit, _, _, hm⟩ := exists_refused_moment hoverlap
    obtain ⟨rfl, i, j, hij, hi, hj⟩ := Moment.check_eq_overlapping hm
    refine ⟨m, i, j, ?_, hij, hi, hj⟩
    rw [hsplit, List.getElem?_append_right (Nat.le_refl _), Nat.sub_self]
    rfl

/-- A circuit whose second moment uses a qubit in two operations.  Its first moment
uses the same qubit, and its last one is broken in other ways. -/
def overlappingCircuit : Circuit :=
  ⟨"overlap", 2, [⟨[.ofGate .cnot [⟨0⟩, ⟨1⟩]]⟩,
    ⟨[.measure [⟨1⟩, ⟨0⟩] "m", .barrier [], .ofGate .hadamard [⟨0⟩]]⟩,
    ⟨[.ofGate .swap [⟨5⟩]]⟩]⟩

theorem verify_agrees_with_rebuilding_overlappingCircuit :
    overlappingCircuit.verify = .error (.overlappingMoment 1 ⟨0⟩) ∧
      (empty "overlap" 2).pushMoments overlappingCircuit.moments =
        .error (.overlappingMoment 1 ⟨0⟩) ∧
      ∃ (m : Moment) (i j : Instruction), overlappingCircuit.moments[1]? = some m ∧
        [i, j].Sublist m.operations ∧ i.actsOn ⟨0⟩ = true ∧ j.actsOn ⟨0⟩ = true := by
  have hverify : overlappingCircuit.verify = .error (.overlappingMoment 1 ⟨0⟩) := rfl
  obtain ⟨_, hrebuild, _, hshared⟩ := verify_agrees_with_rebuilding overlappingCircuit
  exact ⟨hverify, hrebuild, hshared 1 ⟨0⟩ hverify⟩

end Circuit

end DualRail
