/-
  Which circuits are sound.

  `Circuit.verify` walks over a circuit and stops at the first thing that is wrong.
  What it accepts can be said without the walk: every gate has its number of
  operands, operands lie on the line and are not repeated, and the operations of a
  moment are independent of each other (`Circuit.Sound`).  The walk accepts exactly
  these circuits (`Circuit.verify_eq_ok_iff`), so everything that is proved about
  sound circuits holds for verified ones.
-/
import Mathlib.Data.List.Nodup
import DualRail.Circuit.Basic

set_option autoImplicit false

namespace DualRail

/-! ## Repeated qubits -/

namespace Qubit

/-- No qubit of the list occurs twice or has been seen before. -/
def Fresh (seen qubits : List Qubit) : Prop := qubits.Nodup ∧ ∀ q ∈ qubits, q ∉ seen

theorem fresh_nil (seen : List Qubit) : Fresh seen [] := by
  constructor
  · exact List.nodup_nil
  · intro q hq
    exact absurd hq List.not_mem_nil

/-- A scan may look at the first qubit alone and remember it for the others. -/
theorem fresh_cons {seen rest : List Qubit} {q : Qubit} :
    Fresh seen (q :: rest) ↔ q ∉ seen ∧ Fresh (q :: seen) rest := by
  rw [Fresh, Fresh, List.nodup_cons, List.forall_mem_cons]
  constructor
  · rintro ⟨⟨hq, hrest⟩, hseen, hunseen⟩
    refine ⟨hseen, hrest, ?_⟩
    intro p hp
    exact List.not_mem_cons_of_ne_of_not_mem (fun hpq => hq (hpq ▸ hp)) (hunseen p hp)
  · rintro ⟨hseen, hrest, hunseen⟩
    refine ⟨⟨?_, hrest⟩, hseen, ?_⟩
    · intro hq
      exact hunseen q hq List.mem_cons_self
    · intro p hp
      exact List.not_mem_of_not_mem_cons (hunseen p hp)

theorem fresh_empty {qubits : List Qubit} : Fresh [] qubits ↔ qubits.Nodup := by
  simp [Fresh]

theorem firstRepeat_eq_none_iff {qubits : List Qubit} :
    ∀ {seen : List Qubit}, firstRepeat seen qubits = none ↔ Fresh seen qubits := by
  induction qubits with
  | nil =>
      intro seen
      exact iff_of_true rfl (fresh_nil seen)
  | cons q rest ih =>
      intro seen
      rw [fresh_cons, firstRepeat]
      split
      · rename_i hseen
        exact iff_of_false (by simp) (fun h => h.1 hseen)
      · rename_i hseen
        rw [ih]
        exact (and_iff_right hseen).symm

end Qubit

/-! ## Steps one after the other -/

section Bind

variable {ε α β : Type} {first : Except ε α} {next : α → Except ε β}

theorem bind_eq_ok_iff {b : β} :
    first.bind next = .ok b ↔ ∃ a : α, first = .ok a ∧ next a = .ok b := by
  cases first with
  | error e => simp [Except.bind]
  | ok a => simp [Except.bind]

theorem bind_eq_error_iff {e : ε} :
    first.bind next = .error e ↔
      first = .error e ∨ ∃ a : α, first = .ok a ∧ next a = .error e := by
  cases first with
  | error e' => simp [Except.bind]
  | ok a => simp [Except.bind]

theorem map_eq_ok_iff {f : α → β} {b : β} :
    first.map f = .ok b ↔ ∃ a : α, first = .ok a ∧ f a = b := by
  cases first with
  | error e => simp [Except.map]
  | ok a => simp [Except.map]

theorem mapError_eq_ok_iff {ε' : Type} {f : ε → ε'} {a : α} :
    first.mapError f = .ok a ↔ first = .ok a := by
  cases first with
  | error e => exact ⟨nofun, nofun⟩
  | ok a' =>
      constructor
      · rintro ⟨⟩
        rfl
      · rintro ⟨⟩
        rfl

end Bind

/-- Two checks, one after the other, accept what both accept. -/
theorem then_eq_ok_iff {ε : Type} {first second : Except ε Unit} :
    (first >>= fun _ => second) = .ok () ↔ first = .ok () ∧ second = .ok () := by
  cases first with
  | error e => exact iff_of_false (by nofun) (by nofun)
  | ok u => exact (and_iff_right rfl).symm

/-- A value that is returned after a check is there exactly when the check accepts. -/
theorem then_return_eq_ok_iff {ε α : Type} {check : Except ε Unit} {value result : α} :
    (check >>= fun _ => pure value) = .ok result ↔ check = .ok () ∧ result = value := by
  cases check with
  | error e => exact iff_of_false (by nofun) (by nofun)
  | ok u =>
      constructor
      · intro h
        cases h
        exact ⟨rfl, rfl⟩
      · rintro ⟨_, rfl⟩
        rfl

/-! ## Instructions -/

namespace Instruction

/-- Two instructions have no operand in common. -/
def Independent (i j : Instruction) : Prop := ∀ q ∈ i.qubits, q ∉ j.qubits

/-- An instruction that a circuit of `size` qubits may hold. -/
structure Sound (size : UInt32) (i : Instruction) : Prop where
  arity : ∀ expected, i.action.arity? = some expected → i.qubits.length = expected
  inRange : ∀ q ∈ i.qubits, q.index < size.toNat
  nodup : i.qubits.Nodup

theorem Sound.mono {size larger : UInt32} {i : Instruction} (h : i.Sound size)
    (hle : size.toNat ≤ larger.toNat) : i.Sound larger where
  arity := h.arity
  inRange := fun q hq => Nat.lt_of_lt_of_le (h.inRange q hq) hle
  nodup := h.nodup

theorem checkArity_eq_ok_iff {i : Instruction} :
    i.checkArity = .ok () ↔
      ∀ expected, i.action.arity? = some expected → i.qubits.length = expected := by
  unfold checkArity
  cases i.action.arity? with
  | none => simp
  | some expected => simp

theorem checkOperands_eq_ok_iff {name : String} {size : UInt32} {qubits : List Qubit} :
    ∀ {seen : List Qubit}, checkOperands name size seen qubits = .ok () ↔
      (∀ q ∈ qubits, q.index < size.toNat) ∧ Qubit.Fresh seen qubits := by
  induction qubits with
  | nil =>
      intro seen
      simp [checkOperands, Qubit.fresh_nil]
  | cons q rest ih =>
      intro seen
      rw [Qubit.fresh_cons, List.forall_mem_cons, checkOperands]
      by_cases hrange : size ≤ q.position
      · have hout : ¬ q.index < size.toNat := Nat.not_lt.mpr (UInt32.le_iff_toNat_le.mp hrange)
        rw [if_pos hrange]
        exact iff_of_false (by nofun) (fun h => hout h.1.1)
      · have hin : q.index < size.toNat :=
          Nat.not_le.mp fun h => hrange (UInt32.le_iff_toNat_le.mpr h)
        rw [if_neg hrange]
        by_cases hseen : q ∈ seen
        · rw [if_pos hseen]
          exact iff_of_false (by nofun) (fun h => h.2.1 hseen)
        · rw [if_neg hseen, ih]
          exact ⟨fun h => ⟨⟨hin, h.1⟩, hseen, h.2⟩, fun h => ⟨h.1.2, h.2.2⟩⟩

theorem check_eq_ok_iff {size : UInt32} {i : Instruction} :
    i.check size = .ok () ↔ i.Sound size := by
  unfold check
  rw [then_eq_ok_iff, checkArity_eq_ok_iff, checkOperands_eq_ok_iff, Qubit.fresh_empty]
  exact ⟨fun h => ⟨h.1, h.2.1, h.2.2⟩, fun h => ⟨h.arity, h.inRange, h.nodup⟩⟩

end Instruction

/-! ## Moments and circuits -/

namespace Moment

/-- A moment that a circuit of `size` qubits may hold. -/
structure Sound (size : UInt32) (m : Moment) : Prop where
  operations : ∀ i ∈ m.operations, i.Sound size
  independent : m.operations.Pairwise Instruction.Independent

theorem Sound.mono {size larger : UInt32} {m : Moment} (h : m.Sound size)
    (hle : size.toNat ≤ larger.toNat) : m.Sound larger where
  operations := fun i hi => (h.operations i hi).mono hle
  independent := h.independent

theorem checkOperations_eq_ok_iff {size : UInt32} {ops : List Instruction} :
    checkOperations size ops = .ok () ↔ ∀ i ∈ ops, i.Sound size := by
  induction ops with
  | nil => simp [checkOperations]
  | cons i rest ih =>
      rw [List.forall_mem_cons, checkOperations, then_eq_ok_iff,
        Instruction.check_eq_ok_iff, ih]

theorem nodup_operands_iff {m : Moment} :
    m.operands.Nodup ↔
      (∀ i ∈ m.operations, i.qubits.Nodup) ∧ m.operations.Pairwise Instruction.Independent :=
  List.nodup_flatMap

theorem checkDisjoint_eq_ok_iff {index : Nat} {m : Moment} :
    m.checkDisjoint index = .ok () ↔ m.operands.Nodup := by
  rw [← Qubit.fresh_empty, ← Qubit.firstRepeat_eq_none_iff, checkDisjoint]
  cases Qubit.firstRepeat [] m.operands with
  | none => simp
  | some q => simp

/-- Once its operations are sound, a moment is free of repeats exactly when the
operations are independent. -/
theorem check_eq_ok_iff {size : UInt32} {index : Nat} {m : Moment} :
    m.check size index = .ok () ↔ m.Sound size := by
  unfold check
  rw [then_eq_ok_iff, checkOperations_eq_ok_iff, checkDisjoint_eq_ok_iff,
    nodup_operands_iff]
  constructor
  · rintro ⟨hsound, _, hindependent⟩
    exact ⟨hsound, hindependent⟩
  · rintro ⟨hsound, hindependent⟩
    exact ⟨hsound, fun i hi => (hsound i hi).nodup, hindependent⟩

end Moment

namespace Circuit

/-- Every moment is sound for the number of qubits of the circuit. -/
def Sound (c : Circuit) : Prop := ∀ m ∈ c.moments, m.Sound c.size

theorem verifyFrom_eq_ok_iff {size : UInt32} {ms : List Moment} :
    ∀ {index : Nat}, verifyFrom size index ms = .ok () ↔ ∀ m ∈ ms, m.Sound size := by
  induction ms with
  | nil =>
      intro index
      simp [verifyFrom]
  | cons m rest ih =>
      intro index
      rw [List.forall_mem_cons, verifyFrom, then_eq_ok_iff, Moment.check_eq_ok_iff, ih]

theorem verify_eq_ok_iff {c : Circuit} : c.verify = .ok () ↔ c.Sound := verifyFrom_eq_ok_iff

theorem Sound.of_mem_operations {c : Circuit} {i : Instruction} (h : c.Sound)
    (hi : i ∈ c.operations) : i.Sound c.size := by
  obtain ⟨m, hm, him⟩ := List.mem_flatMap.mp hi
  exact (h m hm).operations i him

end Circuit

end DualRail
