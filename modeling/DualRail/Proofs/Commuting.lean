/-
  Instructions that share no qubit can be appended in either order.

  An instruction looks back for moments that act on its operands, and one that shares no
  qubit with it makes no difference to that search, whether it was added to a moment that
  was there or a moment was opened for it.  So both find the same slots in either order,
  and all that can differ is which of them stands first in a moment that holds both.

  Circuits that differ in this way only are `Alike`.  Appending keeps circuits alike
  (`Alike.append`), so the order in which a whole list is appended can be changed by any
  number of such exchanges (`Reordered`).
-/
import DualRail.Proofs.Scheduling
import DualRail.Proofs.Translation

set_option autoImplicit false

namespace DualRail

/-! ## Changing the order -/

namespace Instruction

theorem Independent.symm {i j : Instruction} (h : i.Independent j) : j.Independent i := by
  intro q hj hi
  exact h q hi hj

/-- Two lists that differ by exchanges of neighbours that share no qubit. -/
inductive Reordered : List Instruction → List Instruction → Prop
  | refl (given : List Instruction) : Reordered given given
  | cons (i : Instruction) {given other : List Instruction} :
      Reordered given other → Reordered (i :: given) (i :: other)
  | exchange {a b : Instruction} (rest : List Instruction) :
      a.Independent b → Reordered (a :: b :: rest) (b :: a :: rest)
  | trans {given middle other : List Instruction} :
      Reordered given middle → Reordered middle other → Reordered given other

theorem Reordered.symm {given other : List Instruction} (h : Reordered given other) :
    Reordered other given := by
  induction h with
  | refl given => exact .refl given
  | cons i _ ih => exact .cons i ih
  | exchange rest h => exact .exchange rest h.symm
  | trans _ _ ih₁ ih₂ => exact .trans ih₂ ih₁

end Instruction

open Instruction (Reordered)

/-! ## Slots -/

namespace Moment

/-- Two moments with the same operations, in any order. -/
def Alike (m n : Moment) : Prop := m.operations.Perm n.operations

theorem Alike.refl (m : Moment) : m.Alike m := List.Perm.refl _

theorem Alike.trans {m n o : Moment} (h : m.Alike n) (h' : n.Alike o) : m.Alike o :=
  List.Perm.trans h h'

theorem Alike.add {m n : Moment} (h : m.Alike n) (i : Instruction) : (m.add i).Alike (n.add i) :=
  List.Perm.append_right [i] h

theorem alike_add_add (m : Moment) (a b : Instruction) :
    ((m.add a).add b).Alike ((m.add b).add a) := by
  unfold Alike add
  rw [List.append_assoc, List.append_assoc]
  exact List.Perm.append_left _ (List.Perm.swap b a [])

theorem Alike.actsOnAny_eq {m n : Moment} (h : m.Alike n) (qubits : List Qubit) :
    m.actsOnAny qubits = n.actsOnAny qubits := by
  rw [Bool.eq_iff_iff, ← Bool.not_eq_false, ← Bool.not_eq_false, actsOnAny_eq_false_iff,
    actsOnAny_eq_false_iff]
  simp only [h.mem_iff]

/-- An operation that shares no qubit with an instruction is not noticed by it. -/
theorem actsOnAny_add_of_independent {a b : Instruction} (h : a.Independent b) (m : Moment) :
    (m.add a).actsOnAny b.qubits = m.actsOnAny b.qubits := by
  rw [Bool.eq_iff_iff, ← Bool.not_eq_false, ← Bool.not_eq_false, actsOnAny_eq_false_iff,
    actsOnAny_eq_false_iff, add, List.forall_mem_append, List.forall_mem_singleton]
  exact not_congr (and_iff_left h)

end Moment

namespace Circuit

/-- The moment with an index; past the last one there is nothing. -/
def moment (c : Circuit) (index : Nat) : Moment := c.moments.getD index Moment.empty

theorem slot_le_of_forall {qubits : List Qubit} {ms ns : List Moment}
    (h : ∀ index : Nat, (ms.getD index Moment.empty).actsOnAny qubits = true →
      (ns.getD index Moment.empty).actsOnAny qubits = true) :
    slot qubits ms ≤ slot qubits ns := by
  cases hslot : slot qubits ms with
  | zero => exact Nat.zero_le _
  | succ index =>
      obtain ⟨m, hm, hacts⟩ := exists_actsOnAny_of_slot hslot
      have hn := h index
      rw [List.getD_eq_getElem?_getD, hm] at hn
      specialize hn hacts
      rw [List.getD_eq_getElem?_getD] at hn
      cases hget : ns[index]? with
      | none =>
          rw [hget, Option.getD_none, Moment.actsOnAny_empty] at hn
          cases hn
      | some n =>
          rw [hget] at hn
          exact lt_slot_of_actsOnAny hget hn

/-- The slot depends only on which moments act on the qubits. -/
theorem slot_congr {qubits : List Qubit} {ms ns : List Moment}
    (h : ∀ index : Nat, (ms.getD index Moment.empty).actsOnAny qubits =
      (ns.getD index Moment.empty).actsOnAny qubits) :
    slot qubits ms = slot qubits ns := by
  apply Nat.le_antisymm
  · exact slot_le_of_forall fun index hacts => (h index) ▸ hacts
  · exact slot_le_of_forall fun index hacts => (h index) ▸ hacts

/-- Placing an instruction does not move the slot of one that shares no qubit with it, not
even if a moment is opened. -/
theorem slot_place_of_independent {a b : Instruction} (h : a.Independent b) {index : Nat}
    {ms : List Moment} (hindex : index ≤ ms.length) :
    slot b.qubits (place a index ms) = slot b.qubits ms := by
  apply slot_congr
  intro k
  rw [getD_place a hindex]
  split
  · exact Moment.actsOnAny_add_of_independent h _
  · rfl

theorem length_place (i : Instruction) {index : Nat} {ms : List Moment}
    (h : index ≤ ms.length) : (place i index ms).length = max ms.length (index + 1) := by
  fun_induction place i index ms with
  | case1 index =>
      obtain rfl : index = 0 := Nat.le_zero.mp h
      rfl
  | case2 m rest => simp
  | case3 index m rest ih =>
      rw [List.length_cons, List.length_cons, ih (Nat.le_of_succ_le_succ h)]
      omega

/-! ## Circuits that are alike -/

/-- What appending an instruction makes of a circuit: the slot gets it, and there are as
many moments as that takes. -/
structure Extended (c : Circuit) (i : Instruction) (d : Circuit) : Prop where
  name : d.name = c.name
  size : d.size = c.size
  depth : d.depth = max c.depth (slot i.qubits c.moments + 1)
  moment : ∀ index : Nat, d.moment index =
    if index = slot i.qubits c.moments then (c.moment index).add i else c.moment index

theorem extended_of_append {c d : Circuit} {i : Instruction} (h : c.append i = .ok d) :
    c.Extended i d := by
  obtain ⟨_, rfl⟩ := append_eq_ok_iff.mp h
  have hslot := slot_le_length i.qubits c.moments
  exact ⟨rfl, rfl, length_place i hslot, getD_place i hslot⟩

/-- Appending succeeds where the instruction is sound, and only the size matters for it. -/
theorem append_of_sound {c : Circuit} {i : Instruction} (h : i.Sound c.size) :
    ∃ d : Circuit, c.append i = .ok d := ⟨_, append_eq_ok_iff.mpr ⟨h, rfl⟩⟩

theorem sound_of_append {c d : Circuit} {i : Instruction} (h : c.append i = .ok d) :
    i.Sound c.size := (append_eq_ok_iff.mp h).1

/-- Two circuits that differ at most in the order of the operations inside a moment. -/
structure Alike (c d : Circuit) : Prop where
  name : c.name = d.name
  size : c.size = d.size
  depth : c.depth = d.depth
  moment : ∀ index : Nat, (c.moment index).Alike (d.moment index)

theorem Alike.refl (c : Circuit) : c.Alike c where
  name := rfl
  size := rfl
  depth := rfl
  moment := fun index => .refl (c.moment index)

theorem Alike.trans {c d e : Circuit} (h : c.Alike d) (h' : d.Alike e) : c.Alike e where
  name := h.name.trans h'.name
  size := h.size.trans h'.size
  depth := h.depth.trans h'.depth
  moment := fun index => (h.moment index).trans (h'.moment index)

/-- Circuits that are alike stay alike when the same instruction is appended to both. -/
theorem Alike.append {c d c' : Circuit} {i : Instruction} (h : c.Alike d)
    (hc : c.append i = .ok c') : ∃ d' : Circuit, d.append i = .ok d' ∧ c'.Alike d' := by
  obtain ⟨d', hd⟩ := append_of_sound (h.size ▸ sound_of_append hc)
  have hslot : slot i.qubits c.moments = slot i.qubits d.moments :=
    slot_congr fun index => (h.moment index).actsOnAny_eq i.qubits
  have hleft := extended_of_append hc
  have hright := extended_of_append hd
  refine ⟨d', hd, ?_, ?_, ?_, ?_⟩
  · rw [hleft.name, hright.name, h.name]
  · rw [hleft.size, hright.size, h.size]
  · rw [hleft.depth, hright.depth, h.depth, hslot]
  · intro index
    rw [hleft.moment, hright.moment, hslot]
    split
    · exact (h.moment index).add i
    · exact h.moment index

/-- Two instructions that share no qubit find their slots in either order, and these are
the same. -/
theorem append_append_of_independent {c d e : Circuit} {a b : Instruction}
    (h : a.Independent b) (hd : c.append a = .ok d) (he : d.append b = .ok e) :
    ∃ d' e' : Circuit, c.append b = .ok d' ∧ d'.append a = .ok e' ∧ e.Alike e' := by
  have hsize : d.size = c.size := (extended_of_append hd).size
  obtain ⟨d', hd'⟩ := append_of_sound (hsize ▸ sound_of_append he)
  have hsize' : d'.size = c.size := (extended_of_append hd').size
  obtain ⟨e', he'⟩ := append_of_sound (hsize'.symm ▸ sound_of_append hd)
  have hb : slot b.qubits d.moments = slot b.qubits c.moments := by
    obtain ⟨_, rfl⟩ := append_eq_ok_iff.mp hd
    exact slot_place_of_independent h (slot_le_length _ _)
  have ha : slot a.qubits d'.moments = slot a.qubits c.moments := by
    obtain ⟨_, rfl⟩ := append_eq_ok_iff.mp hd'
    exact slot_place_of_independent h.symm (slot_le_length _ _)
  have hleft := extended_of_append hd
  have hleft' := extended_of_append he
  have hright := extended_of_append hd'
  have hright' := extended_of_append he'
  refine ⟨d', e', hd', he', ?_, ?_, ?_, ?_⟩
  · rw [hleft'.name, hleft.name, hright'.name, hright.name]
  · rw [hleft'.size, hsize, hright'.size, hsize']
  · rw [hleft'.depth, hleft.depth, hright'.depth, hright.depth, ha, hb, Nat.max_right_comm]
  · intro index
    rw [hleft'.moment, hleft.moment, hright'.moment, hright.moment, ha, hb]
    -- Only a moment that is the slot of both can hold them in either order.
    by_cases hslotA : index = slot a.qubits c.moments
    · by_cases hslotB : index = slot b.qubits c.moments
      · rw [if_pos hslotB, if_pos hslotA, if_pos hslotA, if_pos hslotB]
        exact Moment.alike_add_add _ a b
      · rw [if_neg hslotB, if_pos hslotA, if_pos hslotA, if_neg hslotB]
        exact .refl _
    · by_cases hslotB : index = slot b.qubits c.moments
      · rw [if_pos hslotB, if_neg hslotA, if_neg hslotA, if_pos hslotB]
        exact .refl _
      · rw [if_neg hslotB, if_neg hslotA, if_neg hslotA, if_neg hslotB]
        exact .refl _

/-! ## Lists of instructions -/

theorem appendAll_cons_eq_ok_iff {c e : Circuit} {i : Instruction} {rest : List Instruction} :
    c.appendAll (i :: rest) = .ok e ↔
      ∃ d : Circuit, c.append i = .ok d ∧ d.appendAll rest = .ok e := bind_eq_ok_iff

theorem Alike.appendAll (given : List Instruction) :
    ∀ {c d e : Circuit}, c.Alike d → c.appendAll given = .ok e →
      ∃ e' : Circuit, d.appendAll given = .ok e' ∧ e.Alike e' := by
  induction given with
  | nil =>
      intro c d e h he
      cases he
      exact ⟨d, rfl, h⟩
  | cons i rest ih =>
      intro c d e h he
      obtain ⟨next, hnext, hrest⟩ := appendAll_cons_eq_ok_iff.mp he
      obtain ⟨next', hnext', halike⟩ := h.append hnext
      obtain ⟨e', he', halike'⟩ := ih halike hrest
      exact ⟨e', appendAll_cons_eq_ok_iff.mpr ⟨next', hnext', he'⟩, halike'⟩

/-- Whatever can be appended can be appended in the other order, with the same circuit up
to the order inside moments. -/
theorem appendAll_reordered {given other : List Instruction} (h : Reordered given other) :
    ∀ {c e : Circuit}, c.appendAll given = .ok e →
      ∃ e' : Circuit, c.appendAll other = .ok e' ∧ e.Alike e' := by
  induction h with
  | refl given =>
      intro c e he
      exact ⟨e, he, .refl e⟩
  | cons i _ ih =>
      intro c e he
      obtain ⟨next, hnext, hrest⟩ := appendAll_cons_eq_ok_iff.mp he
      obtain ⟨e', he', halike⟩ := ih hrest
      exact ⟨e', appendAll_cons_eq_ok_iff.mpr ⟨next, hnext, he'⟩, halike⟩
  | exchange rest hindependent =>
      -- After the two instructions the circuits are alike, and the rest keeps them so.
      intro c e he
      obtain ⟨first, hfirst, hmore⟩ := appendAll_cons_eq_ok_iff.mp he
      obtain ⟨second, hsecond, hrest⟩ := appendAll_cons_eq_ok_iff.mp hmore
      obtain ⟨first', second', hfirst', hsecond', halike⟩ :=
        append_append_of_independent hindependent hfirst hsecond
      obtain ⟨e', he', halike'⟩ := halike.appendAll rest hrest
      have hmore' := appendAll_cons_eq_ok_iff.mpr ⟨second', hsecond', he'⟩
      exact ⟨e', appendAll_cons_eq_ok_iff.mpr ⟨first', hfirst', hmore'⟩, halike'⟩
  | trans _ _ ih₁ ih₂ =>
      intro c e he
      obtain ⟨e₁, he₁, halike₁⟩ := ih₁ he
      obtain ⟨e₂, he₂, halike₂⟩ := ih₂ he₁
      exact ⟨e₂, he₂, halike₁.trans halike₂⟩

section Reordered

variable {given other : List Instruction} (h : Reordered given other)

include h

theorem exists_appendAll_iff (c : Circuit) :
    (∃ d : Circuit, c.appendAll given = .ok d) ↔ ∃ e : Circuit, c.appendAll other = .ok e := by
  constructor
  · rintro ⟨d, hd⟩
    obtain ⟨e, he, _⟩ := appendAll_reordered h hd
    exact ⟨e, he⟩
  · rintro ⟨e, he⟩
    obtain ⟨d, hd, _⟩ := appendAll_reordered h.symm he
    exact ⟨d, hd⟩

theorem alike_of_appendAll {c d e : Circuit} (hd : c.appendAll given = .ok d)
    (he : c.appendAll other = .ok e) : d.Alike e := by
  obtain ⟨e', he', halike⟩ := appendAll_reordered h hd
  rw [he', Except.ok.injEq] at he
  exact he ▸ halike

end Reordered

/-! ## Programs -/

theorem perm_operations_of_getD {ms : List Moment} :
    ∀ {ns : List Moment}, ms.length = ns.length →
      (∀ index : Nat, (ms.getD index Moment.empty).Alike (ns.getD index Moment.empty)) →
        (ms.flatMap (·.operations)).Perm (ns.flatMap (·.operations)) := by
  induction ms with
  | nil =>
      intro ns hlength _
      rw [List.length_eq_zero_iff.mp hlength.symm]
  | cons m rest ih =>
      intro ns hlength h
      cases ns with
      | nil => cases hlength
      | cons n rest' =>
          rw [List.flatMap_cons, List.flatMap_cons]
          exact List.Perm.append (h 0) (ih (Nat.succ.inj hlength) fun index => h (index + 1))

/-- Circuits that are alike are translated to the same blocks, in some order. -/
theorem Alike.perm_blocks {c d : Circuit} (h : c.Alike d) :
    (c.lowerable.map GateOp.block).Perm (d.lowerable.map GateOp.block) := by
  have hoperations : c.operations.Perm d.operations := perm_operations_of_getD h.depth h.moment
  exact (hoperations.filterMap GateOp.ofInstruction?).map GateOp.block

/-- Two instructions that share no qubit can be appended to a circuit in one order exactly
when they can be in the other, and the circuits are alike then.  So can whole lists that
differ by such exchanges of neighbours; the circuits are alike, and translation gives
programs with the same blocks up to their order. -/
theorem append_commutes (c : Circuit) :
    (∀ a b : Instruction, a.Independent b →
      ((∃ d : Circuit, c.appendAll [a, b] = .ok d) ↔
        ∃ e : Circuit, c.appendAll [b, a] = .ok e) ∧
      ∀ d e : Circuit, c.appendAll [a, b] = .ok d → c.appendAll [b, a] = .ok e → d.Alike e) ∧
    (∀ given other : List Instruction, Reordered given other →
      ((∃ d : Circuit, c.appendAll given = .ok d) ↔
        ∃ e : Circuit, c.appendAll other = .ok e) ∧
      ∀ d e : Circuit, c.appendAll given = .ok d → c.appendAll other = .ok e →
        d.Alike e ∧
        ∀ k₁ k₂ : Compiler, ∃ p q : Program,
          (k₁.lowerCircuit d).outcome = .ok p ∧ (k₂.lowerCircuit e).outcome = .ok q ∧
            p.operations.Perm q.operations) := by
  constructor
  · intro a b hindependent
    have hexchange : Reordered [a, b] [b, a] := .exchange [] hindependent
    exact ⟨exists_appendAll_iff hexchange c, fun d e hd he => alike_of_appendAll hexchange hd he⟩
  · intro given other h
    refine ⟨exists_appendAll_iff h c, ?_⟩
    intro d e hd he
    have halike := alike_of_appendAll h hd he
    refine ⟨halike, ?_⟩
    intro k₁ k₂
    exact ⟨_, _, Compiler.lowerCircuit_outcome k₁ d, Compiler.lowerCircuit_outcome k₂ e,
      halike.perm_blocks⟩

/-- A circuit with an empty moment, and a barrier on all qubits after it. -/
def barredCircuit : Circuit :=
  ⟨"barred", 3, [Moment.empty, ⟨[.barrier [⟨0⟩, ⟨1⟩, ⟨2⟩]]⟩]⟩

/-- The first of two instructions opens the moment into which the second is put; a third
without operands goes back to the empty moment. -/
theorem append_commutes_barredCircuit :
    (Instruction.ofGate .hadamard [⟨0⟩]).Independent (.ofGate .pauliX [⟨2⟩]) ∧
      Reordered [.ofGate .hadamard [⟨0⟩], .barrier [], .ofGate .pauliX [⟨2⟩]]
        [.ofGate .pauliX [⟨2⟩], .ofGate .hadamard [⟨0⟩], .barrier []] ∧
      ∃ d e : Circuit,
        barredCircuit.appendAll [.ofGate .hadamard [⟨0⟩], .barrier [], .ofGate .pauliX [⟨2⟩]] =
          .ok d ∧
        barredCircuit.appendAll [.ofGate .pauliX [⟨2⟩], .ofGate .hadamard [⟨0⟩], .barrier []] =
          .ok e ∧
        d.moment 2 = ⟨[.ofGate .hadamard [⟨0⟩], .ofGate .pauliX [⟨2⟩]]⟩ ∧
        e.moment 2 = ⟨[.ofGate .pauliX [⟨2⟩], .ofGate .hadamard [⟨0⟩]]⟩ ∧
        d.Alike e ∧
        ∃ p q : Program, (Compiler.default.lowerCircuit d).outcome = .ok p ∧
          (Compiler.default.lowerCircuit e).outcome = .ok q ∧
          p.operations.Perm q.operations := by
  have hindependent : (Instruction.ofGate .hadamard [⟨0⟩]).Independent
      (.ofGate .pauliX [⟨2⟩]) := by
    unfold Instruction.Independent
    decide
  have hbarrier : (Instruction.barrier []).Independent (.ofGate .pauliX [⟨2⟩]) := by
    unfold Instruction.Independent
    decide
  have hreordered : Reordered [.ofGate .hadamard [⟨0⟩], .barrier [], .ofGate .pauliX [⟨2⟩]]
      [.ofGate .pauliX [⟨2⟩], .ofGate .hadamard [⟨0⟩], .barrier []] :=
    .trans (.cons _ (.exchange [] hbarrier)) (.exchange _ hindependent)
  obtain ⟨_, hlists⟩ := append_commutes barredCircuit
  obtain ⟨_, halike⟩ := hlists _ _ hreordered
  obtain ⟨hcircuits, hprograms⟩ := halike _ _ rfl rfl
  exact ⟨hindependent, hreordered, _, _, rfl, rfl, rfl, rfl, hcircuits, hprograms _ _⟩

end Circuit

end DualRail
