/-
  Circuits that are built by appending are in normal form.

  The compilation order of a circuit is not the order in which its instructions were
  appended.  Still it builds the same circuit again, with every operation at the same
  place of the same moment.  The reason is that each operation is held back by the moment
  before its own (`Packed`): when the moments before are complete, an operation has no
  choice but to open the next moment, or to join the operations of its own that are
  already there, with which it shares no qubit.
-/
import DualRail.Proofs.Commuting

set_option autoImplicit false

namespace DualRail

namespace Moment

theorem actsOnAny_add_of_actsOnAny {m : Moment} {qubits : List Qubit}
    (h : m.actsOnAny qubits = true) (i : Instruction) : (m.add i).actsOnAny qubits = true := by
  rw [← Bool.not_eq_false, actsOnAny_eq_false_iff] at h ⊢
  intro hfree
  apply h
  intro j hj
  exact hfree j (List.mem_append_left [i] hj)

end Moment

namespace Circuit

/-! ## Packed moments -/

/-- Moments none of which is empty, and in which every operation shares a qubit with one of
the moment before its own. -/
structure Packed (ms : List Moment) : Prop where
  held : ∀ (index : Nat), ∀ i ∈ (ms.getD (index + 1) Moment.empty).operations,
    (ms.getD index Moment.empty).actsOnAny i.qubits = true
  nonempty : ∀ m ∈ ms, m.operations ≠ []

theorem Packed.nil : Packed [] where
  held := by
    intro index i hi
    cases hi
  nonempty := by
    intro m hm
    cases hm

/-- The moment before the slot holds the new operation back, and what was held back before
still is. -/
theorem Packed.place {ms : List Moment} (h : Packed ms) (i : Instruction) :
    Packed (Circuit.place i (slot i.qubits ms) ms) where
  held := by
    intro index j hj
    have hslot := slot_le_length i.qubits ms
    rw [getD_place i hslot] at hj ⊢
    have hold : j ∈ (ms.getD (index + 1) Moment.empty).operations →
        (if index = slot i.qubits ms then (ms.getD index Moment.empty).add i
          else ms.getD index Moment.empty).actsOnAny j.qubits = true := by
      intro hj
      split
      · exact Moment.actsOnAny_add_of_actsOnAny (h.held index j hj) i
      · exact h.held index j hj
    by_cases hindex : index + 1 = slot i.qubits ms
    · rw [if_pos hindex] at hj
      rcases List.mem_append.mp hj with hj | hj
      · exact hold hj
      · obtain ⟨m, hm, hacts⟩ := exists_actsOnAny_of_slot hindex.symm
        rw [List.mem_singleton.mp hj, if_neg (by omega), List.getD_eq_getElem?_getD, hm]
        exact hacts
    · rw [if_neg hindex] at hj
      exact hold hj
  nonempty := fun _ hm => ne_nil_of_mem_place h.nonempty hm

/-- A circuit in normal form: it is sound, and each of its operations is as early as the
moment before its own allows. -/
structure Normal (c : Circuit) : Prop where
  sound : c.Sound
  packed : Packed c.moments

theorem Normal.empty (name : String) (size : UInt32) : (empty name size).Normal where
  sound := Sound.empty name size
  packed := Packed.nil

theorem Normal.append {c d : Circuit} {i : Instruction} (h : c.Normal)
    (hd : c.append i = .ok d) : d.Normal where
  sound := h.sound.append hd
  packed := by
    obtain ⟨_, rfl⟩ := append_eq_ok_iff.mp hd
    exact h.packed.place i

/-- What every append keeps is kept by a list of them. -/
theorem appendAll_keeps {P : Circuit → Prop}
    (hstep : ∀ {c d : Circuit} {i : Instruction}, P c → c.append i = .ok d → P d)
    (given : List Instruction) :
    ∀ {c d : Circuit}, P c → c.appendAll given = .ok d → P d := by
  induction given with
  | nil =>
      intro c d hc hd
      cases hd
      exact hc
  | cons i rest ih =>
      intro c d hc hd
      obtain ⟨next, hnext, hrest⟩ := appendAll_cons_eq_ok_iff.mp hd
      exact ih (hstep hc hnext) hrest

theorem appendAll_frame (given : List Instruction) {c d : Circuit}
    (h : c.appendAll given = .ok d) : d.name = c.name ∧ d.size = c.size := by
  have hstep : ∀ {d e : Circuit} {i : Instruction}, d.name = c.name ∧ d.size = c.size →
      d.append i = .ok e → e.name = c.name ∧ e.size = c.size := by
    intro d e i hd he
    have hextended := extended_of_append he
    exact ⟨hextended.name.trans hd.1, hextended.size.trans hd.2⟩
  exact appendAll_keeps hstep given ⟨rfl, rfl⟩ h

/-! ## Appending a whole moment -/

theorem slot_concat_of_free {qubits : List Qubit} {m : Moment} (h : m.actsOnAny qubits = false)
    (ms : List Moment) : slot qubits (ms ++ [m]) = slot qubits ms := by
  induction ms with
  | nil => simp [slot, h]
  | cons first rest ih => simp only [List.cons_append, slot, ih]

/-- An operation that is held back by the last of the moments before goes after them. -/
theorem Packed.slot_eq_length {before after : List Moment} {m : Moment} {i : Instruction}
    (h : Packed (before ++ m :: after)) (hi : i ∈ m.operations) :
    slot i.qubits before = before.length := by
  rcases List.eq_nil_or_concat before with rfl | ⟨init, last, rfl⟩
  · rfl
  · rw [List.concat_eq_append] at *
    have hheld := h.held init.length i
    have hlast : ((init ++ [last] ++ m :: after).getD init.length Moment.empty) = last := by
      simp
    have hown : ((init ++ [last] ++ m :: after).getD (init.length + 1) Moment.empty) = m := by
      simp
    rw [hlast, hown] at hheld
    have hlt : init.length < slot i.qubits (init ++ [last]) :=
      lt_slot_of_actsOnAny List.getElem?_concat_length (hheld hi)
    have hle := slot_le_length i.qubits (init ++ [last])
    rw [List.length_append, List.length_singleton] at hle ⊢
    omega

section Rest

variable (name : String) (size : UInt32) (before : List Moment)

/-- The operations of a moment join those that are already there. -/
theorem appendAll_onto (rest : List Instruction) :
    ∀ done : List Instruction, (∀ i ∈ rest, i.Sound size) →
      (∀ i ∈ rest, slot i.qubits before = before.length) →
      (done ++ rest).Pairwise Instruction.Independent →
        (Circuit.mk name size (before ++ [⟨done⟩])).appendAll rest =
          .ok ⟨name, size, before ++ [⟨done ++ rest⟩]⟩ := by
  induction rest with
  | nil =>
      intro done _ _ _
      rw [List.append_nil]
      rfl
  | cons i rest ih =>
      intro done hsound hslot hindependent
      obtain ⟨hi, hrest⟩ := List.forall_mem_cons.mp hsound
      obtain ⟨hsloti, hslotrest⟩ := List.forall_mem_cons.mp hslot
      have hfree : (Moment.mk done).actsOnAny i.qubits = false := by
        rw [Moment.actsOnAny_eq_false_iff]
        intro j hj
        exact (List.pairwise_append.mp hindependent).2.2 j hj i List.mem_cons_self
      have hmore : done ++ i :: rest = done ++ [i] ++ rest := by simp
      rw [hmore] at hindependent ⊢
      refine appendAll_cons_eq_ok_iff.mpr ⟨_, append_eq_ok_iff.mpr ⟨hi, rfl⟩, ?_⟩
      rw [slot_concat_of_free hfree, hsloti, place_append]
      exact ih (done ++ [i]) hrest hslotrest hindependent

/-- The first operation of a moment opens it. -/
theorem appendAll_moment {m : Moment} (hm : m.Sound size) (hne : m.operations ≠ [])
    (hslot : ∀ i ∈ m.operations, slot i.qubits before = before.length) :
    (Circuit.mk name size before).appendAll m.operations = .ok ⟨name, size, before ++ [m]⟩ := by
  obtain ⟨ops⟩ := m
  cases ops with
  | nil => exact absurd rfl hne
  | cons i rest =>
      obtain ⟨hi, hrest⟩ := List.forall_mem_cons.mp hm.operations
      obtain ⟨hsloti, hslotrest⟩ := List.forall_mem_cons.mp hslot
      refine appendAll_cons_eq_ok_iff.mpr ⟨_, append_eq_ok_iff.mpr ⟨hi, rfl⟩, ?_⟩
      rw [hsloti, place_length]
      exact appendAll_onto name size before rest [i] hrest hslotrest hm.independent

end Rest

/-! ## Appending all moments -/

theorem appendAll_append_of_ok {d : Circuit} {second : List Instruction}
    (first : List Instruction) :
    ∀ {c : Circuit}, c.appendAll first = .ok d →
      c.appendAll (first ++ second) = d.appendAll second := by
  induction first with
  | nil =>
      intro c hd
      cases hd
      rfl
  | cons i rest ih =>
      intro c hd
      obtain ⟨next, hnext, hrest⟩ := appendAll_cons_eq_ok_iff.mp hd
      rw [List.cons_append, appendAll, hnext, ← ih hrest]
      rfl

/-- Packed moments are built again from their operations, whatever moments of the same
circuit come before them. -/
theorem appendAll_packed {name : String} {size : UInt32} (ms : List Moment) :
    ∀ before : List Moment, (∀ m ∈ ms, m.Sound size) → Packed (before ++ ms) →
      (Circuit.mk name size before).appendAll (ms.flatMap (·.operations)) =
        .ok ⟨name, size, before ++ ms⟩ := by
  induction ms with
  | nil =>
      intro before _ _
      rw [List.append_nil]
      rfl
  | cons m rest ih =>
      intro before hsound hpacked
      obtain ⟨hm, hrest⟩ := List.forall_mem_cons.mp hsound
      have hne : m.operations ≠ [] := hpacked.nonempty m (by simp)
      have hmoment := appendAll_moment name size before hm hne fun _ hi =>
        hpacked.slot_eq_length hi
      have hmore : before ++ m :: rest = before ++ [m] ++ rest := by simp
      rw [List.flatMap_cons, appendAll_append_of_ok _ hmoment, hmore]
      exact ih (before ++ [m]) hrest (hmore ▸ hpacked)

/-- A circuit in normal form is built from its operations in compilation order. -/
theorem Normal.appendAll_operations {c : Circuit} (h : c.Normal) :
    (Circuit.empty c.name c.size).appendAll c.operations = .ok c :=
  appendAll_packed c.moments [] h.sound h.packed

/-- A circuit that was built by appending instructions to an empty one is in normal form,
and appending its operations in compilation order to an empty circuit gives exactly this
circuit again. -/
theorem appendAll_operations_restores {name : String} {size : UInt32}
    {given : List Instruction} {c : Circuit} (h : (empty name size).appendAll given = .ok c) :
    c.Normal ∧ (empty name size).appendAll c.operations = .ok c := by
  have hnormal : c.Normal := appendAll_keeps Normal.append given (.empty name size) h
  have hframe : c.name = name ∧ c.size = size := appendAll_frame given h
  refine ⟨hnormal, ?_⟩
  rw [← hframe.1, ← hframe.2]
  exact hnormal.appendAll_operations

/-- Instructions that are compiled in another order than that in which they are given. -/
def shuffledList : List Instruction :=
  [.ofGate .cnot [⟨0⟩, ⟨1⟩], .ofGate .pauliX [⟨1⟩], .measure [⟨0⟩, ⟨1⟩, ⟨2⟩] "m", .barrier [],
    .ofGate .hadamard [⟨3⟩], .barrier [⟨3⟩, ⟨2⟩]]

theorem appendAll_operations_shuffledList :
    ∃ c : Circuit, (empty "shuffled" 4).appendAll shuffledList = .ok c ∧
      c.operations = [.ofGate .cnot [⟨0⟩, ⟨1⟩], .barrier [], .ofGate .hadamard [⟨3⟩],
        .ofGate .pauliX [⟨1⟩], .measure [⟨0⟩, ⟨1⟩, ⟨2⟩] "m", .barrier [⟨3⟩, ⟨2⟩]] ∧
      c.Normal ∧ (empty "shuffled" 4).appendAll c.operations = .ok c := by
  obtain ⟨c, hc⟩ : ∃ c, (empty "shuffled" 4).appendAll shuffledList = .ok c := ⟨_, rfl⟩
  refine ⟨c, hc, ?_, appendAll_operations_restores hc⟩
  cases hc
  rfl

end Circuit

end DualRail
