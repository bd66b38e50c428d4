/-
  The circuits that prepare GHZ states.

  Every controlled not of the chain starts at the qubit where the one before it ended.
  So the earliest slot is always a moment of its own after the last one, and the circuit
  is the chain itself, one operation in a moment (`Circuit.ghz_eq`).  All its operands are
  neighbours, hence a device accepts the circuit as soon as it has enough qubits, and no
  network is needed to translate it.
-/
import DualRail.Circuit.Library
import DualRail.Proofs.Conformance
import DualRail.Proofs.Scheduling

set_option autoImplicit false

namespace DualRail

/-! ## The chain -/

namespace Qubit

/-- The qubit at a position. -/
def nth (i : Nat) : Qubit := ⟨i.toUInt32⟩

theorem index_nth {i : Nat} (h : i < 4294967296) : (nth i).index = i := by
  simp only [nth, index, Nat.toUInt32, UInt32.toNat_ofNat']
  exact Nat.mod_eq_of_lt h

end Qubit

namespace Instruction

/-- The controlled not from a qubit to the next one. -/
def link (i : Nat) : Instruction := .ofGate .cnot [.nth i, .nth (i + 1)]

theorem sound_link {size : UInt32} {i : Nat} (h : i + 1 < size.toNat) : (link i).Sound size := by
  have hsize := size.toNat_lt
  have hcontrol : (Qubit.nth i).index = i := Qubit.index_nth (by omega)
  have htarget : (Qubit.nth (i + 1)).index = i + 1 := Qubit.index_nth (by omega)
  refine ⟨?_, ?_, ?_⟩
  · rintro expected ⟨⟩
    rfl
  · intro q hq
    rcases List.mem_pair.mp hq with rfl | rfl
    · omega
    · omega
  · refine List.nodup_cons.mpr ⟨?_, List.nodup_singleton _⟩
    intro hsame
    have hindex := congrArg Qubit.index (List.mem_singleton.mp hsame)
    omega

theorem not_distant_link {i : Nat} (h : i + 1 < 4294967296) : ¬ (link i).Distant := by
  rintro ⟨p, q, hpq, hdistance⟩
  cases hpq
  apply hdistance
  rw [Qubit.distance, Qubit.index_nth (by omega), Qubit.index_nth h]
  omega

end Instruction

namespace Moment

/-- A moment with one operation. -/
def only (i : Instruction) : Moment := ⟨[i]⟩

theorem sound_only {size : UInt32} {i : Instruction} (h : i.Sound size) : (only i).Sound size :=
  (Sound.empty size).add h (actsOnAny_empty i.qubits)

end Moment

namespace Circuit

/-- The operations that prepare a GHZ state: H on the first qubit, and a controlled not
from every qubit but the last to the next one. -/
def ghzOperations (n : Nat) : List Instruction :=
  .ofGate .hadamard [.nth 0] :: (List.range (n - 1)).map Instruction.link

theorem length_ghzOperations {n : Nat} (h : 0 < n) : (ghzOperations n).length = n := by
  rw [ghzOperations, List.length_cons, List.length_map, List.length_range]
  omega

theorem mem_ghzOperations {n : Nat} {i : Instruction} :
    i ∈ ghzOperations n ↔
      i = .ofGate .hadamard [.nth 0] ∨ ∃ k, k + 1 < n ∧ i = .link k := by
  rw [ghzOperations, List.mem_cons, List.mem_map]
  refine or_congr_right (exists_congr fun k => ?_)
  rw [List.mem_range, Nat.lt_sub_iff_add_lt, eq_comm]

theorem sound_of_mem_ghzOperations {n : UInt32} (h : 0 < n.toNat) {i : Instruction}
    (hi : i ∈ ghzOperations n.toNat) : i.Sound n := by
  rcases mem_ghzOperations.mp hi with rfl | ⟨k, hk, rfl⟩
  · refine ⟨?_, ?_, List.nodup_singleton _⟩
    · rintro expected ⟨⟩
      rfl
    · intro q hq
      rw [List.mem_singleton.mp hq]
      exact h
  · exact Instruction.sound_link hk

/-! ## The circuit -/

/-- An instruction that acts on a qubit of the last moment gets a moment of its own. -/
theorem append_after_last {c : Circuit} {i last : Instruction} {q : Qubit} {before : List Moment}
    (hi : i.Sound c.size) (hlast : c.moments = before ++ [.only last]) (hq : q ∈ i.qubits)
    (hshared : q ∈ last.qubits) :
    c.append i = .ok { c with moments := c.moments ++ [.only i] } := by
  have hacts : (Moment.only last).actsOnAny i.qubits = true :=
    Moment.actsOnAny_iff_shares.mpr ⟨last, List.mem_singleton.mpr rfl, q, hshared, hq⟩
  have hget : c.moments[before.length]? = some (.only last) := by
    rw [hlast, List.getElem?_concat_length]
  have hslot : slot i.qubits c.moments = c.moments.length := by
    have hlower := lt_slot_of_actsOnAny hget hacts
    have hupper := slot_le_length i.qubits c.moments
    have hlength : c.moments.length = before.length + 1 := by
      rw [hlast, List.length_append, List.length_singleton]
    omega
  refine append_eq_ok_iff.mpr ⟨hi, ?_⟩
  rw [hslot, place_length]
  rfl

/-- The loop adds its links one after the other, each in a moment of its own.  What
carries it on is that the last moment acts on the qubit where the next link starts. -/
theorem entangleFrom_eq (count : Nat) :
    ∀ (start : Nat) (c : Circuit) {before : List Moment} {last : Instruction},
      start + count < c.size.toNat → c.moments = before ++ [.only last] →
      Qubit.nth start ∈ last.qubits →
        entangleFrom start count c =
          .ok { c with
            moments := c.moments ++ (List.range' start count).map fun i => .only (.link i) } := by
  induction count with
  | zero =>
      intro start c before last _ _ _
      rw [entangleFrom, List.range'_zero, List.map_nil, List.append_nil]
  | succ count ih =>
      intro start c before last hcount hlast hshared
      have hlink : (Instruction.link start).Sound c.size := Instruction.sound_link (by omega)
      have happend := append_after_last hlink hlast List.mem_cons_self hshared
      have hnext : Qubit.nth (start + 1) ∈ (Instruction.link start).qubits :=
        List.mem_cons_of_mem _ List.mem_cons_self
      have hleft : start + 1 + count < c.size.toNat := by omega
      have hrest := ih (start + 1) { c with moments := c.moments ++ [.only (.link start)] }
        hleft rfl hnext
      rw [entangleFrom, cx]
      change (c.append (.link start) >>= fun next => entangleFrom (start + 1) count next) = _
      rw [happend]
      refine hrest.trans ?_
      rw [List.range'_succ, List.map_cons, List.append_assoc]
      rfl

theorem ghz_eq {n : UInt32} (h : 0 < n.toNat) :
    ghz n = .ok ⟨"ghz", n, (ghzOperations n.toNat).map .only⟩ := by
  have hn : n ≠ 0 := by
    rintro rfl
    exact absurd h (Nat.lt_irrefl 0)
  have hfirst : (empty "ghz" n).h (.nth 0) = .ok ⟨"ghz", n, [.only (.ofGate .hadamard [.nth 0])]⟩ :=
    append_eq_ok_iff.mpr ⟨sound_of_mem_ghzOperations h List.mem_cons_self, rfl⟩
  have hlinks : 0 + (n.toNat - 1) < n.toNat := by omega
  have hchain := entangleFrom_eq (n.toNat - 1) 0 ⟨"ghz", n, [.only (.ofGate .hadamard [.nth 0])]⟩
    hlinks (List.nil_append _).symm List.mem_cons_self
  rw [ghz, if_neg hn]
  change ((empty "ghz" n).h (.nth 0) >>= fun c => entangleFrom 0 (n.toNat - 1) c) = _
  rw [hfirst]
  refine hchain.trans ?_
  rw [ghzOperations, List.map_cons, List.map_map, List.range_eq_range']
  rfl

theorem operations_map_only (ops : List Instruction) :
    (ops.map Moment.only).flatMap (·.operations) = ops := by
  rw [List.flatMap_map]
  exact List.flatMap_singleton' ops

end Circuit

/-! ## On devices -/

namespace Device

theorem checkOperation_h (d : Device) (q : Qubit) :
    d.checkOperation (.ofGate .hadamard [q]) = .ok () ↔ q.index < d.size.toNat := by
  have hnear : ¬ (Instruction.ofGate .hadamard [q]).Distant := by
    rintro ⟨p, q, hpq, _⟩
    cases hpq
  rw [checkOperation, then_eq_ok_iff, then_eq_ok_iff, checkRange_eq_ok_iff, checkLocality_eq_ok_iff]
  constructor
  · rintro ⟨_, hrange, _⟩
    exact hrange q List.mem_cons_self
  · intro hrange
    exact ⟨rfl, by simpa [Instruction.ofGate] using hrange, hnear⟩

theorem checkOperation_link (d : Device) {i : Nat} (h : i + 1 < 4294967296) :
    d.checkOperation (.link i) = .ok () ↔ i + 1 < d.size.toNat := by
  have hcontrol : (Qubit.nth i).index = i := Qubit.index_nth (by omega)
  have htarget : (Qubit.nth (i + 1)).index = i + 1 := Qubit.index_nth h
  rw [checkOperation, then_eq_ok_iff, then_eq_ok_iff, checkRange_eq_ok_iff, checkLocality_eq_ok_iff]
  constructor
  · rintro ⟨_, hrange, _⟩
    have := hrange (.nth (i + 1)) (List.mem_cons_of_mem _ List.mem_cons_self)
    omega
  · intro hrange
    refine ⟨rfl, ?_, Instruction.not_distant_link h⟩
    intro q hq
    rcases List.mem_pair.mp hq with rfl | rfl
    · omega
    · omega

/-- The last link needs the last qubit, and nothing else needs more. -/
theorem checkOperations_ghzOperations (d : Device) {n : Nat} (hpos : 0 < n) (h : n < 4294967296) :
    d.checkOperations (Circuit.ghzOperations n) = .ok () ↔ n ≤ d.size.toNat := by
  have hfirst : (Qubit.nth 0).index = 0 := rfl
  rw [checkOperations_eq_ok_iff]
  constructor
  · intro hall
    rcases Nat.lt_or_ge 1 n with hmany | hone
    · have hlink := hall (.link (n - 2))
        (Circuit.mem_ghzOperations.mpr (.inr ⟨n - 2, by omega, rfl⟩))
      rw [checkOperation_link d (by omega)] at hlink
      omega
    · have hh := hall _ (Circuit.mem_ghzOperations.mpr (.inl rfl))
      rw [checkOperation_h] at hh
      omega
  · intro hsize i hi
    rcases Circuit.mem_ghzOperations.mp hi with rfl | ⟨k, hk, rfl⟩
    · rw [checkOperation_h]
      omega
    · rw [checkOperation_link d (by omega)]
      omega

end Device

/-! ## Translated -/

namespace Circuit

/-- What is the same for all links is counted once for each of them. -/
theorem countP_ghzOperations {P : Instruction → Bool} {b : Bool} (h : ∀ i, P (.link i) = b)
    (n : Nat) :
    (ghzOperations n).countP P =
      (if b then n - 1 else 0) + if P (.ofGate .hadamard [.nth 0]) then 1 else 0 := by
  have hlinks : ∀ indices : List Nat,
      (indices.map Instruction.link).countP P = if b then indices.length else 0 := by
    intro indices
    induction indices with
    | nil => cases b <;> rfl
    | cons i rest ih =>
        rw [List.map_cons, List.countP_cons, ih, h]
        cases b <;> rfl
  rw [ghzOperations, List.countP_cons, hlinks, List.length_range]

end Circuit

namespace Device

/-- Translated for a device that accepts it, the chain takes a coupler for H and five for
every link, and no crossing. -/
theorem LocalProgram.ghz {d : Device} {n : Nat} {p : Program} (hpos : 0 < n)
    (h : d.LocalProgram (Circuit.ghzOperations n) p) :
    p.operationCount = n ∧ p.componentCount = 5 * n - 4 ∧
      ∀ component ∈ p.components, component.part.isCrossing = false := by
  have hgates := Circuit.countP_ghzOperations (P := Instruction.isGate) (fun _ => rfl) n
  have hh := Circuit.countP_ghzOperations (P := Instruction.applies .hadamard) (fun _ => rfl) n
  have hx := Circuit.countP_ghzOperations (P := Instruction.applies .pauliX) (fun _ => rfl) n
  have hcx := Circuit.countP_ghzOperations (P := Instruction.applies .cnot) (fun _ => rfl) n
  refine ⟨?_, ?_, ?_⟩
  · rw [h.operationCount, hgates]
    exact Nat.sub_add_cancel hpos
  · rw [h.componentCount, hh, hx, hcx]
    show 0 + 1 + 0 + 5 * (n - 1 + 0) = _
    omega
  · have hnone : (Circuit.ghzOperations n).filter (Instruction.applies .pauliX) = [] :=
      List.eq_nil_of_length_eq_zero (List.countP_eq_length_filter.symm.trans hx)
    have hcrossings := h.crossings
    rw [hnone, List.flatMap_nil, List.filter_eq_nil_iff] at hcrossings
    intro component hcomponent
    exact eq_false_of_ne_true (hcrossings component hcomponent)

end Device

namespace Circuit

/-- The circuit of every GHZ state is there: H on the first qubit and then the chain of
controlled nots, every operation in a moment of its own.  It is sound; a device accepts
it exactly when it has as many qubits; and it is translated block for operation, with one
component for H and five for every controlled not, none of which crosses rails. -/
theorem ghz_prepares (n : UInt32) (hn : 1 ≤ n) :
    ∃ c : Circuit, ghz n = .ok c ∧ c.name = "ghz" ∧ c.size = n ∧ c.depth = n.toNat ∧
      c.moments = (ghzOperations n.toNat).map (fun i => ⟨[i]⟩) ∧
      c.verify = .ok () ∧
      (∀ m : UInt32, ((Device.mk m).check c).outcome = .ok () ↔ n ≤ m) ∧
      ∀ k : Compiler, ∃ p : Program, (k.lowerCircuit c).outcome = .ok p ∧
        p.operationCount = n.toNat ∧ p.componentCount = 5 * n.toNat - 4 ∧
        ∀ component ∈ p.components, component.part.isCrossing = false := by
  have hpos : 0 < n.toNat := UInt32.le_iff_toNat_le.mp hn
  have hoperations := operations_map_only (ghzOperations n.toNat)
  have hsound : (Circuit.mk "ghz" n ((ghzOperations n.toNat).map .only)).Sound := by
    intro m hm
    obtain ⟨i, hi, rfl⟩ := List.mem_map.mp hm
    exact Moment.sound_only (sound_of_mem_ghzOperations hpos hi)
  have hdevice : ∀ d : Device,
      d.checkOperations (ghzOperations n.toNat) = .ok () ↔ n.toNat ≤ d.size.toNat :=
    fun d => d.checkOperations_ghzOperations hpos n.toNat_lt
  refine ⟨_, ghz_eq hpos, rfl, rfl, ?_, rfl, verify_eq_ok_iff.mpr hsound, ?_, ?_⟩
  · rw [depth, List.length_map, length_ghzOperations hpos]
  · intro m
    rw [Device.check_outcome, operations, hoperations, hdevice, UInt32.le_iff_toNat_le]
  · intro k
    have hruns := (Device.checkOperations_operations_iff hsound).mp
      ((congrArg (Device.mk n).checkOperations hoperations).trans
        ((hdevice ⟨n⟩).mpr (Nat.le_refl _)))
    rw [operations, hoperations] at hruns
    refine ⟨_, Compiler.lowerCircuit_outcome k _, ?_⟩
    rw [lowerable, operations, hoperations]
    exact (Device.localProgram_of_runs hruns).ghz hpos

/-- The largest circuit of the family needs a device with as many qubits as there can
be. -/
theorem ghz_prepares_largest :
    ∃ c : Circuit, ghz 4294967295 = .ok c ∧ c.depth = 4294967295 ∧ c.verify = .ok () ∧
      ((Device.mk 4294967295).check c).outcome = .ok () ∧
      ((Device.mk 4294967294).check c).outcome ≠ .ok () := by
  obtain ⟨c, hc, _, _, hdepth, _, hverify, hdevice, _⟩ := ghz_prepares 4294967295 (by decide)
  refine ⟨c, hc, hdepth, hverify, (hdevice _).mpr (by decide), ?_⟩
  intro h
  exact absurd ((hdevice _).mp h) (by decide)

end Circuit

end DualRail
