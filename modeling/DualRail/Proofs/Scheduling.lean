/-
  Instructions as early as possible.

  `Circuit.append` only looks at the moments that are there and takes the first one
  after everything that the instruction depends on.  Still the circuit that comes out
  of a whole list of instructions can be described without the calls.  A chain is a
  part of the list in which each instruction shares a qubit with the one before; an
  instruction stands in the moment whose index is the number of instructions before it
  on the longest chain that ends with it.

  What carries the induction is `Scheduled`: it says of the instructions so far which
  moment holds them.  From it the slot of the next instruction is read off as the
  length of a longest chain (`Scheduled.longestTo_slot`).

  No other arrangement is shorter.  Two instructions that share a qubit keep their order
  and cannot share a moment, so every chain needs as many moments as it has
  instructions (`Arranges.length_le`).
-/
import Mathlib.Data.List.Chain
import DualRail.Proofs.Placement

set_option autoImplicit false

namespace DualRail

/-! ## Chains -/

namespace Instruction

/-- Two instructions have an operand in common. -/
def Shares (i j : Instruction) : Prop := ∃ q ∈ i.qubits, q ∈ j.qubits

/-- Some of the given instructions, in their order, of which each shares a qubit with
the one before. -/
structure Chain (given chain : List Instruction) : Prop where
  sublist : chain.Sublist given
  linked : chain.IsChain Shares

/-- A chain that ends with an instruction that is given after those of `before`. -/
def ChainTo (before : List Instruction) (i : Instruction) (chain : List Instruction) : Prop :=
  ∃ earlier : List Instruction, chain = earlier ++ [i] ∧ earlier.Sublist before ∧
    chain.IsChain Shares

/-- The longest chain that ends with an instruction has this length. -/
structure LongestTo (before : List Instruction) (i : Instruction) (length : Nat) : Prop where
  attained : ∃ chain : List Instruction, ChainTo before i chain ∧ chain.length = length
  bound : ∀ chain : List Instruction, ChainTo before i chain → chain.length ≤ length

/-- The longest chain in a list has this length. -/
structure Longest (given : List Instruction) (length : Nat) : Prop where
  attained : ∃ chain : List Instruction, Chain given chain ∧ chain.length = length
  bound : ∀ chain : List Instruction, Chain given chain → chain.length ≤ length

theorem not_shares_of_independent {i j : Instruction} (h : i.Independent j) : ¬ i.Shares j := by
  rintro ⟨q, hi, hj⟩
  exact h q hi hj

theorem Chain.nil (given : List Instruction) : Chain given [] where
  sublist := List.nil_sublist given
  linked := List.IsChain.nil

/-- A chain that ends with an instruction lies in the list up to that instruction. -/
theorem ChainTo.chain {given : List Instruction} {k : Nat} {i : Instruction}
    {chain : List Instruction} (hk : given[k]? = some i) (h : ChainTo (given.take k) i chain) :
    Chain given chain := by
  obtain ⟨earlier, rfl, hsublist, hlinked⟩ := h
  refine ⟨?_, hlinked⟩
  have htake : given.take (k + 1) = given.take k ++ [i] := by
    rw [List.take_add_one, hk]
    rfl
  have hall : (earlier ++ [i]).Sublist (given.take (k + 1)) := by
    rw [htake]
    exact hsublist.append_right [i]
  exact hall.trans (List.take_sublist _ _)

/-- The last instruction of a chain stands somewhere in the list, and the others before
it. -/
theorem Chain.chainTo {given earlier : List Instruction} {i : Instruction}
    (h : Chain given (earlier ++ [i])) :
    ∃ k : Nat, given[k]? = some i ∧ ChainTo (given.take k) i (earlier ++ [i]) := by
  obtain ⟨before, rest, rfl, hbefore, hrest⟩ := List.append_sublist_iff.mp h.sublist
  obtain ⟨more, after, rfl⟩ := List.append_of_mem (List.singleton_sublist.mp hrest)
  refine ⟨(before ++ more).length, ?_, earlier, rfl, ?_, h.linked⟩
  · simp
  · have htake : (before ++ (more ++ i :: after)).take (before ++ more).length =
        before ++ more := by
      rw [← List.append_assoc, List.take_left]
    rw [htake]
    exact hbefore.trans (List.sublist_append_left before more)

theorem ChainTo.singleton (before : List Instruction) (i : Instruction) : ChainTo before i [i] :=
  ⟨[], rfl, List.nil_sublist before, List.IsChain.singleton i⟩

/-- A chain goes on with an instruction that shares a qubit with its last one. -/
theorem Chain.extend {given earlier : List Instruction} {i j : Instruction}
    (h : Chain given (earlier ++ [i])) (hij : i.Shares j) :
    ChainTo given j (earlier ++ [i] ++ [j]) := by
  refine ⟨earlier ++ [i], rfl, h.sublist, ?_⟩
  rw [List.append_assoc, List.singleton_append, List.isChain_append_cons_cons]
  exact ⟨h.linked, hij, List.IsChain.singleton j⟩

end Instruction

open Instruction (Shares Chain ChainTo LongestTo Longest Rearranged)

/-! ## Moments by their index -/

namespace Moment

theorem actsOnAny_iff_shares {m : Moment} {i : Instruction} :
    m.actsOnAny i.qubits = true ↔ ∃ j ∈ m.operations, j.Shares i := by
  rw [← Bool.not_eq_false, actsOnAny_eq_false_iff]
  simp [Instruction.Shares]

end Moment

namespace Circuit

/-- A moment that acts on one of the qubits lies before the slot. -/
theorem lt_slot_of_actsOnAny {qubits : List Qubit} {ms : List Moment} {index : Nat} {m : Moment}
    (hm : ms[index]? = some m) (hacts : m.actsOnAny qubits = true) : index < slot qubits ms := by
  by_contra hle
  have hdrop : m ∈ ms.drop (slot qubits ms) := by
    refine List.mem_iff_getElem?.mpr ⟨index - slot qubits ms, ?_⟩
    rw [List.getElem?_drop, Nat.add_sub_cancel' (Nat.not_lt.mp hle)]
    exact hm
  rw [actsOnAny_of_mem_drop_slot hdrop] at hacts
  cases hacts

/-- The moment right before the slot acts on one of the qubits. -/
theorem exists_actsOnAny_of_slot {qubits : List Qubit} {ms : List Moment} {index : Nat}
    (h : slot qubits ms = index + 1) :
    ∃ m : Moment, ms[index]? = some m ∧ m.actsOnAny qubits = true := by
  fun_induction slot qubits ms generalizing index with
  | case1 => cases h
  | case2 m rest hrest hacts ih =>
      cases h
      exact ⟨m, rfl, hacts⟩
  | case3 m rest hrest hacts ih => cases h
  | case4 m rest k hrest ih =>
      cases h
      obtain ⟨m', hm', hacts⟩ := ih hrest
      exact ⟨m', hm', hacts⟩

/-- Placing changes one moment, or adds one after the last. -/
theorem getD_place (i : Instruction) {index : Nat} {ms : List Moment} (h : index ≤ ms.length)
    (k : Nat) :
    (place i index ms).getD k Moment.empty =
      if k = index then (ms.getD k Moment.empty).add i else ms.getD k Moment.empty := by
  fun_induction place i index ms generalizing k with
  | case1 index =>
      obtain rfl : index = 0 := Nat.le_zero.mp h
      cases k with
      | zero => rfl
      | succ k => rfl
  | case2 m rest =>
      cases k with
      | zero => rfl
      | succ k => rfl
  | case3 index m rest ih =>
      cases k with
      | zero => rfl
      | succ k => simpa using ih (Nat.le_of_succ_le_succ h) k

end Circuit

/-! ## Which moment holds which instruction -/

/-- The instructions whose level is `index`, in the order in which they are given.  The
level of an instruction depends on its position in the list. -/
def Moment.atLevel (level : Nat → Nat) (given : List Instruction) (index : Nat) : Moment :=
  ⟨(given.zipIdx.filter fun p => level p.2 = index).map Prod.fst⟩

namespace Moment

theorem mem_atLevel {level : Nat → Nat} {given : List Instruction} {index : Nat}
    {i : Instruction} :
    i ∈ (atLevel level given index).operations ↔
      ∃ k : Nat, given[k]? = some i ∧ level k = index := by
  simp [atLevel, List.mem_zipIdx_iff_getElem?]

/-- One more instruction enters the moment of its level. -/
theorem atLevel_concat (level : Nat → Nat) (given : List Instruction) (i : Instruction)
    (n index : Nat) :
    atLevel (Function.update level given.length n) (given ++ [i]) index =
      if index = n then (atLevel level given index).add i else atLevel level given index := by
  have hsame : given.zipIdx.filter (fun p => Function.update level given.length n p.2 = index) =
      given.zipIdx.filter (fun p => level p.2 = index) := by
    apply List.filter_congr
    rintro ⟨j, k⟩ hjk
    have hk : k < given.length := by
      obtain ⟨hk, _⟩ := List.getElem?_eq_some_iff.mp (List.mem_zipIdx_iff_getElem?.mp hjk)
      exact hk
    rw [Function.update_of_ne (Nat.ne_of_lt hk)]
  unfold atLevel
  rw [List.zipIdx_append, List.filter_append, hsame]
  split
  · rename_i hindex
    simp [add, hindex]
  · rename_i hindex
    simp [Ne.symm hindex]

end Moment

namespace Circuit

/-- How moments hold the given instructions when each of them is as early as it can be:
its level, which is the index of its moment, is one less than the length of the longest
chain that ends with it. -/
structure Scheduled (given : List Instruction) (level : Nat → Nat) (ms : List Moment) : Prop where
  longest : ∀ (k : Nat) (i : Instruction), given[k]? = some i →
    LongestTo (given.take k) i (level k + 1)
  moments : ∀ index : Nat, ms.getD index Moment.empty = Moment.atLevel level given index
  nonempty : ∀ m ∈ ms, m.operations ≠ []

namespace Scheduled

variable {given : List Instruction} {level : Nat → Nat} {ms : List Moment}

theorem nil : Scheduled [] level [] where
  longest := by
    intro k i hk
    cases hk
  moments := fun _ => rfl
  nonempty := by
    intro m hm
    cases hm

/-- An instruction of a moment is the end of a chain with as many instructions before it
as there are moments before this one. -/
theorem exists_chain (h : Scheduled given level ms) {index : Nat} {m : Moment} {i : Instruction}
    (hm : ms[index]? = some m) (hi : i ∈ m.operations) :
    ∃ earlier : List Instruction, Chain given (earlier ++ [i]) ∧ earlier.length = index := by
  have hlevel : i ∈ (Moment.atLevel level given index).operations := by
    rw [← h.moments, List.getD_eq_getElem?_getD, hm]
    exact hi
  obtain ⟨k, hk, rfl⟩ := Moment.mem_atLevel.mp hlevel
  obtain ⟨chain, hchain, hlength⟩ := (h.longest k i hk).attained
  have hall := hchain.chain hk
  obtain ⟨earlier, rfl, _⟩ := hchain
  refine ⟨earlier, hall, ?_⟩
  simpa using hlength

/-- The last instruction of a chain stands in a moment with at least as many moments
before it as the chain has instructions before the last. -/
theorem exists_moment (h : Scheduled given level ms) {earlier : List Instruction}
    {i : Instruction} (hchain : Chain given (earlier ++ [i])) :
    ∃ (index : Nat) (m : Moment), ms[index]? = some m ∧ i ∈ m.operations ∧
      earlier.length ≤ index := by
  obtain ⟨k, hk, hto⟩ := hchain.chainTo
  have hbound := (h.longest k i hk).bound _ hto
  have hi : i ∈ (ms.getD (level k) Moment.empty).operations := by
    rw [h.moments]
    exact Moment.mem_atLevel.mpr ⟨k, hk, rfl⟩
  rw [List.getD_eq_getElem?_getD] at hi
  cases hm : ms[level k]? with
  | none =>
      rw [hm] at hi
      cases hi
  | some m =>
      rw [hm] at hi
      refine ⟨level k, m, hm, hi, ?_⟩
      simpa using hbound

/-- The slot of the next instruction is given by the chains that end with it. -/
theorem longestTo_slot (h : Scheduled given level ms) (i : Instruction) :
    LongestTo given i (slot i.qubits ms + 1) where
  attained := by
    cases hslot : slot i.qubits ms with
    | zero => exact ⟨[i], ChainTo.singleton given i, rfl⟩
    | succ index =>
        obtain ⟨m, hm, hacts⟩ := exists_actsOnAny_of_slot hslot
        obtain ⟨j, hj, hshares⟩ := Moment.actsOnAny_iff_shares.mp hacts
        obtain ⟨earlier, hchain, hlength⟩ := h.exists_chain hm hj
        refine ⟨_, hchain.extend hshares, ?_⟩
        simp [hlength]
  bound := by
    rintro chain ⟨earlier, rfl, hsublist, hlinked⟩
    rw [List.length_append, List.length_singleton]
    apply Nat.succ_le_succ
    -- Only the last of the earlier instructions has to share a qubit with this one.
    rcases List.eq_nil_or_concat earlier with rfl | ⟨init, j, rfl⟩
    · exact Nat.zero_le _
    · rw [List.concat_eq_append] at *
      rw [List.append_assoc, List.singleton_append, List.isChain_append_cons_cons] at hlinked
      obtain ⟨hinit, hshares, _⟩ := hlinked
      obtain ⟨index, m, hm, hj, hindex⟩ := h.exists_moment ⟨hsublist, hinit⟩
      have hlt := lt_slot_of_actsOnAny hm (Moment.actsOnAny_iff_shares.mpr ⟨j, hj, hshares⟩)
      rw [List.length_append, List.length_singleton]
      omega

/-- The longest chain has as many instructions as there are moments. -/
theorem longest_length (h : Scheduled given level ms) : Longest given ms.length where
  attained := by
    rcases List.eq_nil_or_concat ms with rfl | ⟨init, m, rfl⟩
    · exact ⟨[], Chain.nil given, rfl⟩
    · rw [List.concat_eq_append] at *
      obtain ⟨i, hi⟩ := List.exists_mem_of_ne_nil _ (h.nonempty m (by simp))
      have hm : (init ++ [m])[init.length]? = some m := List.getElem?_concat_length
      obtain ⟨earlier, hchain, hlength⟩ := h.exists_chain hm hi
      refine ⟨_, hchain, ?_⟩
      simp [hlength]
  bound := by
    intro chain hchain
    rcases List.eq_nil_or_concat chain with rfl | ⟨earlier, i, rfl⟩
    · exact Nat.zero_le _
    · rw [List.concat_eq_append] at *
      obtain ⟨index, m, hm, _, hindex⟩ := h.exists_moment hchain
      obtain ⟨hlt, _⟩ := List.getElem?_eq_some_iff.mp hm
      rw [List.length_append, List.length_singleton]
      omega

/-- Placing the next instruction keeps the others where they are and gives it the level
of its slot. -/
theorem place (h : Scheduled given level ms) (i : Instruction) :
    Scheduled (given ++ [i]) (Function.update level given.length (slot i.qubits ms))
      (Circuit.place i (slot i.qubits ms) ms) where
  longest := by
    intro k j hk
    rcases Nat.lt_trichotomy k given.length with hlt | rfl | hgt
    · rw [List.getElem?_append_left hlt] at hk
      rw [Function.update_of_ne (Nat.ne_of_lt hlt),
        List.take_append_of_le_length (Nat.le_of_lt hlt)]
      exact h.longest k j hk
    · rw [List.getElem?_concat_length, Option.some.injEq] at hk
      rw [Function.update_self, List.take_left, ← hk]
      exact h.longestTo_slot i
    · obtain ⟨hlt, _⟩ := List.getElem?_eq_some_iff.mp hk
      rw [List.length_append, List.length_singleton] at hlt
      omega
  moments := by
    intro index
    rw [getD_place i (slot_le_length i.qubits ms), Moment.atLevel_concat, h.moments]
  nonempty := fun _ hm => ne_nil_of_mem_place h.nonempty hm

end Scheduled

/-! ## Arrangements -/

/-- Moments that hold exactly the given instructions: those of a moment are independent
of each other, and on every qubit they come in the order in which they are given. -/
structure Arranges (ms : List Moment) (given : List Instruction) : Prop where
  independent : ∀ m ∈ ms, m.operations.Pairwise Instruction.Independent
  rearranged : Rearranged (ms.flatMap (·.operations)) given

end Circuit

namespace Instruction

/-- What is arranged first can be taken out of the given instructions. -/
theorem Rearranged.erase {i : Instruction} {ops given : List Instruction}
    (h : Rearranged (i :: ops) given) : Rearranged ops (given.erase i) where
  perm := by
    have hmem : i ∈ given := h.perm.mem_iff.mp List.mem_cons_self
    exact (h.perm.trans (List.perm_cons_erase hmem)).cons_inv
  perQubit := by
    intro q
    rw [← List.erase_filter, ← h.perQubit q]
    by_cases hq : i.actsOn q = true
    · have hkept : (i :: ops).filter (·.actsOn q) = i :: ops.filter (·.actsOn q) :=
        List.filter_cons_of_pos hq
      rw [hkept, List.erase_cons_head]
    · have hdropped : (i :: ops).filter (·.actsOn q) = ops.filter (·.actsOn q) :=
        List.filter_cons_of_neg hq
      rw [hdropped, List.erase_of_not_mem]
      intro hi
      exact hq (List.mem_filter.mp hi).2

/-- Nothing that is given before an instruction that is arranged first shares a qubit
with it. -/
theorem Rearranged.not_shares {i j : Instruction} {ops before after : List Instruction}
    (h : Rearranged (i :: ops) (before ++ i :: after)) (hi : i ∉ before) (hj : j ∈ before) :
    ¬ j.Shares i := by
  rintro ⟨q, hjq, hiq⟩
  have hkept : (i :: ops).filter (·.actsOn q) = i :: ops.filter (·.actsOn q) :=
    List.filter_cons_of_pos (actsOn_eq_true_iff.mpr hiq)
  have hperQubit := h.perQubit q
  rw [hkept, List.filter_append] at hperQubit
  have hmem : j ∈ before.filter (·.actsOn q) :=
    List.mem_filter.mpr ⟨hj, actsOn_eq_true_iff.mpr hjq⟩
  cases hbefore : before.filter (·.actsOn q) with
  | nil =>
      rw [hbefore] at hmem
      cases hmem
  | cons k rest =>
      rw [hbefore, List.cons_append, List.cons.injEq] at hperQubit
      have hk : k ∈ before.filter (·.actsOn q) := by
        rw [hbefore]
        exact List.mem_cons_self
      rw [← hperQubit.1] at hk
      exact hi (List.mem_of_mem_filter hk)

/-- Without the instruction that is arranged first, a chain loses at most its first
instruction. -/
theorem Chain.erase {i : Instruction} {ops given chain : List Instruction}
    (h : Rearranged (i :: ops) given) (hchain : Chain given chain) :
    Chain (given.erase i) chain ∨ ∃ rest, chain = i :: rest ∧ Chain (given.erase i) rest := by
  have hmem : i ∈ given := h.perm.mem_iff.mp List.mem_cons_self
  obtain ⟨before, after, hi, rfl, herase⟩ := List.exists_erase_eq hmem
  rw [herase]
  obtain ⟨first, second, rfl, hfirst, hsecond⟩ := List.sublist_append_iff.mp hchain.sublist
  rcases List.sublist_cons_iff.mp hsecond with hsecond | ⟨rest, rfl, hrest⟩
  · exact .inl ⟨hfirst.append hsecond, hchain.linked⟩
  · rcases List.eq_nil_or_concat first with rfl | ⟨init, j, rfl⟩
    · refine .inr ⟨rest, rfl, hrest.trans (List.sublist_append_right before after), ?_⟩
      exact hchain.linked.tail
    · -- The instruction before this one on the chain would have to share a qubit with it.
      rw [List.concat_eq_append] at *
      have hlinked := hchain.linked
      rw [List.append_assoc, List.singleton_append, List.isChain_append_cons_cons] at hlinked
      have hj : j ∈ before := hfirst.subset (by simp)
      exact absurd hlinked.2.1 (h.not_shares hi hj)

/-- Without the instructions of the first moment of an arrangement, a chain loses at most
its first instruction. -/
theorem exists_rearranged_of_append {ops rest : List Instruction} :
    ∀ {given : List Instruction}, ops.Pairwise Independent → Rearranged (ops ++ rest) given →
      ∃ given' : List Instruction, Rearranged rest given' ∧
        ∀ chain : List Instruction, Chain given chain →
          Chain given' chain ∨
            ∃ i ∈ ops, ∃ chain' : List Instruction, chain = i :: chain' ∧ Chain given' chain' := by
  induction ops with
  | nil =>
      intro given _ h
      exact ⟨given, h, fun chain hchain => .inl hchain⟩
  | cons i ops ih =>
      intro given hindependent h
      obtain ⟨hi, hops⟩ := List.pairwise_cons.mp hindependent
      obtain ⟨given', hgiven', hchains⟩ := ih hops h.erase
      refine ⟨given', hgiven', ?_⟩
      intro chain hchain
      rcases hchain.erase h with hshort | ⟨chain', rfl, hchain'⟩
      · rcases hchains chain hshort with hleft | ⟨j, hj, chain', rfl, hchain'⟩
        · exact .inl hleft
        · exact .inr ⟨j, List.mem_cons_of_mem i hj, chain', rfl, hchain'⟩
      · rcases hchains chain' hchain' with hleft | ⟨j, hj, chain'', rfl, _⟩
        · exact .inr ⟨i, List.mem_cons_self, chain', rfl, hleft⟩
        · -- Two instructions of one moment do not follow each other on a chain.
          have hshares := (List.isChain_cons_cons.mp hchain.linked).1
          exact absurd hshares (not_shares_of_independent (hi j hj))

end Instruction

namespace Circuit

/-- Every chain needs as many moments as it has instructions. -/
theorem Arranges.length_le {ms : List Moment} :
    ∀ {given chain : List Instruction}, Arranges ms given → Chain given chain →
      chain.length ≤ ms.length := by
  induction ms with
  | nil =>
      intro given chain h hchain
      have hgiven : given = [] := h.rearranged.perm.nil_eq.symm
      have hsublist := hchain.sublist
      rw [hgiven, List.sublist_nil] at hsublist
      rw [hsublist]
      exact Nat.le_refl 0
  | cons m ms ih =>
      intro given chain h hchain
      obtain ⟨hm, hms⟩ := List.forall_mem_cons.mp h.independent
      have hrearranged := h.rearranged
      rw [List.flatMap_cons] at hrearranged
      obtain ⟨given', hgiven', hchains⟩ :=
        Instruction.exists_rearranged_of_append hm hrearranged
      have hrest : Arranges ms given' := ⟨hms, hgiven'⟩
      rcases hchains chain hchain with hleft | ⟨i, _, chain', rfl, hchain'⟩
      · exact Nat.le_succ_of_le (ih hrest hleft)
      · exact Nat.succ_le_succ (ih hrest hchain')

/-! ## Lists of instructions -/

/-- A circuit that holds the given instructions, each as early as it can be. -/
structure Earliest (given : List Instruction) (c : Circuit) : Prop where
  sound : c.Sound
  rearranged : Rearranged c.operations given
  scheduled : ∃ level : Nat → Nat, Scheduled given level c.moments

theorem Earliest.empty (name : String) (size : UInt32) : Earliest [] (empty name size) where
  sound := Sound.empty name size
  rearranged := Rearranged.refl []
  scheduled := ⟨fun _ => 0, Scheduled.nil⟩

theorem Earliest.append {given : List Instruction} {c d : Circuit} {i : Instruction}
    (h : Earliest given c) (hd : c.append i = .ok d) : Earliest (given ++ [i]) d where
  sound := h.sound.append hd
  rearranged := (operations_append hd).trans (h.rearranged.append_right [i])
  scheduled := by
    obtain ⟨level, hlevel⟩ := h.scheduled
    obtain ⟨_, rfl⟩ := append_eq_ok_iff.mp hd
    exact ⟨_, hlevel.place i⟩

theorem Earliest.appendAll (rest : List Instruction) :
    ∀ {given : List Instruction} {c : Circuit}, Earliest given c →
      (∀ i ∈ rest, i.Sound c.size) →
        ∃ d : Circuit, c.appendAll rest = .ok d ∧ Earliest (given ++ rest) d := by
  induction rest with
  | nil =>
      intro given c h _
      refine ⟨c, rfl, ?_⟩
      rwa [List.append_nil]
  | cons i rest ih =>
      intro given c h hrest
      obtain ⟨hi, hrest⟩ := List.forall_mem_cons.mp hrest
      have hnext := append_eq_ok_iff.mpr ⟨hi, rfl⟩
      obtain ⟨d, hd, hearliest⟩ := ih (h.append hnext) hrest
      refine ⟨d, ?_, ?_⟩
      · rw [Circuit.appendAll, hnext]
        exact hd
      · rwa [List.append_assoc] at hearliest

theorem Earliest.arranges {given : List Instruction} {c : Circuit} (h : Earliest given c) :
    Arranges c.moments given where
  independent := fun m hm => (h.sound m hm).independent
  rearranged := h.rearranged

/-- Sound instructions can be appended to an empty circuit, one after the other.  Every
instruction is then in the moment whose index is one less than the length of the longest
chain that ends with it; no moment is empty, and there are as many moments as the longest
chain of all has instructions.  No arrangement of the instructions has fewer moments. -/
theorem appendAll_earliest (name : String) (size : UInt32) (given : List Instruction)
    (h : ∀ i ∈ given, i.Sound size) :
    ∃ (c : Circuit) (level : Nat → Nat), (empty name size).appendAll given = .ok c ∧
      (∀ (k : Nat) (i : Instruction), given[k]? = some i →
        LongestTo (given.take k) i (level k + 1)) ∧
      (∀ index : Nat, c.moments.getD index Moment.empty = Moment.atLevel level given index) ∧
      (∀ m ∈ c.moments, m.operations ≠ []) ∧
      Longest given c.depth ∧
      Arranges c.moments given ∧
      ∀ ms : List Moment, Arranges ms given → c.depth ≤ ms.length := by
  obtain ⟨c, hc, hearliest⟩ := (Earliest.empty name size).appendAll given h
  rw [List.nil_append] at hearliest
  obtain ⟨level, hscheduled⟩ := hearliest.scheduled
  have hlongest : Longest given c.depth := hscheduled.longest_length
  refine ⟨c, level, hc, hscheduled.longest, hscheduled.moments, hscheduled.nonempty, hlongest,
    hearliest.arranges, ?_⟩
  intro ms hms
  obtain ⟨chain, hchain, hlength⟩ := hlongest.attained
  rw [← hlength]
  exact hms.length_le hchain

/-- Instructions of which two are the same, one acts on no qubit and one waits for two
others. -/
def stackedList : List Instruction :=
  [.ofGate .cnot [⟨0⟩, ⟨1⟩], .ofGate .hadamard [⟨2⟩], .ofGate .hadamard [⟨2⟩],
    .measure [⟨1⟩, ⟨2⟩] "m", .barrier [], .ofGate .cnot [⟨0⟩, ⟨1⟩]]

theorem appendAll_earliest_stackedList :
    (∀ i ∈ stackedList, i.Sound 3) ∧
      ∃ c : Circuit, (empty "stacked" 3).appendAll stackedList = .ok c ∧
        c.moments = [⟨[.ofGate .cnot [⟨0⟩, ⟨1⟩], .ofGate .hadamard [⟨2⟩], .barrier []]⟩,
          ⟨[.ofGate .hadamard [⟨2⟩]]⟩, ⟨[.measure [⟨1⟩, ⟨2⟩] "m"]⟩,
          ⟨[.ofGate .cnot [⟨0⟩, ⟨1⟩]]⟩] ∧
        Longest stackedList 4 ∧ ∀ ms : List Moment, Arranges ms stackedList → 4 ≤ ms.length := by
  have hsound : ∀ i ∈ stackedList, i.Sound 3 := Moment.checkOperations_eq_ok_iff.mp rfl
  obtain ⟨c, level, hc, _, _, _, hlongest, _, hleast⟩ :=
    appendAll_earliest "stacked" 3 stackedList hsound
  cases hc
  exact ⟨hsound, _, rfl, rfl, hlongest, hleast⟩

end Circuit

end DualRail
