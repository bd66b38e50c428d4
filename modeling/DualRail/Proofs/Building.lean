/-
  Building circuits call by call.

  A circuit is built by calls that change it in place.  A call reads the circuit,
  may refuse what it is given, and then writes; what it has written by the time it
  fails stays written.  Here the calls are programs on such a circuit, and each of
  them is shown to do what the function of the same name does to circuits as values
  (`Call.run_perform`).  In particular nothing is written before everything has been
  checked, and no moment is asked for that is not there.

  On that footing two things are shown for whole runs, whatever the calls and
  whatever they are given.  The circuit is sound at every point.  And when no call
  fails, the circuit holds exactly the operations it was given, in the order in
  which they were given as far as any one qubit can tell.
-/
import DualRail.Proofs.Placement

set_option autoImplicit false

namespace DualRail

namespace Building

/-! ## Calls in place -/

/-- Why a call does not complete: it refuses what it is given, or it asks for a
moment that is not there. -/
inductive Failure
  | refused (error : CircuitError)
  | outOfRange (index : Nat)
deriving DecidableEq, Repr, Inhabited

/-- A program on a circuit that is changed in place.  The circuit remains after a
failure, with all that has been written until then. -/
abbrev InPlace (α : Type) : Type := EStateM Failure Circuit α

/-- Stop if a check has refused something. -/
def demand : Except CircuitError Unit → InPlace Unit
  | .ok () => pure ()
  | .error e => throw (.refused e)

/-- Open a moment after the last one. -/
def openMoment : InPlace Unit :=
  modify fun c => { c with moments := c.moments ++ [Moment.empty] }

/-- Add an instruction to the moment with the given index, which has to be there. -/
def addTo (index : Nat) (i : Instruction) : InPlace Unit := do
  let c ← get
  match c.moments[index]? with
  | some m => set { c with moments := c.moments.set index (m.add i) }
  | none => throw (.outOfRange index)

/-- Add an instruction to the earliest moment after everything it depends on. -/
def append (i : Instruction) : InPlace Unit := do
  let c ← get
  demand (i.check c.size)
  let slot := Circuit.slot i.qubits c.moments
  if slot = c.moments.length then openMoment
  addTo slot i

/-- Check operations one after the other. -/
def checkEach : List Instruction → InPlace Unit
  | [] => pure ()
  | i :: rest => do
      let c ← get
      demand (i.check c.size)
      checkEach rest

/-- Add a whole moment after the last one. -/
def pushMoment (m : Moment) : InPlace Unit := do
  checkEach m.operations
  let c ← get
  demand (m.checkDisjoint c.moments.length)
  set { c with moments := c.moments ++ [m] }

/-- Add a qubit at the end of the line. -/
def addQubit : InPlace Qubit := do
  let c ← get
  set { c with size := c.size + 1 }
  return ⟨c.size⟩

/-- A call with its arguments. -/
inductive Call
  | addQubit
  | append (i : Instruction)
  | h (q : Qubit)
  | x (q : Qubit)
  | z (q : Qubit)
  | cx (control target : Qubit)
  | measure (qubits : List Qubit) (key : String)
  | pushMoment (m : Moment)
deriving DecidableEq, Repr, Inhabited

namespace Call

/-- The call as a program; its answer is the new qubit, if there is one. -/
def perform : Call → InPlace (Option Qubit)
  | addQubit => do
      let q ← Building.addQubit
      return some q
  | append i => do
      Building.append i
      return none
  | h q => do
      Building.append (.ofGate .hadamard [q])
      return none
  | x q => do
      Building.append (.ofGate .pauliX [q])
      return none
  | z q => do
      Building.append (.ofGate .pauliZ [q])
      return none
  | cx control target => do
      Building.append (.ofGate .cnot [control, target])
      return none
  | measure qubits key => do
      Building.append (.measure qubits key)
      return none
  | pushMoment m => do
      Building.pushMoment m
      return none

/-- The circuit that the call makes of a circuit. -/
def build (c : Circuit) : Call → Except CircuitError Circuit
  | addQubit => .ok c.addQubit.2
  | append i => c.append i
  | h q => c.h q
  | x q => c.x q
  | z q => c.z q
  | cx control target => c.cx control target
  | measure qubits key => c.measure qubits key
  | pushMoment m => c.pushMoment m

/-- What the call answers when it completes. -/
def answer (c : Circuit) : Call → Option Qubit
  | addQubit => some c.addQubit.1
  | _ => none

/-- The instructions that the call supplies, in their order. -/
def supplied : Call → List Instruction
  | addQubit => []
  | append i => [i]
  | h q => [.ofGate .hadamard [q]]
  | x q => [.ofGate .pauliX [q]]
  | z q => [.ofGate .pauliZ [q]]
  | cx control target => [.ofGate .cnot [control, target]]
  | measure qubits key => [.measure qubits key]
  | pushMoment m => m.operations

end Call

/-! ## A call in place and its function -/

/-- How a call ends whose function gives `result` for the circuit `c`: with the new
circuit, or with the error and the circuit as it was. -/
def settle {α : Type} (c : Circuit) (answer : α) :
    Except CircuitError Circuit → EStateM.Result Failure Circuit α
  | .ok d => .ok answer d
  | .error e => .error (.refused e) c

theorem settle_ne_outOfRange {α : Type} {c d : Circuit} {answer : α}
    {result : Except CircuitError Circuit} {index : Nat} :
    settle c answer result ≠ .error (.outOfRange index) d := by
  cases result with
  | error e => nofun
  | ok d' => nofun

theorem eq_of_settle_eq_error {α : Type} {c d : Circuit} {answer : α}
    {result : Except CircuitError Circuit} {failure : Failure}
    (h : settle c answer result = .error failure d) : d = c := by
  cases result with
  | error e =>
      cases h
      rfl
  | ok d' => cases h

theorem run_demand_ok (c : Circuit) : (demand (.ok ())).run c = .ok () c := rfl

theorem run_openMoment (c : Circuit) :
    openMoment.run c = .ok () { c with moments := c.moments ++ [Moment.empty] } := rfl

theorem run_addTo {index : Nat} {i : Instruction} {c : Circuit} {m : Moment}
    (hm : c.moments[index]? = some m) :
    (addTo index i).run c = .ok () { c with moments := c.moments.set index (m.add i) } := by
  simp [addTo, hm]

/-- The slot of an instruction is the index of a moment, or the next free one, and
in that case a moment is opened for it. -/
theorem run_append (i : Instruction) (c : Circuit) :
    (append i).run c = settle c () (c.append i) := by
  rw [append, Circuit.append, EStateM.run_bind, EStateM.run_get]
  simp only [EStateM.run_bind]
  cases i.check c.size with
  | error e => rfl
  | ok u =>
      rw [run_demand_ok]
      by_cases hslot : Circuit.slot i.qubits c.moments = c.moments.length
      · let opened : Circuit := { c with moments := c.moments ++ [Moment.empty] }
        have hopened : opened.moments[c.moments.length]? = some Moment.empty :=
          List.getElem?_concat_length
        have hset : opened.moments.set c.moments.length (Moment.empty.add i) =
            c.moments ++ [Moment.empty.add i] := by
          rw [List.set_append_right _ _ (Nat.le_refl _), Nat.sub_self]
          rfl
        simp only [hslot, if_true, EStateM.run_bind, run_openMoment]
        refine (run_addTo hopened).trans ?_
        rw [hset, Circuit.place_length]
        rfl
      · have hlt : Circuit.slot i.qubits c.moments < c.moments.length :=
          Nat.lt_of_le_of_ne (Circuit.slot_le_length i.qubits c.moments) hslot
        have hm := List.getElem?_eq_getElem hlt
        simp only [hslot, if_false, run_addTo hm, Circuit.place_of_lt i hm]
        rfl

theorem run_checkEach (ops : List Instruction) (c : Circuit) :
    (checkEach ops).run c = (demand (Moment.checkOperations c.size ops)).run c := by
  induction ops with
  | nil => rfl
  | cons i rest ih =>
      rw [checkEach, Moment.checkOperations, EStateM.run_bind, EStateM.run_get]
      simp only [EStateM.run_bind]
      cases i.check c.size with
      | error e => rfl
      | ok u => exact ih

theorem run_pushMoment (m : Moment) (c : Circuit) :
    (pushMoment m).run c = settle c () (c.pushMoment m) := by
  rw [pushMoment, EStateM.run_bind, run_checkEach, Circuit.pushMoment, Moment.check]
  cases Moment.checkOperations c.size m.operations with
  | error e => rfl
  | ok u =>
      rw [run_demand_ok]
      simp only [EStateM.run_bind, EStateM.run_get]
      cases m.checkDisjoint c.moments.length with
      | error e => rfl
      | ok v => rfl

/-- A call without an answer ends as its program does. -/
theorem run_silent {c : Circuit} {program : InPlace Unit} {result : Except CircuitError Circuit}
    (h : program.run c = settle c () result) :
    (do program; return none : InPlace (Option Qubit)).run c = settle c none result := by
  rw [EStateM.run_bind, h]
  cases result with
  | error e => rfl
  | ok d => rfl

/-- In place, a call does to the circuit what its function does to the value, and it
fails with the circuit untouched exactly when the function refuses. -/
theorem Call.run_perform (call : Call) (c : Circuit) :
    call.perform.run c = settle c (call.answer c) (call.build c) := by
  cases call with
  | addQubit => rfl
  | pushMoment m => exact run_silent (run_pushMoment m c)
  -- All others append an instruction.
  | _ => exact run_silent (run_append _ c)

/-! ## Runs of calls -/

/-- The circuit that a call leaves behind, whether it completes or not. -/
def after (c : Circuit) (call : Call) : Circuit :=
  match call.perform.run c with
  | .ok _ d => d
  | .error _ d => d

/-- The circuit that calls leave behind when they are made one after the other. -/
def run (c : Circuit) (calls : List Call) : Circuit := calls.foldl after c

theorem after_of_ok {c d : Circuit} {call : Call} (h : call.build c = .ok d) :
    after c call = d := by
  rw [after, Call.run_perform, h]
  rfl

theorem after_of_error {c : Circuit} {call : Call} {e : CircuitError}
    (h : call.build c = .error e) : after c call = c := by
  rw [after, Call.run_perform, h]
  rfl

/-- What one call does to a sound circuit on which there is still room on the line:
it stays sound, and it grows if a qubit was asked for. -/
theorem Call.build_sound {c d : Circuit} {call : Call} (hc : c.Sound)
    (hroom : c.size.toNat + [call].count .addQubit < 4294967296) (h : call.build c = .ok d) :
    d.Sound ∧ d.size.toNat = c.size.toNat + [call].count .addQubit := by
  have happend : ∀ i : Instruction, c.append i = .ok d → d.Sound ∧ d.size.toNat = c.size.toNat := by
    intro i hi
    refine ⟨hc.append hi, ?_⟩
    obtain ⟨_, rfl⟩ := Circuit.append_eq_ok_iff.mp hi
    rfl
  cases call with
  | addQubit =>
      cases h
      exact ⟨hc.addQubit hroom, Circuit.toNat_size_addQubit hroom⟩
  | pushMoment m =>
      refine ⟨hc.pushMoment h, ?_⟩
      obtain ⟨_, rfl⟩ := Circuit.pushMoment_eq_ok_iff.mp h
      rfl
  | _ => exact happend _ h

theorem after_sound {c : Circuit} {call : Call} (hc : c.Sound)
    (hroom : c.size.toNat + [call].count .addQubit < 4294967296) :
    (after c call).Sound ∧ (after c call).size.toNat ≤ c.size.toNat + [call].count .addQubit := by
  cases hbuild : call.build c with
  | error e =>
      rw [after_of_error hbuild]
      exact ⟨hc, Nat.le_add_right _ _⟩
  | ok d =>
      rw [after_of_ok hbuild]
      obtain ⟨hd, hsize⟩ := Call.build_sound hc hroom hbuild
      exact ⟨hd, Nat.le_of_eq hsize⟩

/-- The room on the line is used up by calls for a qubit and by nothing else. -/
theorem run_sound (calls : List Call) :
    ∀ c : Circuit, c.Sound → c.size.toNat + calls.count .addQubit < 4294967296 →
      (run c calls).Sound := by
  induction calls with
  | nil =>
      intro c hc _
      exact hc
  | cons call rest ih =>
      intro c hc hroom
      have hcount : (call :: rest).count .addQubit =
          [call].count .addQubit + rest.count .addQubit := by
        rw [← List.singleton_append, List.count_append]
      have hfirst : c.size.toNat + [call].count .addQubit < 4294967296 := by omega
      obtain ⟨hsound, hsize⟩ := after_sound hc hfirst
      exact ih (after c call) hsound (by omega)

/-- What can be relied on while a circuit is being built: it is sound, a slot is the
index of a moment or the next free one, so that no call asks for a moment that is not
there, a call that fails has changed nothing, and a call ends as the function of its
name says. -/
structure Dependable (c : Circuit) : Prop where
  verified : c.verify = .ok ()
  slot : ∀ qubits : List Qubit, Circuit.slot qubits c.moments ≤ c.moments.length
  inRange : ∀ (call : Call) (index : Nat) (d : Circuit),
    call.perform.run c ≠ .error (.outOfRange index) d
  unchanged : ∀ (call : Call) (failure : Failure) (d : Circuit),
    call.perform.run c = .error failure d → d = c
  agrees : ∀ call : Call, call.perform.run c = settle c (call.answer c) (call.build c)

/-- Whatever calls are made on a new circuit, whatever they are given and whether
they fail or not, the circuit can be relied on at every point; only the line must
not be asked to grow beyond the qubits that have a position. -/
theorem run_dependable (name : String) (size : UInt32) (calls : List Call)
    (hroom : size.toNat + calls.count .addQubit < 4294967296) :
    Dependable (run (.empty name size) calls) where
  verified := by
    rw [Circuit.verify_eq_ok_iff]
    exact run_sound calls _ (Circuit.Sound.empty name size) hroom
  slot := fun qubits => Circuit.slot_le_length qubits _
  inRange := by
    intro call index d
    rw [Call.run_perform]
    exact settle_ne_outOfRange
  unchanged := by
    intro call failure d h
    rw [Call.run_perform] at h
    exact eq_of_settle_eq_error h
  agrees := fun call => call.run_perform _

/-- A run in which the line grows between calls and some of the calls fail. -/
def mixedRun : List Call :=
  [.cx ⟨0⟩ ⟨1⟩, .addQubit, .addQubit, .h ⟨0⟩, .cx ⟨0⟩ ⟨2⟩, .addQubit, .cx ⟨0⟩ ⟨2⟩,
    .pushMoment ⟨[.barrier [], .barrier [⟨1⟩]]⟩, .x ⟨1⟩]

/-- After that run a moment that uses a qubit twice is refused, and nothing has
changed. -/
theorem run_dependable_mixedRun :
    (0 : UInt32).toNat + mixedRun.count .addQubit < 4294967296 ∧
      Dependable (run (.empty "line" 0) mixedRun) ∧
      (Call.pushMoment ⟨[.ofGate .hadamard [⟨1⟩], .measure [⟨0⟩, ⟨1⟩] "m"]⟩).perform.run
          (run (.empty "line" 0) mixedRun) =
        .error (.refused (.overlappingMoment 4 ⟨1⟩)) (run (.empty "line" 0) mixedRun) := by
  have hroom : (0 : UInt32).toNat + mixedRun.count .addQubit < 4294967296 := by decide
  exact ⟨hroom, run_dependable "line" 0 mixedRun hroom, rfl⟩

/-! ## Runs in which no call fails -/

/-- The circuit after calls that all succeed. -/
def buildAll (c : Circuit) : List Call → Except CircuitError Circuit
  | [] => .ok c
  | call :: rest => do
      let d ← call.build c
      buildAll d rest

theorem Call.operations_build {c d : Circuit} {call : Call} (h : call.build c = .ok d) :
    Instruction.Rearranged d.operations (c.operations ++ call.supplied) := by
  cases call with
  | addQubit =>
      cases h
      rw [Call.supplied, List.append_nil]
      exact .refl _
  | pushMoment m =>
      rw [Circuit.operations_pushMoment h]
      exact .refl _
  | _ => exact Circuit.operations_append h

theorem operations_buildAll (calls : List Call) :
    ∀ {c d : Circuit}, buildAll c calls = .ok d →
      Instruction.Rearranged d.operations (c.operations ++ calls.flatMap Call.supplied) := by
  induction calls with
  | nil =>
      intro c d h
      cases h
      rw [List.flatMap_nil, List.append_nil]
      exact .refl _
  | cons call rest ih =>
      intro c d h
      rw [buildAll] at h
      cases hbuild : call.build c with
      | error e =>
          rw [hbuild] at h
          cases h
      | ok next =>
          -- What the rest adds comes after what the first call has rearranged.
          rw [hbuild] at h
          rw [List.flatMap_cons, ← List.append_assoc]
          exact (ih h).trans ((Call.operations_build hbuild).append_right _)

/-- A circuit that was built without a failure holds exactly the instructions that
were supplied, and on every qubit in the order in which they were supplied. -/
theorem buildAll_operations {name : String} {size : UInt32} {calls : List Call} {c : Circuit}
    (h : buildAll (.empty name size) calls = .ok c) :
    c.operations.Perm (calls.flatMap Call.supplied) ∧
      ∀ q : Qubit, c.operations.filter (·.actsOn q) =
        (calls.flatMap Call.supplied).filter (·.actsOn q) := by
  have hall := operations_buildAll calls h
  exact ⟨hall.perm, hall.perQubit⟩

/-- Calls of which the last supplies an instruction that overtakes two others, with
which it shares no qubit. -/
def overtakingRun : List Call :=
  [.append (.ofGate .cnot [⟨0⟩, ⟨1⟩]), .pushMoment ⟨[.measure [⟨1⟩] "m", .barrier []]⟩,
    .append (.ofGate .pauliX [⟨1⟩]), .append (.ofGate .hadamard [⟨2⟩])]

theorem buildAll_operations_overtakingRun :
    ∃ c : Circuit, buildAll (.empty "line" 3) overtakingRun = .ok c ∧
      c.operations = [.ofGate .cnot [⟨0⟩, ⟨1⟩], .ofGate .hadamard [⟨2⟩], .measure [⟨1⟩] "m",
        .barrier [], .ofGate .pauliX [⟨1⟩]] ∧
      c.operations.Perm (overtakingRun.flatMap Call.supplied) ∧
      ∀ q : Qubit, c.operations.filter (·.actsOn q) =
        (overtakingRun.flatMap Call.supplied).filter (·.actsOn q) := by
  obtain ⟨c, hc⟩ : ∃ c, buildAll (.empty "line" 3) overtakingRun = .ok c := ⟨_, rfl⟩
  refine ⟨c, hc, ?_, buildAll_operations hc⟩
  cases hc
  rfl

end Building

end DualRail
