/-
  Circuits in files.

  A circuit is written as a record of its fields, and these again as records, lists,
  names and numbers.  What the writer makes of a circuit is one of its forms
  (`form_toJson`), and the text of the whole is one of its spellings, so a circuit is
  read from its text as it was written, whatever is in its names and whether or not
  it is sound.

  A file with this text is then as good a source as the circuit itself; only that a
  file is verified when it is read.
-/
import DualRail.Proofs.Conformance
import DualRail.Proofs.Handwriting

set_option autoImplicit false

namespace DualRail

/-! ## The parts of a circuit -/

namespace Json

/-- A written list is a form of the list, if its items are written in their forms. -/
theorem listForm_map {α : Type} {form : α → Value → Prop} {encode : α → Value}
    (h : ∀ a : α, form a (encode a)) (as : List α) :
    ListForm form as (.list (as.map encode)) := by
  refine .array ?_
  rw [List.forall₂_map_right_iff, List.forall₂_same]
  intro a _
  exact h a

end Json

open Json (Value)

namespace Gate

theorem form_toJson (g : Gate) : g.Form g.toJson := .string (Json.textOf?_chars g.symbol)

end Gate

namespace Qubit

theorem legible_toJson (q : Qubit) : q.toJson.Legible := Value.legible_ofNat q.index

end Qubit

namespace Action

theorem form_toJson (a : Action) : a.Form a.toJson := by
  cases a with
  | gate g => exact .gate (Json.textOf?_chars "Gate") g.form_toJson
  | measure key =>
      refine .measure (Json.textOf?_chars "Measure") (Json.readable_record _) ?_
        (.string (Json.textOf?_chars key))
      rw [Json.valuesOf_record]
      rfl
  | barrier => exact .barrier (.string (Json.textOf?_chars "Barrier"))

theorem legible_toJson (a : Action) : a.toJson.Legible := by
  cases a with
  | gate g => exact Value.legible_named (Value.legible_ofString g.symbol)
  | measure key => exact Value.legible_named (Value.legible_named (Value.legible_ofString key))
  | barrier => exact Value.legible_ofString "Barrier"

end Action

namespace Instruction

theorem form_toJson (i : Instruction) : i.Form i.toJson := by
  have hqubits := Json.listForm_map (fun q => (rfl : q.Form q.toJson)) i.qubits
  refine .object (Json.readable_record _) ?_ i.action.form_toJson ?_ hqubits
  all_goals
    rw [Json.valuesOf_record]
    rfl

theorem legible_toJson (i : Instruction) : i.toJson.Legible := by
  have hqubits := Value.legible_map Qubit.legible_toJson i.qubits
  apply Value.legible_record
  intro m hm
  simp only [List.mem_cons, List.not_mem_nil, or_false] at hm
  rcases hm with rfl | rfl
  · exact i.action.legible_toJson
  · exact hqubits

end Instruction

namespace Moment

theorem form_toJson (m : Moment) : m.Form m.toJson := by
  have hoperations := Json.listForm_map Instruction.form_toJson m.operations
  refine .object (Json.readable_record _) ?_ hoperations
  rw [Json.valuesOf_record]
  rfl

theorem legible_toJson (m : Moment) : m.toJson.Legible :=
  Value.legible_named (Value.legible_map Instruction.legible_toJson m.operations)

end Moment

/-! ## Circuits -/

namespace Circuit

theorem form_toJson (c : Circuit) : c.Form c.toJson := by
  have hmoments := Json.listForm_map Moment.form_toJson c.moments
  refine .object (Json.readable_record _) ?_ (.string (Json.textOf?_chars c.name)) ?_ rfl
    (.inr ⟨_, ?_, hmoments⟩)
  all_goals
    rw [Json.valuesOf_record]
    rfl

theorem legible_toJson (c : Circuit) : c.toJson.Legible := by
  have hmoments := Value.legible_map Moment.legible_toJson c.moments
  apply Value.legible_record
  intro member hmember
  simp only [List.mem_cons, List.not_mem_nil, or_false] at hmember
  rcases hmember with rfl | rfl | rfl
  · exact Value.legible_ofString c.name
  · exact Value.legible_ofNat c.size.toNat
  · exact hmoments

theorem spells_jsonText (c : Circuit) : Json.Spells c.toJson c.jsonText.toList := by
  rw [jsonText, Value.text, String.toList_ofList]
  exact c.legible_toJson

theorem ofJsonText_jsonText (c : Circuit) : ofJsonText c.jsonText = .ok c := by
  rw [ofJsonText, Json.decodeText_spelled c.spells_jsonText]
  exact c.form_toJson.decode (Json.isWhole_of_spells c.spells_jsonText)

end Circuit

/-! ## Files -/

open Files (FileTree)

namespace Files.FileTree

theorem readText_of_lookUp {t : FileTree} {path text : String}
    (h : t.lookUp path = .ok (.text text)) : t.readText path = .ok text := by
  rw [readText, h]
  rfl

end Files.FileTree

namespace Source

/-- The source that a path stands for in a file tree. -/
def fileIn (t : FileTree) (path : String) : Source := ((file path).runOn t).1

theorem readCircuit_outcome {path text : String} {c : Circuit}
    (h : Circuit.ofJsonText text = .ok c) :
    (readCircuit path (.ok text)).outcome = (c.verify.mapError .circuit).map fun _ => c := by
  simp only [readCircuit, Traced.outcome_bind, Traced.outcome_ofExcept, Traced.outcome_emit,
    Traced.outcome_pure]
  change (Except.mapError _ (Circuit.ofJsonText text)).bind _ = _
  rw [h]
  change (Except.mapError _ c.verify).bind _ = _
  cases c.verify with
  | error e => rfl
  | ok u => rfl

/-- A file with the text of a circuit gives the circuit, once it is verified. -/
theorem fileIn_outcome {t : FileTree} {path : String} {c : Circuit}
    (h : t.lookUp path = .ok (.text c.jsonText)) :
    (fileIn t path).circuit.outcome = (c.verify.mapError .circuit).map fun _ => c := by
  rw [fileIn, file, Files.Script.runOn_bind, Files.Script.runOn_read,
    Files.FileTree.readText_of_lookUp h]
  exact readCircuit_outcome c.ofJsonText_jsonText

end Source

namespace Compiler

/-- Of a source, only the circuit counts that it gives. -/
theorem compile_outcome_congr {δ : Type} [Hardware δ] (k : Compiler) {source other : Source}
    (h : source.circuit.outcome = other.circuit.outcome) (d : δ) :
    (k.compile source d).outcome = (k.compile other d).outcome := by
  rw [compile_outcome, compile_outcome, h]

end Compiler

namespace Circuit

/-- The text of a circuit is a spelling of the circuit as JSON, and is read back as
the same circuit, whatever is in it.  From a file with this text a verified circuit is
taken and compiled like the circuit itself; one that cannot be verified is refused
for the reason that verifying it gives. -/
theorem jsonText_restores (c : Circuit) :
    Json.Spells c.toJson c.jsonText.toList ∧
    ofJsonText c.jsonText = .ok c ∧
    ∀ (t : FileTree) (path : String), t.lookUp path = .ok (.text c.jsonText) →
      (c.verify = .ok () →
        (Source.fileIn t path).circuit.outcome = .ok c ∧
          ∀ {δ : Type} [Hardware δ] (k : Compiler) (d : δ),
            (k.compile (Source.fileIn t path) d).outcome =
              (k.compile (Source.ofCircuit c) d).outcome) ∧
      (∀ e : CircuitError, c.verify = .error e →
        (Source.fileIn t path).circuit.outcome = .error (.circuit e)) := by
  refine ⟨c.spells_jsonText, c.ofJsonText_jsonText, ?_⟩
  intro t path hpath
  have hsource := Source.fileIn_outcome hpath
  constructor
  · intro hverify
    rw [hverify] at hsource
    refine ⟨hsource, ?_⟩
    intro δ _ k d
    exact k.compile_outcome_congr hsource d
  · intro e hverify
    rw [hverify] at hsource
    exact hsource

/-- A sound circuit with quotes, a control character and characters of several widths
in its names, and an empty moment. -/
def quotedCircuit : Circuit :=
  ⟨"say \"\\\x01\"", 3, [⟨[.ofGate .cnot [⟨2⟩, ⟨0⟩], .barrier []]⟩, ⟨[]⟩,
    ⟨[.measure [⟨1⟩] "\t∅𝄞"]⟩]⟩

/-- A circuit that holds a controlled not on one qubit, which the line does not have. -/
def brokenCircuit : Circuit := ⟨"", 1, [⟨[.ofGate .cnot [⟨4294967295⟩]]⟩]⟩

/-- A working directory with a file that holds the text of a circuit. -/
def storedIn (c : Circuit) : FileTree := FileTree.initial.add "c.json" (.text c.jsonText)

theorem lookUp_storedIn (c : Circuit) :
    c.storedIn.lookUp "c.json" = .ok (.text c.jsonText) := by
  with_unfolding_all rfl

theorem jsonText_restores_quotedCircuit :
    quotedCircuit.storedIn.lookUp "c.json" = .ok (.text quotedCircuit.jsonText) ∧
      quotedCircuit.verify = .ok () ∧
      (Source.fileIn quotedCircuit.storedIn "c.json").circuit.outcome = .ok quotedCircuit ∧
      (Compiler.default.compile (Source.fileIn quotedCircuit.storedIn "c.json") ⟨3⟩).outcome =
        (Compiler.default.compile (Source.ofCircuit quotedCircuit) ⟨3⟩).outcome ∧
      brokenCircuit.storedIn.lookUp "c.json" = .ok (.text brokenCircuit.jsonText) ∧
      brokenCircuit.verify = .error (.qubitCountMismatch "cx" 2 1) ∧
      (Source.fileIn brokenCircuit.storedIn "c.json").circuit.outcome =
        .error (.circuit (.qubitCountMismatch "cx" 2 1)) := by
  have hquoted := quotedCircuit.lookUp_storedIn
  have hbroken := brokenCircuit.lookUp_storedIn
  have hsound : quotedCircuit.verify = .ok () := rfl
  have hmismatch : brokenCircuit.verify = .error (.qubitCountMismatch "cx" 2 1) := rfl
  obtain ⟨hcircuit, hcompile⟩ :=
    ((jsonText_restores quotedCircuit).2.2 _ _ hquoted).1 hsound
  have hrefused := ((jsonText_restores brokenCircuit).2.2 _ _ hbroken).2 _ hmismatch
  exact ⟨hquoted, hsound, hcircuit, hcompile _ _, hbroken, hmismatch, hrefused⟩

end Circuit

end DualRail
