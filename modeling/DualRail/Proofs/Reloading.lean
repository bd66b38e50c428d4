/-
  Programs that are read again.

  A program is written as records, lists and names, three levels of lists deep, and with
  two kinds of variants: names that stand for themselves, and names with a content.  Each
  decoder takes back what its writer has made of a value (`decode_toJson`), from the ports
  up to the program, and each of the values has a text that spells it
  (`legible_toJson`).  Numbers of rails need all of 64 bits, which is as much as a
  numeral may have before it is taken for a floating point number.

  So nothing about a program is lost in its text, whether a compiler has made it or not.
-/
import DualRail.Json.Program
import DualRail.Proofs.Records

set_option autoImplicit false

namespace DualRail

namespace Json

theorem decodeUInt64_ofNat (n : UInt64) : decodeUInt64 (.ofNat n.toNat) = .ok n := by
  have hbound : n.toNat < Nat.pow 2 64 := n.toNat_lt
  rw [decodeUInt64, decodeNat_ofNat hbound hbound]
  exact congrArg Except.ok UInt64.ofNat_toNat

/-! ## Written lists, records and variants -/

theorem decodeList_map {α : Type} {encode : α → Value} {decode : Decoder α}
    (h : ∀ a : α, decode (encode a) = .ok a) (as : List α) :
    decodeList decode (.list (as.map encode)) = .ok as := by
  have hitems : decodeItems decode (as.map encode) = .ok as := by
    rw [decodeItems_eq_ok_iff, List.forall₂_map_left_iff, List.forall₂_same]
    intro a _
    exact h a
  rw [Value.list, decodeList, hitems]
  rfl

/-- A member that stores its value. -/
theorem decodeMembers_cons {σ : Type} {take : String → σ → Value → Option (Except Fault σ)}
    {closed : Bool} {name : String} {v : Value} {s s' : σ} (h : take name s v = some (.ok s'))
    (rest : Members) :
    decodeMembers take closed ((name.toList.map .char, v) :: rest) s =
      decodeMembers take closed rest s' :=
  decodeMembers_of_taken (textOf?_chars name) h closed rest

theorem decodeOnly_record {α : Type} {title field : String} {decode : Decoder α} {v : Value} {a : α}
    (h : decode v = .ok a) : decodeOnly title field decode (.record [(field, v)]) = .ok a := by
  have htake : takeOnly field decode field none v = some (.ok (some a)) := by
    rw [takeOnly, if_pos rfl, takeField, h]
    rfl
  rw [Value.record, decodeOnly, List.map_cons, decodeMembers_cons htake]
  rfl

theorem decodeVariant_name {α : Type} {names : List String}
    {pick : String → Option (Option Value → Except Fault α)} {name : String}
    {decode : Option Value → Except Fault α} {a : α} (h : pick name = some decode)
    (hname : decode none = .ok a) : decodeVariant names pick (.ofString name) = .ok a :=
  decodeVariant_bare h (textOf?_chars name) hname

theorem decodeVariant_record {α : Type} {names : List String}
    {pick : String → Option (Option Value → Except Fault α)} {name : String}
    {decode : Option Value → Except Fault α} {v : Value} {a : α} (h : pick name = some decode)
    (hv : decode (some v) = .ok a) :
    decodeVariant names pick (.record [(name, v)]) = .ok a :=
  (decodeVariant_content h (textOf?_chars name) v).trans hv

end Json

open Json (Value)

/-! ## Parts and ports -/

namespace Part

theorem decode_toJson (p : Part) : decode p.toJson = .ok p := by
  have hpick : (ofSymbol? p.symbol).map Json.bareVariant = some (Json.bareVariant p) := by
    rw [ofSymbol?_symbol]
    rfl
  exact Json.decodeVariant_name hpick rfl

end Part

namespace Port

theorem decode_toJson (p : Port) : decode p.toJson = .ok p := by
  cases p with
  | rail index =>
      refine Json.decodeVariant_record rfl ?_
      rw [Json.contentVariant, Json.decodeUInt64_ofNat]
      rfl
  | vacuum => exact Json.decodeVariant_name rfl rfl

theorem legible_toJson (p : Port) : p.toJson.Legible := by
  cases p with
  | rail index => exact Value.legible_named (Value.legible_ofNat index.toNat)
  | vacuum => exact Value.legible_ofString "Open"

end Port

namespace PortPair

theorem decode_toJson (p : PortPair) : decode p.toJson = .ok p := by
  rw [toJson, Value.list, decode, Json.nextItem, Port.decode_toJson]
  dsimp only [bind, Except.bind, Except.map]
  rw [Json.nextItem, Port.decode_toJson]
  rfl

theorem legible_toJson (p : PortPair) : p.toJson.Legible := by
  apply Value.legible_list
  intro v hv
  simp only [List.mem_cons, List.not_mem_nil, or_false] at hv
  rcases hv with rfl | rfl
  · exact p.first.legible_toJson
  · exact p.second.legible_toJson

end PortPair

/-! ## Components and lines -/

namespace Component

theorem decode_toJson (c : Component) : decode c.toJson = .ok c := by
  have hpart : takeField "part" ⟨none, none, none⟩ c.part.toJson =
      some (.ok ⟨some c.part, none, none⟩) := by
    rw [takeField, if_pos rfl, Json.takeField, Part.decode_toJson]
    rfl
  have hinput : takeField "input" ⟨some c.part, none, none⟩ c.input.toJson =
      some (.ok ⟨some c.part, some c.input, none⟩) := by
    rw [takeField, if_neg (by decide), if_pos rfl, Json.takeField, PortPair.decode_toJson]
    rfl
  have houtput : takeField "output" ⟨some c.part, some c.input, none⟩ c.output.toJson =
      some (.ok ⟨some c.part, some c.input, some c.output⟩) := by
    rw [takeField, if_neg (by decide), if_neg (by decide), if_pos rfl, Json.takeField,
      PortPair.decode_toJson]
    rfl
  rw [toJson, Value.record, decode, List.map_cons, List.map_cons, List.map_cons,
    Json.decodeMembers_cons hpart, Json.decodeMembers_cons hinput,
    Json.decodeMembers_cons houtput]
  rfl

theorem legible_toJson (c : Component) : c.toJson.Legible := by
  apply Value.legible_record
  intro m hm
  simp only [List.mem_cons, List.not_mem_nil, or_false] at hm
  rcases hm with rfl | rfl | rfl
  · exact Value.legible_ofString c.part.symbol
  · exact c.input.legible_toJson
  · exact c.output.legible_toJson

end Component

namespace Line

theorem decode_toJson (l : Line) : decode l.toJson = .ok l := by
  cases l with
  | component c =>
      refine Json.decodeVariant_record rfl ?_
      rw [Json.contentVariant, Component.decode_toJson]
      rfl
  | blank => exact Json.decodeVariant_name rfl rfl

theorem legible_toJson (l : Line) : l.toJson.Legible := by
  cases l with
  | component c => exact Value.legible_named c.legible_toJson
  | blank => exact Value.legible_ofString "Blank"

end Line

/-! ## Blocks and programs -/

namespace Block

theorem decode_toJson (b : Block) : decode b.toJson = .ok b := by
  rw [decode, toJson, Json.decodeOnly_record (Json.decodeList_map Line.decode_toJson b.lines)]
  rfl

theorem legible_toJson (b : Block) : b.toJson.Legible :=
  Value.legible_named (Value.legible_map Line.legible_toJson b.lines)

end Block

namespace Program

theorem decode_toJson (p : Program) : decode p.toJson = .ok p := by
  rw [decode, toJson,
    Json.decodeOnly_record (Json.decodeList_map Block.decode_toJson p.operations)]
  rfl

theorem legible_toJson (p : Program) : p.toJson.Legible :=
  Value.legible_named (Value.legible_map Block.legible_toJson p.operations)

theorem spells_jsonText (p : Program) : Json.Spells p.toJson p.jsonText.toList := by
  rw [jsonText, Value.text, String.toList_ofList]
  exact p.legible_toJson

/-- However a program is spelled as JSON, it is read as this program. -/
theorem ofJsonText_spelled {p : Program} {text : String} (h : Json.Spells p.toJson text.toList) :
    ofJsonText text = .ok p := by
  rw [ofJsonText, Json.decodeText_spelled h, decode_toJson]

/-- The text of a program is a spelling of the program as JSON, and is read back as the
same program.  So the program that is read renders to the same text, and has as many
operations and components. -/
theorem jsonText_reloads (p : Program) :
    Json.Spells p.toJson p.jsonText.toList ∧
    ofJsonText p.jsonText = .ok p ∧
    ∀ q : Program, ofJsonText p.jsonText = .ok q →
      q.render = p.render ∧ q.operationCount = p.operationCount ∧
        q.componentCount = p.componentCount := by
  have hreload := ofJsonText_spelled p.spells_jsonText
  refine ⟨p.spells_jsonText, hreload, ?_⟩
  intro q hq
  rw [hreload, Except.ok.injEq] at hq
  rw [← hq]
  exact ⟨rfl, rfl, rfl⟩

/-- A program that no compiler makes: an empty block, blank lines where they like, ports
that differ between the two sides of a part, and the last rail of all. -/
def strangeProgram : Program :=
  ⟨[⟨[]⟩,
    ⟨[.blank, .component ⟨.photonDetector, ⟨.vacuum, .rail 18446744073709551615⟩,
      ⟨.rail 0, .vacuum⟩⟩, .blank, .blank]⟩]⟩

theorem jsonText_reloads_strangeProgram :
    ofJsonText strangeProgram.jsonText = .ok strangeProgram ∧
      ∃ q : Program, ofJsonText strangeProgram.jsonText = .ok q ∧
        q.render = strangeProgram.render ∧ q.operationCount = 2 ∧ q.componentCount = 1 := by
  obtain ⟨_, hreload, hsame⟩ := jsonText_reloads strangeProgram
  obtain ⟨hrender, hoperations, hcomponents⟩ := hsame strangeProgram hreload
  exact ⟨hreload, strangeProgram, hreload, hrender, hoperations, hcomponents⟩

end Program

end DualRail
