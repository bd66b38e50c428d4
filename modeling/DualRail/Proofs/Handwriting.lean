/-
  Circuits written by hand.

  Whoever writes a circuit as JSON need not do it as the writer does.  The members of an
  object may come in any order, with others of any name between them, strings may be
  spelled with escapes, blanks may stand anywhere, and the moments may be left out where
  there are none.  `Circuit.Form` says which values are forms of a circuit in this sense.
  Every text that spells a form of a circuit is read as this circuit.

  `Circuit.Flawed` says of a value that one of its objects, at whatever depth, gives a field
  twice or lacks one.  No text that spells such a value is read, whatever else is in it.
-/
import DualRail.Json.Circuit
import DualRail.Proofs.Records

set_option autoImplicit false

namespace DualRail

/-! ## Forms of simple values -/

namespace Json

/-- The forms of a text: its characters, each spelled out or as an escape. -/
inductive TextForm (s : String) : Value → Prop
  | string {units : List StringUnit} (h : textOf? units = some s) : TextForm s (.string units)

/-- The forms of a list: an array of forms of its items. -/
inductive ListForm {α : Type} (form : α → Value → Prop) (as : List α) : Value → Prop
  | array {items : List Value} (h : List.Forall₂ form as items) :
      ListForm form as (.array items true)

/-- Among the members one of the names occurs more than once, or one of the required names
not at all. -/
def RecordFlawed (names required : List String) (members : Members) : Prop :=
  (∃ name ∈ names, 1 < (valuesOf name members).length) ∨
    ∃ name ∈ required, valuesOf name members = []

theorem not_recordFlawed {names required : List String} {members : Members}
    (hnames : ∀ name ∈ names, (valuesOf name members).length ≤ 1)
    (hrequired : ∀ name ∈ required, valuesOf name members ≠ []) :
    ¬ RecordFlawed names required members := by
  rintro (⟨name, hname, htwice⟩ | ⟨name, hname, hmissing⟩)
  · exact absurd htwice (Nat.not_lt.mpr (hnames name hname))
  · exact hrequired name hname hmissing

/-- A record with one field is not read from a flawed object. -/
theorem RecordFlawed.decodeOnly_ne_ok {α : Type} {title field : String} {decode : Decoder α}
    {members : Members} (h : RecordFlawed [field] [field] members) (closed : Bool) (a : α) :
    decodeOnly title field decode (.object members closed) ≠ .ok a := by
  intro hdecode
  obtain ⟨v, hv, _⟩ := decodeOnly_object_eq_ok hdecode
  refine not_recordFlawed ?_ ?_ h
  · simp [hv]
  · simp [hv]

theorem TextForm.decodeString {s : String} {v : Value} (h : TextForm s v) :
    decodeString v = .ok s := by
  obtain ⟨hs⟩ := h
  exact unitsText_eq_ok_iff.mpr hs

section Lists

variable {α : Type} {decode : Decoder α}

/-- A list is read from its forms, if its items are. -/
theorem ListForm.decodeList {form : α → Value → Prop}
    (hform : ∀ (a : α) (v : Value), form a v → v.isWhole = true → decode v = .ok a) {as : List α}
    {v : Value} (h : ListForm form as v) (hv : v.isWhole = true) :
    decodeList decode v = .ok as := by
  obtain ⟨hitems⟩ := h
  rename_i items
  obtain ⟨hwhole, _⟩ := isWhole_array_iff.mp hv
  have hdecode : decodeItems decode items = .ok as := by
    rw [decodeItems_eq_ok_iff]
    clear hv
    induction hitems with
    | nil => exact .nil
    | cons ha _ ih =>
        obtain ⟨hfirst, hrest⟩ := List.forall_mem_cons.mp hwhole
        exact .cons (hform _ _ ha hfirst) (ih hrest)
  rw [Json.decodeList, hdecode]
  rfl

/-- All items of a list that was read were read. -/
theorem exists_of_decodeList {items : List Value} {closed : Bool} {as : List α}
    (h : decodeList decode (.array items closed) = .ok as) {v : Value} (hv : v ∈ items) :
    ∃ a : α, decode v = .ok a := by
  obtain ⟨as', hitems, -⟩ := bind_eq_ok_iff.mp h
  rw [decodeItems_eq_ok_iff] at hitems
  clear h
  induction hitems with
  | nil => cases hv
  | cons ha _ ih =>
      rcases List.mem_cons.mp hv with rfl | hv
      · exact ⟨_, ha⟩
      · exact ih hv

end Lists

end Json

open Json (Value Members Readable valuesOf textOf? TextForm ListForm RecordFlawed)

/-! ## Actions -/

namespace Gate

/-- The forms of a gate: its symbol. -/
def Form (g : Gate) (v : Value) : Prop := TextForm g.symbol v

theorem Form.decode {g : Gate} {v : Value} (h : g.Form v) : Gate.decode v = .ok g := by
  have hpick : (ofSymbol? g.symbol).map Json.bareVariant = some (Json.bareVariant g) := by
    rw [ofSymbol?_symbol]
    rfl
  obtain ⟨hname⟩ := h
  exact Json.decodeVariant_bare hpick hname rfl

end Gate

namespace Qubit

/-- The form of a qubit: its position. -/
def Form (q : Qubit) (v : Value) : Prop := v = q.toJson

theorem Form.decode {q : Qubit} {v : Value} (h : q.Form v) : Qubit.decode v = .ok q := by
  rw [h, Qubit.decode, toJson, index, Json.decodeUInt32_ofNat]
  rfl

end Qubit

namespace Action

/-- The forms of an action.  The content of a measurement is an object in which other members
than the key may stand. -/
inductive Form : Action → Value → Prop
  | gate {g : Gate} {units : List Json.StringUnit} {v : Value} (name : textOf? units = some "Gate")
      (content : g.Form v) : Form (.gate g) (.object [(units, v)] true)
  | measure {key : String} {units : List Json.StringUnit} {members : Members} {v : Value}
      (name : textOf? units = some "Measure") (readable : Readable members)
      (keys : valuesOf "key" members = [v]) (content : TextForm key v) :
      Form (.measure key) (.object [(units, .object members true)] true)
  | barrier {v : Value} (name : TextForm "Barrier" v) : Form .barrier v

/-- A measurement whose content repeats the key or lacks it. -/
inductive Flawed : Value → Prop
  | measure {units : List Json.StringUnit} {members : Members}
      (name : textOf? units = some "Measure") (flaw : RecordFlawed ["key"] ["key"] members) :
      Flawed (.object [(units, .object members true)] true)

theorem Form.decode {a : Action} {v : Value} (h : a.Form v) (hv : v.isWhole = true) :
    Action.decode v = .ok a := by
  cases h with
  | gate name content =>
      refine (Json.decodeVariant_content rfl name _).trans ?_
      rw [Json.contentVariant, content.decode]
      rfl
  | measure name readable keys content =>
      obtain ⟨hcontent, _⟩ := Json.isWhole_object_iff.mp hv
      obtain ⟨hwhole, _⟩ := Json.isWhole_object_iff.mp (hcontent _ List.mem_cons_self)
      refine (Json.decodeVariant_content rfl name _).trans ?_
      rw [Json.contentVariant, decodeMeasure,
        Json.decodeOnly_object readable hwhole keys content.decodeString]
      rfl
  | barrier name =>
      obtain ⟨hname⟩ := name
      exact Json.decodeVariant_bare rfl hname rfl

theorem Flawed.decode_ne_ok {v : Value} (h : Flawed v) (a : Action) : Action.decode v ≠ .ok a := by
  obtain ⟨name, flaw⟩ := h
  intro hdecode
  rw [Action.decode, Json.decodeVariant_content rfl name, Json.contentVariant,
    decodeMeasure] at hdecode
  obtain ⟨key, hkey, _⟩ := map_eq_ok_iff.mp hdecode
  exact flaw.decodeOnly_ne_ok true key hkey

end Action

/-! ## Instructions -/

namespace Instruction

/-- The forms of an instruction. -/
inductive Form (i : Instruction) : Value → Prop
  | object {members : Members} {kind qubits : Value} (readable : Readable members)
      (kinds : valuesOf "kind" members = [kind]) (action : i.action.Form kind)
      (lists : valuesOf "qubits" members = [qubits])
      (operands : ListForm Qubit.Form i.qubits qubits) : Form i (.object members true)

/-- An instruction with a flaw in its own fields, or in its action. -/
inductive Flawed : Value → Prop
  | fields {members : Members} (flaw : RecordFlawed ["kind", "qubits"] ["kind", "qubits"] members) :
      Flawed (.object members true)
  | action {members : Members} {kind : Value} (kinds : kind ∈ valuesOf "kind" members)
      (flaw : Action.Flawed kind) : Flawed (.object members true)

theorem takeField_eq_ok {name : String} {d d' : Draft} {v : Value}
    (h : takeField name d v = some (.ok d')) :
    (name = "kind" ∧ ∃ a : Action, d' = { d with action := some a }) ∨
      (name = "qubits" ∧ ∃ qs : List Qubit, d' = { d with qubits := some qs }) := by
  unfold takeField at h
  split at h
  · rename_i hname
    obtain ⟨_, a, _, rfl⟩ := Json.takeField_map_eq_ok (Option.some.inj h)
    exact .inl ⟨hname, a, rfl⟩
  · split at h
    · rename_i hname
      obtain ⟨_, qs, _, rfl⟩ := Json.takeField_map_eq_ok (Option.some.inj h)
      exact .inr ⟨hname, qs, rfl⟩
    · cases h

/-- The place of the action. -/
def actionSlot : Json.Slot takeField where
  Content := Action
  name := "kind"
  decode := Action.decode
  get := Draft.action
  set := fun d a => { d with action := some a }
  take_name := fun _ _ => rfl
  get_set := fun _ _ => rfl
  get_of_ne := by
    intro other d d' v hne htake
    rcases takeField_eq_ok htake with ⟨hname, _⟩ | ⟨_, qs, rfl⟩
    · exact absurd hname hne
    · rfl

/-- The place of the operands. -/
def qubitsSlot : Json.Slot takeField where
  Content := List Qubit
  name := "qubits"
  decode := Json.decodeList Qubit.decode
  get := Draft.qubits
  set := fun d qs => { d with qubits := some qs }
  take_name := fun _ _ => rfl
  get_set := fun _ _ => rfl
  get_of_ne := by
    intro other d d' v hne htake
    rcases takeField_eq_ok htake with ⟨_, a, rfl⟩ | ⟨hname, _⟩
    · rfl
    · exact absurd hname hne

theorem takeField_other (name : String) (d : Draft) (v : Value)
    (h : ∀ f ∈ [actionSlot, qubitsSlot], f.name ≠ name) : takeField name d v = none := by
  have hkind : name ≠ "kind" := (h actionSlot (by simp)).symm
  have hqubits : name ≠ "qubits" := (h qubitsSlot (by simp)).symm
  rw [takeField, if_neg hkind, if_neg hqubits]

/-- Each field of an instruction that was read had one value. -/
theorem decode_object_eq_ok {members : Members} {closed : Bool} {i : Instruction}
    (h : decode (.object members closed) = .ok i) :
    (∃ v : Value, valuesOf "kind" members = [v] ∧ Action.decode v = .ok i.action) ∧
      ∃ v : Value, valuesOf "qubits" members = [v] ∧
        Json.decodeList Qubit.decode v = .ok i.qubits := by
  obtain ⟨⟨action, qubits⟩, hd, hrest⟩ := bind_eq_ok_iff.mp h
  have haction := actionSlot.gathers hd
  have hqubits := qubitsSlot.gathers hd
  cases action with
  | none => cases hrest
  | some a =>
      cases qubits with
      | none => cases hrest
      | some qs =>
          cases hrest
          exact ⟨Json.gathers_some_iff.mp haction, Json.gathers_some_iff.mp hqubits⟩

theorem Form.decode {i : Instruction} {v : Value} (h : i.Form v) (hv : v.isWhole = true) :
    Instruction.decode v = .ok i := by
  obtain ⟨readable, kinds, action, lists, operands⟩ := h
  rename_i members kind qubits
  obtain ⟨hwhole, _⟩ := Json.isWhole_object_iff.mp hv
  have hvalue : ∀ {name : String} {w : Value}, valuesOf name members = [w] → w.isWhole = true := by
    intro name w hw
    exact Json.isWhole_of_mem_valuesOf hwhole (hw ▸ List.mem_cons_self)
  have haction : Action.decode kind = .ok i.action := action.decode (hvalue kinds)
  have hqubits : Json.decodeList Qubit.decode qubits = .ok i.qubits := by
    refine operands.decodeList ?_ (hvalue lists)
    intro q w hq _
    exact hq.decode
  have hgathersAction := Json.gathers_some_iff.mpr ⟨kind, kinds, haction⟩
  have hgathersQubits := Json.gathers_some_iff.mpr ⟨qubits, lists, hqubits⟩
  have hslots : ∀ f ∈ [actionSlot, qubitsSlot], ∃ after : Option f.Content,
      Json.Gathers f.decode (f.get ⟨none, none⟩) (valuesOf f.name members) after := by
    intro f hf
    simp only [List.mem_cons, List.not_mem_nil, or_false] at hf
    rcases hf with rfl | rfl
    · exact ⟨_, hgathersAction⟩
    · exact ⟨_, hgathersQubits⟩
  obtain ⟨d, hd⟩ := Json.exists_decodeMembers takeField_other readable hwhole hslots
  have hdAction : d.action = some i.action := (actionSlot.gathers hd).unique hgathersAction
  have hdQubits : d.qubits = some i.qubits := (qubitsSlot.gathers hd).unique hgathersQubits
  rw [Instruction.decode, hd]
  dsimp only [bind, Except.bind]
  rw [hdAction, hdQubits]
  rfl

theorem Flawed.decode_ne_ok {v : Value} (h : Flawed v) (i : Instruction) :
    Instruction.decode v ≠ .ok i := by
  intro hdecode
  cases h with
  | fields flaw =>
      obtain ⟨⟨kind, hkind, _⟩, qubits, hqubits, _⟩ := decode_object_eq_ok hdecode
      refine Json.not_recordFlawed ?_ ?_ flaw
      · simp [hkind, hqubits]
      · simp [hkind, hqubits]
  | action kinds flaw =>
      obtain ⟨⟨kind, hkind, haction⟩, _⟩ := decode_object_eq_ok hdecode
      rw [hkind, List.mem_singleton] at kinds
      rw [kinds] at flaw
      exact flaw.decode_ne_ok _ haction

end Instruction

/-! ## Moments -/

namespace Moment

/-- The forms of a moment. -/
inductive Form (m : Moment) : Value → Prop
  | object {members : Members} {operations : Value} (readable : Readable members)
      (lists : valuesOf "operations" members = [operations])
      (content : ListForm Instruction.Form m.operations operations) : Form m (.object members true)

/-- A moment with a flaw in its own field, or in one of its operations. -/
inductive Flawed : Value → Prop
  | fields {members : Members} (flaw : RecordFlawed ["operations"] ["operations"] members) :
      Flawed (.object members true)
  | operation {members : Members} {items : List Value} {v : Value}
      (lists : .array items true ∈ valuesOf "operations" members) (item : v ∈ items)
      (flaw : Instruction.Flawed v) : Flawed (.object members true)

theorem Form.decode {m : Moment} {v : Value} (h : m.Form v) (hv : v.isWhole = true) :
    Moment.decode v = .ok m := by
  obtain ⟨readable, lists, content⟩ := h
  obtain ⟨hwhole, _⟩ := Json.isWhole_object_iff.mp hv
  have hlist := Json.isWhole_of_mem_valuesOf hwhole (lists ▸ List.mem_cons_self)
  have hoperations := content.decodeList (fun _ _ h hv => Instruction.Form.decode h hv) hlist
  rw [Moment.decode, Json.decodeOnly_object readable hwhole lists hoperations]
  rfl

theorem Flawed.decode_ne_ok {v : Value} (h : Flawed v) (m : Moment) : Moment.decode v ≠ .ok m := by
  intro hdecode
  obtain ⟨operations, hoperations, _⟩ := map_eq_ok_iff.mp hdecode
  cases h with
  | fields flaw => exact flaw.decodeOnly_ne_ok true _ hoperations
  | operation lists item flaw =>
      obtain ⟨list, hlist, hitems⟩ := Json.decodeOnly_object_eq_ok hoperations
      rw [hlist, List.mem_singleton] at lists
      rw [← lists] at hitems
      obtain ⟨i, hi⟩ := Json.exists_of_decodeList hitems item
      exact flaw.decode_ne_ok i hi

end Moment

/-! ## Circuits -/

namespace Circuit

/-- The forms of a circuit.  The moments may be left out if there are none. -/
inductive Form (c : Circuit) : Value → Prop
  | object {members : Members} {name size : Value} (readable : Readable members)
      (names : valuesOf "name" members = [name]) (title : TextForm c.name name)
      (sizes : valuesOf "num_qubits" members = [size]) (count : size = .ofNat c.size.toNat)
      (moments : (valuesOf "moments" members = [] ∧ c.moments = []) ∨
        ∃ list : Value, valuesOf "moments" members = [list] ∧
          ListForm Moment.Form c.moments list) : Form c (.object members true)

/-- A circuit with a flaw in its own fields, or in one of its moments.  A circuit without
moments has no flaw for that. -/
inductive Flawed : Value → Prop
  | fields {members : Members}
      (flaw : RecordFlawed ["name", "num_qubits", "moments"] ["name", "num_qubits"] members) :
      Flawed (.object members true)
  | moment {members : Members} {items : List Value} {v : Value}
      (lists : .array items true ∈ valuesOf "moments" members) (item : v ∈ items)
      (flaw : Moment.Flawed v) : Flawed (.object members true)

theorem takeField_eq_ok {name : String} {d d' : Draft} {v : Value}
    (h : takeField name d v = some (.ok d')) :
    (name = "name" ∧ ∃ s : String, d' = { d with name := some s }) ∨
      (name = "num_qubits" ∧ ∃ n : UInt32, d' = { d with size := some n }) ∨
      (name = "moments" ∧ ∃ ms : List Moment, d' = { d with moments := some ms }) := by
  unfold takeField at h
  split at h
  · rename_i hname
    obtain ⟨_, s, _, rfl⟩ := Json.takeField_map_eq_ok (Option.some.inj h)
    exact .inl ⟨hname, s, rfl⟩
  · split at h
    · rename_i hname
      obtain ⟨_, n, _, rfl⟩ := Json.takeField_map_eq_ok (Option.some.inj h)
      exact .inr (.inl ⟨hname, n, rfl⟩)
    · split at h
      · rename_i hname
        obtain ⟨_, ms, _, rfl⟩ := Json.takeField_map_eq_ok (Option.some.inj h)
        exact .inr (.inr ⟨hname, ms, rfl⟩)
      · cases h

/-- The place of the name. -/
def nameSlot : Json.Slot takeField where
  Content := String
  name := "name"
  decode := Json.decodeString
  get := Draft.name
  set := fun d s => { d with name := some s }
  take_name := fun _ _ => rfl
  get_set := fun _ _ => rfl
  get_of_ne := by
    intro other d d' v hne htake
    rcases takeField_eq_ok htake with ⟨hname, _⟩ | ⟨_, n, rfl⟩ | ⟨_, ms, rfl⟩
    · exact absurd hname hne
    · rfl
    · rfl

/-- The place of the number of qubits. -/
def sizeSlot : Json.Slot takeField where
  Content := UInt32
  name := "num_qubits"
  decode := Json.decodeUInt32
  get := Draft.size
  set := fun d n => { d with size := some n }
  take_name := fun _ _ => rfl
  get_set := fun _ _ => rfl
  get_of_ne := by
    intro other d d' v hne htake
    rcases takeField_eq_ok htake with ⟨_, s, rfl⟩ | ⟨hname, _⟩ | ⟨_, ms, rfl⟩
    · rfl
    · exact absurd hname hne
    · rfl

/-- The place of the moments. -/
def momentsSlot : Json.Slot takeField where
  Content := List Moment
  name := "moments"
  decode := Json.decodeList Moment.decode
  get := Draft.moments
  set := fun d ms => { d with moments := some ms }
  take_name := fun _ _ => rfl
  get_set := fun _ _ => rfl
  get_of_ne := by
    intro other d d' v hne htake
    rcases takeField_eq_ok htake with ⟨_, s, rfl⟩ | ⟨_, n, rfl⟩ | ⟨hname, _⟩
    · rfl
    · rfl
    · exact absurd hname hne

theorem takeField_other (name : String) (d : Draft) (v : Value)
    (h : ∀ f ∈ [nameSlot, sizeSlot, momentsSlot], f.name ≠ name) : takeField name d v = none := by
  have hname : name ≠ "name" := (h nameSlot (by simp)).symm
  have hsize : name ≠ "num_qubits" := (h sizeSlot (by simp)).symm
  have hmoments : name ≠ "moments" := (h momentsSlot (by simp)).symm
  rw [takeField, if_neg hname, if_neg hsize, if_neg hmoments]

/-- Each field of a circuit that was read had one value, or none for the moments. -/
theorem decode_object_eq_ok {members : Members} {closed : Bool} {c : Circuit}
    (h : decode (.object members closed) = .ok c) :
    (∃ v : Value, valuesOf "name" members = [v] ∧ Json.decodeString v = .ok c.name) ∧
      (∃ v : Value, valuesOf "num_qubits" members = [v] ∧ Json.decodeUInt32 v = .ok c.size) ∧
      (valuesOf "moments" members = [] ∨
        ∃ v : Value, valuesOf "moments" members = [v] ∧
          Json.decodeList Moment.decode v = .ok c.moments) := by
  obtain ⟨⟨name, size, moments⟩, hd, hrest⟩ := bind_eq_ok_iff.mp h
  have hname := nameSlot.gathers hd
  have hsize := sizeSlot.gathers hd
  have hmoments := momentsSlot.gathers hd
  cases name with
  | none => cases hrest
  | some s =>
      cases size with
      | none => cases hrest
      | some n =>
          cases hrest
          refine ⟨Json.gathers_some_iff.mp hname, Json.gathers_some_iff.mp hsize, ?_⟩
          cases moments with
          | none => exact .inl (Json.gathers_none_iff.mp hmoments)
          | some ms => exact .inr (Json.gathers_some_iff.mp hmoments)

theorem Form.decode {c : Circuit} {v : Value} (h : c.Form v) (hv : v.isWhole = true) :
    Circuit.decode v = .ok c := by
  obtain ⟨readable, names, title, sizes, rfl, moments⟩ := h
  rename_i members name
  obtain ⟨hwhole, _⟩ := Json.isWhole_object_iff.mp hv
  have hname : Json.decodeString name = .ok c.name := title.decodeString
  have hsize := Json.decodeUInt32_ofNat c.size
  -- What is left out counts as no moments.
  obtain ⟨after, hgathers, hafter⟩ : ∃ after : Option (List Moment),
      Json.Gathers (Json.decodeList Moment.decode) none (valuesOf "moments" members) after ∧
        after.getD [] = c.moments := by
    rcases moments with ⟨hnone, hempty⟩ | ⟨list, hlist, content⟩
    · exact ⟨none, Json.gathers_none_iff.mpr hnone, hempty.symm⟩
    · have hvalue := Json.isWhole_of_mem_valuesOf hwhole (hlist ▸ List.mem_cons_self)
      have hmoments := content.decodeList (fun _ _ h hv => Moment.Form.decode h hv) hvalue
      exact ⟨some c.moments, Json.gathers_some_iff.mpr ⟨list, hlist, hmoments⟩, rfl⟩
  have hgathersName := Json.gathers_some_iff.mpr ⟨name, names, hname⟩
  have hgathersSize := Json.gathers_some_iff.mpr ⟨_, sizes, hsize⟩
  have hslots : ∀ f ∈ [nameSlot, sizeSlot, momentsSlot], ∃ after : Option f.Content,
      Json.Gathers f.decode (f.get ⟨none, none, none⟩) (valuesOf f.name members) after := by
    intro f hf
    simp only [List.mem_cons, List.not_mem_nil, or_false] at hf
    rcases hf with rfl | rfl | rfl
    · exact ⟨_, hgathersName⟩
    · exact ⟨_, hgathersSize⟩
    · exact ⟨_, hgathers⟩
  obtain ⟨d, hd⟩ := Json.exists_decodeMembers takeField_other readable hwhole hslots
  have hdName : d.name = some c.name := (nameSlot.gathers hd).unique hgathersName
  have hdSize : d.size = some c.size := (sizeSlot.gathers hd).unique hgathersSize
  have hdMoments : d.moments = after := (momentsSlot.gathers hd).unique hgathers
  rw [Circuit.decode, hd]
  dsimp only [bind, Except.bind]
  rw [hdName, hdSize, hdMoments, hafter]
  rfl

theorem Flawed.decode_ne_ok {v : Value} (h : Flawed v) (c : Circuit) :
    Circuit.decode v ≠ .ok c := by
  intro hdecode
  cases h with
  | fields flaw =>
      rename_i members
      obtain ⟨⟨name, hname, _⟩, ⟨size, hsize, _⟩, hmoments⟩ := decode_object_eq_ok hdecode
      have hlength : (valuesOf "moments" members).length ≤ 1 := by
        rcases hmoments with hnone | ⟨list, hlist, _⟩
        · simp [hnone]
        · simp [hlist]
      refine Json.not_recordFlawed ?_ ?_ flaw
      · simp [hname, hsize, hlength]
      · simp [hname, hsize]
  | moment lists item flaw =>
      obtain ⟨_, _, hnone | ⟨list, hlist, hitems⟩⟩ := decode_object_eq_ok hdecode
      · rw [hnone] at lists
        cases lists
      · rw [hlist, List.mem_singleton] at lists
        rw [← lists] at hitems
        obtain ⟨m, hm⟩ := Json.exists_of_decodeList hitems item
        exact flaw.decode_ne_ok m hm

/-- A text that spells a form of a circuit is read as this circuit: whatever the order of
the members, whatever stands between them and however it is spelled.  A text that spells a
value with a flaw is not read. -/
theorem ofJsonText_handwritten {text : String} {v : Value} (h : Json.Spells v text.toList) :
    (∀ c : Circuit, c.Form v → ofJsonText text = .ok c) ∧
      (Flawed v → ∃ fault : Fault, ofJsonText text = .error fault) := by
  rw [ofJsonText, Json.decodeText_spelled h]
  constructor
  · intro c hc
    exact hc.decode (Json.isWhole_of_spells h)
  · intro hflawed
    cases hdecode : decode v with
    | ok c => exact absurd hdecode (hflawed.decode_ne_ok c)
    | error fault => exact ⟨fault, rfl⟩

/-- A moment with one measurement, whose content has the given members.  A note stands
before it. -/
def notedMoment (content : List (String × Value)) : Value :=
  .record [("note", .record [("a", .null), ("a", .string [.half 0xD800])]),
    ("operations", .list [.record [("qubits", .list [.ofNat 0]),
      ("kind", .record [("Measure", .record content)])]])]

/-- A circuit with this moment, its name after the rest. -/
def notedCircuit (content : List (String × Value)) : Value :=
  .record [("moments", .list [notedMoment content]), ("num_qubits", .ofNat 1),
    ("name", .ofString "c")]

/-- A text of this circuit, with blanks and with an escape in a key. -/
def notedText (content : List (String × Value)) : List Char :=
  " \x7b\"moments\":".toList ++ ((Value.list [notedMoment content]).write ++ [' '] ++
    ",\"num_qubits\":\n1,\"n\\u0061me\":\"c\"\x7d".toList)

theorem legible_notedMoment {content : List (String × Value)} (h : ∀ m ∈ content, m.2.Legible) :
    (notedMoment content).Legible := by
  have hhalf : Json.UnitSpelled (.half 0xD800) ['\\', 'u', 'd', '8', '0', '0'] :=
    Json.unitSpelled_writeCode (by decide) (.half (by decide) (by decide))
  have hstring : (Value.string [.half 0xD800]).Legible := .string (.quoted (.cons hhalf .nil))
  have hnote : (Value.record [("a", .null), ("a", .string [.half 0xD800])]).Legible :=
    Value.legible_record (by simpa using ⟨Json.Spells.null, hstring⟩)
  have hqubits : (Value.list [.ofNat 0]).Legible :=
    Value.legible_list (by simpa using Value.legible_ofNat 0)
  have hkind : (Value.record [("Measure", .record content)]).Legible :=
    Value.legible_record (by simpa using Value.legible_record h)
  have hinstruction : (Value.record [("qubits", .list [.ofNat 0]),
      ("kind", .record [("Measure", .record content)])]).Legible :=
    Value.legible_record (by simpa using ⟨hqubits, hkind⟩)
  have hoperations := Value.legible_list (List.forall_mem_singleton.mpr hinstruction)
  exact Value.legible_record (by simpa using ⟨hnote, hoperations⟩)

/-- The members of this circuit as they stand in the text. -/
def notedMembers (content : List (String × Value)) : List Json.MemberText :=
  [⟨"moments".toList.map .char, "\"moments\"".toList, .list [notedMoment content],
      (Value.list [notedMoment content]).write ++ [' ']⟩,
    ⟨"num_qubits".toList.map .char, "\"num_qubits\"".toList, .ofNat 1, ['\n', '1']⟩,
    ⟨"name".toList.map .char, "\"n\\u0061me\"".toList, .ofString "c", "\"c\"".toList⟩]

theorem spells_notedText {content : List (String × Value)} (h : ∀ m ∈ content, m.2.Legible) :
    Json.Spells (notedCircuit content) (notedText content) := by
  have hnone : Json.Blank [] := by simp [Json.Blank]
  have hblank : Json.Blank [' '] := by simp [Json.Blank]
  have hline : Json.Blank ['\n'] := by simp [Json.Blank]
  have hkey : Json.KeySpelled ("name".toList.map .char) "\"n\\u0061me\"".toList := by
    have hcode : Json.UnitSpelled (.char 'a') ['\\', 'u', '0', '0', '6', '1'] :=
      Json.unitSpelled_writeCode (by decide) (.char 'a')
    have hunits := Json.UnitsSpelled.cons (Json.unitSpelled_writeUnit 'n')
      (.cons hcode (Json.unitsSpelled_write ['m', 'e']))
    exact .padded hnone (.quoted hunits) hnone
  have hkeys : ∀ m ∈ notedMembers content, Json.KeySpelled m.key m.keyText :=
    List.forall_mem_cons.mpr ⟨Value.keySpelled_write "moments",
      List.forall_mem_cons.mpr ⟨Value.keySpelled_write "num_qubits",
        List.forall_mem_singleton.mpr hkey⟩⟩
  have hlist := Value.legible_list (List.forall_mem_singleton.mpr (legible_notedMoment h))
  have hmoments : Json.Spells (.list [notedMoment content])
      ((Value.list [notedMoment content]).write ++ [' ']) :=
    .padded hnone hlist hblank
  have hsize : Json.Spells (.ofNat 1) ['\n', '1'] :=
    .padded hline (Value.legible_ofNat 1) hnone
  have hvalues : ∀ m ∈ notedMembers content, Json.Spells m.value m.valueText :=
    List.forall_mem_cons.mpr ⟨hmoments, List.forall_mem_cons.mpr ⟨hsize,
      List.forall_mem_singleton.mpr (Value.legible_ofString "c")⟩⟩
  have hspells := Json.Spells.padded hblank (.object hkeys hvalues) hnone
  rw [List.append_nil] at hspells
  exact hspells

theorem form_notedCircuit :
    Form ⟨"c", 1, [⟨[.measure [⟨0⟩] "k"]⟩]⟩
      (notedCircuit [("", .list []), ("key", .ofString "k")]) := by
  have hkind : (Action.measure "k").Form
      (.record [("Measure", .record [("", .list []), ("key", .ofString "k")])]) :=
    .measure (Json.textOf?_chars "Measure") (Json.readable_record _) rfl
      (.string (Json.textOf?_chars "k"))
  have hinstruction : (Instruction.measure [⟨0⟩] "k").Form (.record [("qubits", .list [.ofNat 0]),
      ("kind", .record [("Measure", .record [("", .list []), ("key", .ofString "k")])])]) :=
    .object (Json.readable_record _) rfl hkind rfl (.array (.cons rfl .nil))
  have hmoment : Moment.Form ⟨[.measure [⟨0⟩] "k"]⟩
      (notedMoment [("", .list []), ("key", .ofString "k")]) :=
    .object (Json.readable_record _) rfl (.array (.cons hinstruction .nil))
  exact .object (Json.readable_record _) rfl (.string (Json.textOf?_chars "c")) rfl rfl
    (.inr ⟨_, rfl, .array (.cons hmoment .nil)⟩)

theorem flawed_notedCircuit (v w : Value) : Flawed (notedCircuit [("key", v), ("key", w)]) := by
  have htwice : RecordFlawed ["key"] ["key"]
      ([("key", v), ("key", w)].map fun m => (m.1.toList.map .char, m.2)) := by
    refine .inl ⟨"key", List.mem_cons_self, ?_⟩
    rw [Json.valuesOf_record]
    simp
  have hkind : Action.Flawed (.record [("Measure", .record [("key", v), ("key", w)])]) :=
    .measure (Json.textOf?_chars "Measure") htwice
  have hinstruction : Instruction.Flawed (.record [("qubits", .list [.ofNat 0]),
      ("kind", .record [("Measure", .record [("key", v), ("key", w)])])]) := by
    refine .action ?_ hkind
    rw [Json.valuesOf_record]
    simp
  have hmoment : Moment.Flawed (notedMoment [("key", v), ("key", w)]) := by
    refine .operation ?_ (List.mem_singleton_self _) hinstruction
    rw [Json.valuesOf_record]
    simp [Value.list]
  refine .moment ?_ (List.mem_singleton_self _) hmoment
  rw [Json.valuesOf_record]
  simp [Value.list]

theorem ofJsonText_handwritten_notedText :
    ofJsonText (.ofList (notedText [("", .list []), ("key", .ofString "k")])) =
        .ok ⟨"c", 1, [⟨[.measure [⟨0⟩] "k"]⟩]⟩ ∧
      ∃ fault : Fault,
        ofJsonText (.ofList (notedText [("key", .ofString "k"), ("key", .ofString "l")])) =
          .error fault := by
  have hspells : ∀ {content : List (String × Value)}, (∀ m ∈ content, m.2.Legible) →
      Json.Spells (notedCircuit content) (String.ofList (notedText content)).toList := by
    intro content h
    rw [String.toList_ofList]
    exact spells_notedText h
  have hannotated : ∀ m ∈ [("", Value.list []), ("key", .ofString "k")], m.2.Legible := by
    simpa using ⟨Value.legible_list (by simp), Value.legible_ofString "k"⟩
  have hrepeated : ∀ m ∈ [("key", Value.ofString "k"), ("key", .ofString "l")], m.2.Legible := by
    simpa using ⟨Value.legible_ofString "k", Value.legible_ofString "l"⟩
  exact ⟨(ofJsonText_handwritten (hspells hannotated)).1 _ form_notedCircuit,
    (ofJsonText_handwritten (hspells hrepeated)).2 (flawed_notedCircuit _ _)⟩

end Circuit

end DualRail
