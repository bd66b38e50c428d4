/-
  Records in objects.

  A record is read from an object member by member: a field is stored when its name comes
  up, refused when it comes up again, and any other member is passed over.  What comes out
  depends on one thing only, the values that each name has among the members
  (`valuesOf`), and not on where they stand.

  A `Slot` is the place where a record keeps one of its fields while it is being read.
  Whatever the other fields are, reading leaves a slot as it was if its name does not occur,
  and fills an empty one if the name occurs once (`Slot.gathers`); and where every slot
  could be served so, reading succeeds (`exists_decodeMembers`).
-/
import DualRail.Proofs.Documents
import DualRail.Proofs.Soundness

set_option autoImplicit false

namespace DualRail.Json

/-! ## Members by name -/

theorem joinUnits_chars (cs : List Char) : joinUnits (cs.map .char) = some cs := by
  induction cs with
  | nil => rfl
  | cons c cs ih =>
      rw [List.map_cons, joinUnits, ih]
      rfl

theorem unitsText_chars (s : String) : Value.unitsText (s.toList.map .char) = .ok s := by
  rw [Value.unitsText, joinUnits_chars]
  exact congrArg Except.ok String.ofList_toList

/-- The text of a string, if its halves of characters fit together. -/
def textOf? (units : List StringUnit) : Option String := (joinUnits units).map String.ofList

/-- The values of the members with a name, in their order. -/
def valuesOf (name : String) (members : Members) : List Value :=
  (members.filter fun m => textOf? m.1 = some name).map Prod.snd

theorem unitsText_eq_ok_iff {units : List StringUnit} {s : String} :
    Value.unitsText units = .ok s ↔ textOf? units = some s := by
  unfold Value.unitsText textOf?
  cases joinUnits units with
  | none => simp
  | some cs => simp

theorem textOf?_chars (s : String) : textOf? (s.toList.map .char) = some s :=
  unitsText_eq_ok_iff.mp (unitsText_chars s)

theorem valuesOf_cons_self {name : String} {units : List StringUnit}
    (h : textOf? units = some name) (v : Value) (rest : Members) :
    valuesOf name ((units, v) :: rest) = v :: valuesOf name rest := by
  simp [valuesOf, h]

theorem valuesOf_cons_of_ne {name key : String} {units : List StringUnit}
    (h : textOf? units = some key) (hne : key ≠ name) (v : Value) (rest : Members) :
    valuesOf name ((units, v) :: rest) = valuesOf name rest := by
  simp [valuesOf, h, hne]

theorem exists_member_of_mem_valuesOf {name : String} {members : Members} {v : Value}
    (h : v ∈ valuesOf name members) : ∃ m ∈ members, m.2 = v := by
  obtain ⟨m, hm, hv⟩ := List.mem_map.mp h
  exact ⟨m, List.mem_of_mem_filter hm, hv⟩

/-- Every key is a text. -/
def Readable (members : Members) : Prop := ∀ m ∈ members, ∃ key : String, textOf? m.1 = some key

/-- The keys that a record was given are the texts they are. -/
theorem readable_record (members : List (String × Value)) :
    Readable (members.map fun m => (m.1.toList.map .char, m.2)) := by
  intro m hm
  obtain ⟨n, _, rfl⟩ := List.mem_map.mp hm
  exact ⟨n.1, textOf?_chars n.1⟩

theorem valuesOf_record (name : String) (members : List (String × Value)) :
    valuesOf name (members.map fun m => (m.1.toList.map .char, m.2)) =
      (members.filter fun m => m.1 = name).map Prod.snd := by
  simp [valuesOf, List.filter_map, Function.comp_def, textOf?_chars]

/-! ## Whole values -/

theorem itemsWhole_iff {items : List Value} :
    Value.itemsWhole items = true ↔ ∀ v ∈ items, v.isWhole = true := by
  induction items with
  | nil => simp [Value.itemsWhole]
  | cons v items ih => simp [Value.itemsWhole, ih]

theorem membersWhole_iff {members : Members} :
    Value.membersWhole members = true ↔ ∀ m ∈ members, m.2.isWhole = true := by
  induction members with
  | nil => simp [Value.membersWhole]
  | cons m members ih => simp [Value.membersWhole, ih]

theorem isWhole_array_iff {items : List Value} {closed : Bool} :
    (Value.array items closed).isWhole = true ↔
      (∀ v ∈ items, v.isWhole = true) ∧ closed = true := by
  rw [Value.isWhole, Bool.and_eq_true, itemsWhole_iff]

theorem isWhole_object_iff {members : Members} {closed : Bool} :
    (Value.object members closed).isWhole = true ↔
      (∀ m ∈ members, m.2.isWhole = true) ∧ closed = true := by
  rw [Value.isWhole, Bool.and_eq_true, membersWhole_iff]

theorem isWhole_of_mem_valuesOf {name : String} {members : Members} {v : Value}
    (h : ∀ m ∈ members, m.2.isWhole = true) (hv : v ∈ valuesOf name members) :
    v.isWhole = true := by
  obtain ⟨m, hm, rfl⟩ := exists_member_of_mem_valuesOf hv
  exact h m hm

/-- A value that a text spells has no broken part. -/
theorem isWhole_of_spells {v : Value} {cs : List Char} (h : Spells v cs) : v.isWhole = true := by
  induction h with
  | padded _ _ _ ih => exact ih
  | null => rfl
  | true => rfl
  | false => rfl
  | number _ => rfl
  | string _ => rfl
  | emptyArray _ => rfl
  | emptyObject _ => rfl
  | array _ ih =>
      rw [isWhole_array_iff]
      refine ⟨?_, rfl⟩
      intro v hv
      obtain ⟨i, hi, rfl⟩ := List.mem_map.mp hv
      exact ih i hi
  | object _ _ ih =>
      rw [isWhole_object_iff]
      refine ⟨?_, rfl⟩
      intro m hm
      obtain ⟨t, ht, rfl⟩ := List.mem_map.mp hm
      exact ih t ht

/-! ## Reading one member after the other -/

section Members

variable {σ : Type} {take : String → σ → Value → Option (Except Fault σ)}

theorem decodeMembers_of_taken {key : String} {units : List StringUnit}
    (hkey : textOf? units = some key) {s : σ} {v : Value} {taken : Except Fault σ}
    (htake : take key s v = some taken) (closed : Bool) (rest : Members) :
    decodeMembers take closed ((units, v) :: rest) s =
      taken.bind (decodeMembers take closed rest) := by
  rw [decodeMembers, unitsText_eq_ok_iff.mpr hkey]
  dsimp only [bind, Except.bind]
  rw [htake]

theorem decodeMembers_of_passed {key : String} {units : List StringUnit}
    (hkey : textOf? units = some key) {s : σ} {v : Value} (htake : take key s v = none)
    (closed : Bool) (rest : Members) :
    decodeMembers take closed ((units, v) :: rest) s =
      if v.isWhole = true then decodeMembers take closed rest s else .error .malformed := by
  rw [decodeMembers, unitsText_eq_ok_iff.mpr hkey]
  dsimp only [bind, Except.bind]
  rw [htake]

/-- A member that was read has stored a field, or it was passed over. -/
theorem decodeMembers_cons_eq_ok {units : List StringUnit} {closed : Bool} {v : Value}
    {rest : Members} {s s' : σ} (h : decodeMembers take closed ((units, v) :: rest) s = .ok s') :
    ∃ key : String, textOf? units = some key ∧
      ((∃ next : σ, take key s v = some (.ok next) ∧
          decodeMembers take closed rest next = .ok s') ∨
        (take key s v = none ∧ decodeMembers take closed rest s = .ok s')) := by
  cases hkey : textOf? units with
  | none =>
      rw [decodeMembers] at h
      cases hunits : Value.unitsText units with
      | error e =>
          rw [hunits] at h
          cases h
      | ok key =>
          rw [unitsText_eq_ok_iff.mp hunits] at hkey
          cases hkey
  | some key =>
      refine ⟨key, rfl, ?_⟩
      cases htake : take key s v with
      | none =>
          rw [decodeMembers_of_passed hkey htake] at h
          split at h
          · exact .inr ⟨rfl, h⟩
          · cases h
      | some taken =>
          rw [decodeMembers_of_taken hkey htake] at h
          obtain ⟨next, rfl, hrest⟩ := bind_eq_ok_iff.mp h
          exact .inl ⟨next, rfl, hrest⟩

/-! ## Fields -/

/-- What the values of a name make of a field that was read before or not. -/
inductive Gathers {α : Type} (decode : Decoder α) : Option α → List Value → Option α → Prop
  | keep (before : Option α) : Gathers decode before [] before
  | store {v : Value} {a : α} (h : decode v = .ok a) : Gathers decode none [v] (some a)

theorem gathers_some_iff {α : Type} {decode : Decoder α} {values : List Value} {a : α} :
    Gathers decode none values (some a) ↔ ∃ v : Value, values = [v] ∧ decode v = .ok a := by
  constructor
  · rintro (_ | hv)
    exact ⟨_, rfl, hv⟩
  · rintro ⟨v, rfl, hv⟩
    exact .store hv

theorem gathers_none_iff {α : Type} {decode : Decoder α} {values : List Value} :
    Gathers decode none values none ↔ values = [] := by
  constructor
  · rintro ⟨⟩
    rfl
  · rintro rfl
    exact .keep none

theorem Gathers.unique {α : Type} {decode : Decoder α} {before after other : Option α}
    {values : List Value} (h : Gathers decode before values after)
    (h' : Gathers decode before values other) : after = other := by
  cases h with
  | keep =>
      cases h'
      rfl
  | store ha =>
      cases h' with
      | store hb =>
          rw [ha, Except.ok.injEq] at hb
          rw [hb]

theorem takeField_map_eq_ok {α β : Type} {name : String} {before : Option α} {decode : Decoder α}
    {v : Value} {f : α → β} {b : β} (h : (takeField name before decode v).map f = .ok b) :
    before = none ∧ ∃ a : α, decode v = .ok a ∧ f a = b := by
  cases before with
  | some a => cases h
  | none =>
      exact ⟨rfl, map_eq_ok_iff.mp h⟩

/-- The place of a field in what has been read of a record: how it is looked up and filled,
and that other fields do not touch it. -/
structure Slot (take : String → σ → Value → Option (Except Fault σ)) where
  Content : Type
  name : String
  decode : Decoder Content
  get : σ → Option Content
  set : σ → Content → σ
  take_name : ∀ (s : σ) (v : Value),
    take name s v = some ((takeField name (get s) decode v).map (set s))
  get_set : ∀ (s : σ) (a : Content), get (set s a) = some a
  get_of_ne : ∀ {other : String} {s s' : σ} {v : Value}, other ≠ name →
    take other s v = some (.ok s') → get s' = get s

/-- What a slot holds after the members depends on the values of its name only. -/
theorem Slot.gathers (f : Slot take) {closed : Bool} {members : Members} :
    ∀ {s s' : σ}, decodeMembers take closed members s = .ok s' →
      Gathers f.decode (f.get s) (valuesOf f.name members) (f.get s') := by
  induction members with
  | nil =>
      intro s s' h
      cases closed with
      | false => cases h
      | true =>
          cases h
          exact .keep _
  | cons m rest ih =>
      obtain ⟨units, v⟩ := m
      intro s s' h
      obtain ⟨key, hkey, hmember⟩ := decodeMembers_cons_eq_ok h
      by_cases hname : key = f.name
      · subst hname
        rw [valuesOf_cons_self hkey]
        rcases hmember with ⟨next, htake, hrest⟩ | ⟨htake, _⟩
        · rw [f.take_name, Option.some.injEq] at htake
          obtain ⟨hbefore, a, ha, rfl⟩ := takeField_map_eq_ok htake
          -- The slot is filled now, so the name does not come up again.
          have hmore := ih hrest
          rw [f.get_set] at hmore
          rw [hbefore]
          generalize valuesOf f.name rest = more, f.get s' = after at hmore ⊢
          cases hmore
          exact .store ha
        · rw [f.take_name] at htake
          cases htake
      · rw [valuesOf_cons_of_ne hkey hname]
        rcases hmember with ⟨next, htake, hrest⟩ | ⟨_, hrest⟩
        · rw [← f.get_of_ne hname htake]
          exact ih hrest
        · exact ih hrest

/-- An object is read if its keys are texts, its members are whole, and the values of each
field's name are right for it. -/
theorem exists_decodeMembers {slots : List (Slot take)}
    (hother : ∀ (name : String) (s : σ) (v : Value), (∀ f ∈ slots, f.name ≠ name) →
      take name s v = none) {members : Members} :
    ∀ {s : σ}, Readable members → (∀ m ∈ members, m.2.isWhole = true) →
      (∀ f ∈ slots, ∃ after : Option f.Content,
        Gathers f.decode (f.get s) (valuesOf f.name members) after) →
        ∃ s' : σ, decodeMembers take true members s = .ok s' := by
  induction members with
  | nil =>
      intro s _ _ _
      exact ⟨s, rfl⟩
  | cons m rest ih =>
      obtain ⟨units, v⟩ := m
      intro s hreadable hwhole hslots
      obtain ⟨⟨key, hkey⟩, hreadable⟩ := List.forall_mem_cons.mp hreadable
      obtain ⟨hv, hwhole⟩ := List.forall_mem_cons.mp hwhole
      by_cases hfield : ∀ f ∈ slots, f.name ≠ key
      · rw [decodeMembers_of_passed hkey (hother key s v hfield), if_pos hv]
        apply ih hreadable hwhole
        intro f hf
        obtain ⟨after, hafter⟩ := hslots f hf
        rw [valuesOf_cons_of_ne hkey (hfield f hf).symm] at hafter
        exact ⟨after, hafter⟩
      · push Not at hfield
        obtain ⟨f, hf, rfl⟩ := hfield
        obtain ⟨after, hafter⟩ := hslots f hf
        rw [valuesOf_cons_self hkey] at hafter
        generalize hbefore : f.get s = before, hmore : valuesOf f.name rest = more at hafter
        cases hafter with
        | store ha =>
            rename_i a
            have htake : take f.name s v = some (.ok (f.set s a)) := by
              rw [f.take_name, hbefore, takeField, ha]
              rfl
            rw [decodeMembers_of_taken hkey htake]
            apply ih hreadable hwhole
            intro g hg
            by_cases hname : f.name = g.name
            · rw [← hname, hmore]
              exact ⟨_, .keep _⟩
            · obtain ⟨after, hafter⟩ := hslots g hg
              rw [valuesOf_cons_of_ne hkey hname, ← g.get_of_ne hname htake] at hafter
              exact ⟨after, hafter⟩

end Members

/-! ## Records with one field -/

/-- The place of the only field. -/
def onlySlot {α : Type} (field : String) (decode : Decoder α) : Slot (takeOnly field decode) where
  Content := α
  name := field
  decode := decode
  get := id
  set := fun _ a => some a
  take_name := fun _ _ => if_pos rfl
  get_set := fun _ _ => rfl
  get_of_ne := by
    intro other s s' v hne htake
    rw [takeOnly, if_neg hne] at htake
    cases htake

section Only

variable {α : Type} {title field : String} {decode : Decoder α} {members : Members} {a : α}

/-- A record with one field is read from an object that has exactly one value for it. -/
theorem decodeOnly_object (hreadable : Readable members)
    (hwhole : ∀ m ∈ members, m.2.isWhole = true) {v : Value} (hv : valuesOf field members = [v])
    (ha : decode v = .ok a) : decodeOnly title field decode (.object members true) = .ok a := by
  have hother : ∀ (name : String) (s : Option α) (w : Value),
      (∀ f ∈ [onlySlot field decode], f.name ≠ name) → takeOnly field decode name s w = none := by
    intro name s w hname
    exact if_neg fun h => hname _ List.mem_cons_self h.symm
  have hgathers : Gathers decode none (valuesOf field members) (some a) :=
    gathers_some_iff.mpr ⟨v, hv, ha⟩
  have hslots : ∀ f ∈ [onlySlot field decode], ∃ after : Option f.Content,
      Gathers f.decode (f.get none) (valuesOf f.name members) after := by
    intro f hf
    rw [List.mem_singleton.mp hf]
    exact ⟨some a, hgathers⟩
  obtain ⟨stored, hstored⟩ := exists_decodeMembers hother hreadable hwhole hslots
  have hvalue : stored = some a := ((onlySlot field decode).gathers hstored).unique hgathers
  rw [decodeOnly, hstored, hvalue]
  rfl

theorem decodeOnly_object_eq_ok {closed : Bool}
    (h : decodeOnly title field decode (.object members closed) = .ok a) :
    ∃ v : Value, valuesOf field members = [v] ∧ decode v = .ok a := by
  obtain ⟨stored, hstored, hrequire⟩ := bind_eq_ok_iff.mp h
  have hgathers := (onlySlot field decode).gathers hstored
  cases stored with
  | none => cases hrequire
  | some b =>
      cases hrequire
      exact gathers_some_iff.mp hgathers

end Only

/-! ## Numbers and lists -/

theorem value?_ofNat {n : Nat} (h : n < Nat.pow 2 64) :
    (Numeral.ofNat n).value? = some (.natural n) := by
  have hdigits : Nat.ofDigitChars 10 (Numeral.ofNat n).whole 0 = n :=
    Nat.ofDigitChars_ten_toDigits
  rw [Numeral.value?, hdigits]
  exact if_pos ⟨rfl, by nofun, h⟩

theorem decodeNat_ofNat {bound n : Nat} {type : String} (hbound : n < bound)
    (hword : n < Nat.pow 2 64) : decodeNat bound type (.ofNat n) = .ok n := by
  rw [Value.ofNat, decodeNat, value?_ofNat hword]
  exact if_pos hbound

theorem decodeUInt32_ofNat (n : UInt32) : decodeUInt32 (.ofNat n.toNat) = .ok n := by
  have hbound : n.toNat < Nat.pow 2 32 := n.toNat_lt
  have hword : n.toNat < Nat.pow 2 64 := Nat.lt_trans hbound (by decide)
  rw [decodeUInt32, decodeNat_ofNat hbound hword]
  exact congrArg Except.ok UInt32.ofNat_toNat

section Lists

variable {α : Type} {decode : Decoder α}

theorem decodeItems_eq_ok_iff {items : List Value} {as : List α} :
    decodeItems decode items = .ok as ↔ List.Forall₂ (fun v a => decode v = .ok a) items as := by
  induction items generalizing as with
  | nil =>
      rw [decodeItems, List.forall₂_nil_left_iff, Except.ok.injEq]
      exact eq_comm
  | cons v items ih =>
      rw [decodeItems, List.forall₂_cons_left_iff]
      change (decode v).bind _ = _ ↔ _
      rw [bind_eq_ok_iff]
      constructor
      · rintro ⟨a, ha, hrest⟩
        obtain ⟨rest, hitems, heq⟩ := bind_eq_ok_iff.mp hrest
        cases heq
        exact ⟨a, rest, ha, ih.mp hitems, rfl⟩
      · rintro ⟨a, rest, ha, hitems, rfl⟩
        exact ⟨a, ha, bind_eq_ok_iff.mpr ⟨rest, ih.mpr hitems, rfl⟩⟩

end Lists

/-! ## Variants -/

section Variants

variable {α : Type} {names : List String} {pick : String → Option (Option Value → Except Fault α)}
  {name : String} {decode : Option Value → Except Fault α} (hpick : pick name = some decode)
  {units : List StringUnit} (hname : textOf? units = some name)

include hpick hname

theorem decodeVariant_bare {a : α} (ha : decode none = .ok a) :
    decodeVariant names pick (.string units) = .ok a := by
  rw [decodeVariant, unitsText_eq_ok_iff.mpr hname]
  dsimp only [bind, Except.bind]
  rw [hpick]
  exact ha

theorem decodeVariant_content (v : Value) :
    decodeVariant names pick (.object [(units, v)] true) = decode (some v) := by
  rw [decodeVariant, unitsText_eq_ok_iff.mpr hname]
  dsimp only [bind, Except.bind]
  rw [hpick]
  dsimp only
  cases decode (some v) with
  | error e => rfl
  | ok a => rfl

end Variants

end DualRail.Json
