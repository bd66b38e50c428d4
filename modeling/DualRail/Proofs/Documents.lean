/-
  How values may be spelled.

  `Spells` is the grammar of JSON as a relation between values and texts: blanks may
  stand around every value, key and sign, and strings and numbers have the spellings
  of `Proofs/Lexemes`.  The reader takes in every spelling of a value and nothing
  after it (`read_spelled`), so a typed value is read from any spelling of its value
  as from the value itself (`decodeText_spelled`).

  The reader is a machine with the open arrays and objects on a stack.  What carries
  the induction is that a spelling moves the machine from a place where a value has
  to follow to the place where this value has ended, whatever the stack is and
  whatever comes after (`ReadsAs`).
-/
import DualRail.Proofs.Lexemes
import DualRail.Json.Decode

set_option autoImplicit false

namespace DualRail.Json

/-! ## The grammar -/

/-- Blanks and nothing else. -/
def Blank (cs : List Char) : Prop := ∀ c ∈ cs, c ∈ [' ', '\n', '\t', '\r']

/-- The spellings of a key: a string with blanks around it. -/
inductive KeySpelled : List StringUnit → List Char → Prop
  | padded {us : List StringUnit} {before cs after : List Char} (hbefore : Blank before)
      (h : StringSpelled us cs) (hafter : Blank after) : KeySpelled us (before ++ (cs ++ after))

/-- An item of an array and a text for it. -/
structure ItemText where
  value : Value
  text : List Char

/-- A member of an object, with a text for its key and one for its value. -/
structure MemberText where
  key : List StringUnit
  keyText : List Char
  value : Value
  valueText : List Char

namespace MemberText

/-- The member itself. -/
def member (m : MemberText) : List StringUnit × Value := (m.key, m.value)

/-- The text of the member. -/
def text (m : MemberText) : List Char := m.keyText ++ ':' :: m.valueText

end MemberText

/-- Texts with a comma before each. -/
def following (texts : List (List Char)) : List Char := texts.flatMap (',' :: ·)

/-- The spellings of a value. -/
inductive Spells : Value → List Char → Prop
  | padded {v : Value} {before cs after : List Char} (hbefore : Blank before) (h : Spells v cs)
      (hafter : Blank after) : Spells v (before ++ (cs ++ after))
  | null : Spells .null ['n', 'u', 'l', 'l']
  | true : Spells (.bool true) ['t', 'r', 'u', 'e']
  | false : Spells (.bool false) ['f', 'a', 'l', 's', 'e']
  | number {n : Numeral} {cs : List Char} (h : NumeralSpelled n cs) : Spells (.number n) cs
  | string {us : List StringUnit} {cs : List Char} (h : StringSpelled us cs) :
      Spells (.string us) cs
  | emptyArray {cs : List Char} (h : Blank cs) : Spells (.array [] true) ('[' :: (cs ++ [']']))
  | array {first : ItemText} {rest : List ItemText}
      (h : ∀ i ∈ first :: rest, Spells i.value i.text) :
      Spells (.array ((first :: rest).map ItemText.value) true)
        ('[' :: (first.text ++ (following (rest.map ItemText.text) ++ [']'])))
  | emptyObject {cs : List Char} (h : Blank cs) :
      Spells (.object [] true) ('\x7b' :: (cs ++ ['\x7d']))
  | object {first : MemberText} {rest : List MemberText}
      (hkeys : ∀ m ∈ first :: rest, KeySpelled m.key m.keyText)
      (hvalues : ∀ m ∈ first :: rest, Spells m.value m.valueText) :
      Spells (.object ((first :: rest).map MemberText.member) true)
        ('\x7b' :: (first.text ++ (following (rest.map MemberText.text) ++ ['\x7d'])))

/-! ## Tokens of a text -/

theorem isBlank_iff {c : Char} : isBlank c = true ↔ c ∈ [' ', '\n', '\t', '\r'] := by
  simp [isBlank, or_assoc]

theorem readToken_blank {c : Char} (hc : isBlank c = true) (rest : List Char) :
    readToken (c :: rest) = none := by
  rw [isBlank_iff] at hc
  simp only [List.mem_cons, List.not_mem_nil, or_false] at hc
  rcases hc with rfl | rfl | rfl | rfl <;> rfl

theorem tokens_nil : tokens [] = [] := by rw [tokens]

theorem tokens_blank {blanks : List Char} (h : Blank blanks) (rest : List Char) :
    tokens (blanks ++ rest) = tokens rest := by
  induction blanks with
  | nil => rfl
  | cons c blanks ih =>
      obtain ⟨hc, hblanks⟩ := List.forall_mem_cons.mp h
      rw [List.cons_append, tokens, if_pos (isBlank_iff.mpr hc), ih hblanks]

/-- A token that can be read is the first of the tokens. -/
theorem tokens_of_readToken {cs rest : List Char} {t : Token}
    (h : readToken cs = some (t, rest)) : tokens cs = t :: tokens rest := by
  cases cs with
  | nil => cases h
  | cons c cs =>
      have hc : ¬ isBlank c = true := by
        intro hc
        rw [readToken_blank hc] at h
        cases h
      rw [tokens, if_neg hc]
      split
      · rename_i hnone
        rw [hnone] at h
        cases h
      · rename_i t' rest' hsome
        rw [hsome] at h
        cases h
        rfl

theorem endsNumber_blank {blanks rest : List Char} (hblanks : Blank blanks)
    (hrest : EndsNumber rest) : EndsNumber (blanks ++ rest) := by
  cases blanks with
  | nil => exact hrest
  | cons c blanks =>
      have hc := hblanks c List.mem_cons_self
      simp only [List.mem_cons, List.not_mem_nil, or_false] at hc
      apply endsNumber_cons
      rcases hc with rfl | rfl | rfl | rfl <;> rfl

theorem endsNumber_bracket : endsNumber ']' = true := rfl

theorem endsNumber_brace : endsNumber '\x7d' = true := rfl

/-- A comma, or whatever ends the list, comes after an item. -/
theorem endsNumber_following {c : Char} (hc : endsNumber c = true) (texts : List (List Char))
    (rest : List Char) : EndsNumber (following texts ++ c :: rest) := by
  cases texts with
  | nil => exact endsNumber_cons hc
  | cons text texts => exact endsNumber_cons rfl

/-! ## The machine on a spelling -/

/-- A value has to follow, if the array does not end. -/
def Place.Awaits : Place → Prop
  | .value => True
  | .firstItem => True
  | _ => False

theorem awaits_value : Place.value.Awaits := trivial

theorem awaits_firstItem : Place.firstItem.Awaits := trivial

/-- This text moves the machine to the end of the value, wherever it stands. -/
def ReadsAs (cs : List Char) (v : Value) : Prop :=
  ∀ {place : Place} {frames : List Frame} {rest : List Char}, place.Awaits → EndsNumber rest →
    run place frames (tokens (cs ++ rest)) = run (.ended v) frames (tokens rest)

theorem run_of_take {place place' : Place} {frames frames' : List Frame} {t : Token}
    (h : take place frames t = some (place', frames')) (ts : List Token) :
    run place frames (t :: ts) = run place' frames' ts := by
  rw [run.eq_def]
  split
  · -- A value that has ended outside everything takes no token.
    cases h
  · rename_i hnil
    cases hnil
  · rename_i hcons
    cases hcons
    rw [h]

/-- Where a value may start, a token is taken in as the start of a value, unless it
ends an array. -/
theorem run_of_takeValue {place place' : Place} {frames frames' : List Frame} {t : Token}
    (hplace : place.Awaits) (h : takeValue frames t = some (place', frames')) (ts : List Token) :
    run place frames (t :: ts) = run place' frames' ts := by
  apply run_of_take
  cases place with
  | value => exact h
  | firstItem =>
      rw [take, h]
      rintro _ _ _ rfl
      cases h
  | key done first => cases hplace
  | colon done key => cases hplace
  | ended v => cases hplace

/-- A value of one token. -/
theorem readsAs_of_token {cs : List Char} {v : Value} {t : Token}
    (htake : ∀ frames : List Frame, takeValue frames t = some (.ended v, frames))
    (hread : ∀ {rest : List Char}, EndsNumber rest → readToken (cs ++ rest) = some (t, rest)) :
    ReadsAs cs v := by
  intro place frames rest hplace hrest
  rw [tokens_of_readToken (hread hrest), run_of_takeValue hplace (htake frames)]

theorem readsAs_padded {before cs after : List Char} {v : Value} (hbefore : Blank before)
    (h : ReadsAs cs v) (hafter : Blank after) : ReadsAs (before ++ (cs ++ after)) v := by
  intro place frames rest hplace hrest
  rw [List.append_assoc, tokens_blank hbefore, List.append_assoc,
    h hplace (endsNumber_blank hafter hrest), tokens_blank hafter]

/-- The items after the first one, up to the end of the array. -/
theorem run_following_items {items : List ItemText} (h : ∀ i ∈ items, ReadsAs i.text i.value)
    (frames : List Frame) (rest : List Char) :
    ∀ (v : Value) (done : List Value),
      run (.ended v) (.items done :: frames)
          (tokens (following (items.map ItemText.text) ++ ']' :: rest)) =
        run (.ended (.array (done.reverse ++ v :: items.map ItemText.value) true)) frames
          (tokens rest) := by
  induction items with
  | nil =>
      intro v done
      have hend : readToken (']' :: rest) = some (.endArray, rest) := rfl
      have htake : take (.ended v) (.items done :: frames) .endArray =
          some (.ended (.array (v :: done).reverse true), frames) := rfl
      rw [List.map_nil, following, List.flatMap_nil, List.nil_append, tokens_of_readToken hend,
        run_of_take htake, List.reverse_cons, List.map_nil]
  | cons item items ih =>
      obtain ⟨hitem, hitems⟩ := List.forall_mem_cons.mp h
      intro v done
      have hsplit : following ((item :: items).map ItemText.text) ++ ']' :: rest =
          ',' :: (item.text ++ (following (items.map ItemText.text) ++ ']' :: rest)) := by
        simp [following]
      have hcomma : readToken (',' :: (item.text ++ (following (items.map ItemText.text) ++
          ']' :: rest))) = some (.comma, _) := rfl
      have htake : take (.ended v) (.items done :: frames) .comma =
          some (.value, .items (v :: done) :: frames) := rfl
      rw [hsplit, tokens_of_readToken hcomma, run_of_take htake,
        hitem awaits_value (endsNumber_following endsNumber_bracket _ rest), ih hitems,
        List.reverse_cons, List.append_assoc, List.map_cons]
      rfl

theorem readsAs_emptyArray {blanks : List Char} (hblanks : Blank blanks) :
    ReadsAs ('[' :: (blanks ++ [']'])) (.array [] true) := by
  intro place frames rest hplace _
  have hbegin : readToken ('[' :: (blanks ++ [']'] ++ rest)) = some (.beginArray, _) := rfl
  have hend : readToken (']' :: rest) = some (.endArray, rest) := rfl
  have htake : take .firstItem (.items [] :: frames) .endArray =
      some (.ended (.array [] true), frames) := rfl
  rw [List.cons_append, tokens_of_readToken hbegin, run_of_takeValue hplace rfl, List.append_assoc,
    tokens_blank hblanks, List.singleton_append, tokens_of_readToken hend, run_of_take htake]

theorem readsAs_array {first : ItemText} {items : List ItemText}
    (h : ∀ i ∈ first :: items, ReadsAs i.text i.value) :
    ReadsAs ('[' :: (first.text ++ (following (items.map ItemText.text) ++ [']'])))
      (.array ((first :: items).map ItemText.value) true) := by
  obtain ⟨hfirst, hitems⟩ := List.forall_mem_cons.mp h
  intro place frames rest hplace _
  have hsplit : '[' :: (first.text ++ (following (items.map ItemText.text) ++ [']'])) ++ rest =
      '[' :: (first.text ++ (following (items.map ItemText.text) ++ ']' :: rest)) := by simp
  have hbegin : readToken ('[' :: (first.text ++ (following (items.map ItemText.text) ++
      ']' :: rest))) = some (.beginArray, _) := rfl
  rw [hsplit, tokens_of_readToken hbegin, run_of_takeValue hplace rfl,
    hfirst awaits_firstItem (endsNumber_following endsNumber_bracket _ rest),
    run_following_items hitems]
  rfl

theorem run_key {us : List StringUnit} {cs : List Char} (h : KeySpelled us cs) (done : Members)
    (isFirst : Bool) (frames : List Frame) (rest : List Char) :
    run (.key done isFirst) frames (tokens (cs ++ ':' :: rest)) =
      run .value (.members done us :: frames) (tokens rest) := by
  obtain ⟨hbefore, hstring, hafter⟩ := h
  have hcolon : readToken (':' :: rest) = some (.colon, rest) := rfl
  have htakeKey : take (.key done isFirst) frames (.string us) = some (.colon done us, frames) := by
    cases isFirst <;> rfl
  have htakeColon : take (.colon done us) frames .colon =
      some (.value, .members done us :: frames) := rfl
  rw [List.append_assoc, tokens_blank hbefore, List.append_assoc,
    tokens_of_readToken (readToken_string hstring _), run_of_take htakeKey, tokens_blank hafter,
    tokens_of_readToken hcolon, run_of_take htakeColon]

/-- A member, where a key has to follow. -/
theorem run_member {m : MemberText} (hkey : KeySpelled m.key m.keyText)
    (hvalue : ReadsAs m.valueText m.value) (done : Members) (isFirst : Bool) (frames : List Frame)
    {rest : List Char} (hrest : EndsNumber rest) :
    run (.key done isFirst) frames (tokens (m.text ++ rest)) =
      run (.ended m.value) (.members done m.key :: frames) (tokens rest) := by
  rw [MemberText.text, List.append_assoc, List.cons_append, run_key hkey, hvalue awaits_value hrest]

/-- The members after one whose value has ended, up to the end of the object. -/
theorem run_following_members {members : List MemberText}
    (hkeys : ∀ m ∈ members, KeySpelled m.key m.keyText)
    (hvalues : ∀ m ∈ members, ReadsAs m.valueText m.value) (frames : List Frame)
    (rest : List Char) :
    ∀ (key : List StringUnit) (v : Value) (done : Members),
      run (.ended v) (.members done key :: frames)
          (tokens (following (members.map MemberText.text) ++ '\x7d' :: rest)) =
        run (.ended (.object (done.reverse ++ (key, v) :: members.map MemberText.member) true))
          frames (tokens rest) := by
  induction members with
  | nil =>
      intro key v done
      have hend : readToken ('\x7d' :: rest) = some (.endObject, rest) := rfl
      have htake : take (.ended v) (.members done key :: frames) .endObject =
          some (.ended (.object ((key, v) :: done).reverse true), frames) := rfl
      rw [List.map_nil, following, List.flatMap_nil, List.nil_append, tokens_of_readToken hend,
        run_of_take htake, List.reverse_cons, List.map_nil]
  | cons m members ih =>
      obtain ⟨hkey, hkeys⟩ := List.forall_mem_cons.mp hkeys
      obtain ⟨hvalue, hvalues⟩ := List.forall_mem_cons.mp hvalues
      intro key v done
      have hsplit : following ((m :: members).map MemberText.text) ++ '\x7d' :: rest =
          ',' :: (m.text ++ (following (members.map MemberText.text) ++ '\x7d' :: rest)) := by
        simp [following]
      have hcomma : readToken (',' :: (m.text ++ (following (members.map MemberText.text) ++
          '\x7d' :: rest))) = some (.comma, _) := rfl
      have htake : take (.ended v) (.members done key :: frames) .comma =
          some (.key ((key, v) :: done) false, frames) := rfl
      rw [hsplit, tokens_of_readToken hcomma, run_of_take htake,
        run_member hkey hvalue _ _ _ (endsNumber_following endsNumber_brace _ rest),
        ih hkeys hvalues, List.reverse_cons, List.append_assoc, List.map_cons]
      rfl

theorem readsAs_emptyObject {blanks : List Char} (hblanks : Blank blanks) :
    ReadsAs ('\x7b' :: (blanks ++ ['\x7d'])) (.object [] true) := by
  intro place frames rest hplace _
  have hbegin : readToken ('\x7b' :: (blanks ++ ['\x7d'] ++ rest)) = some (.beginObject, _) := rfl
  have hend : readToken ('\x7d' :: rest) = some (.endObject, rest) := rfl
  have htake : take (.key [] true) frames .endObject =
      some (.ended (.object [] true), frames) := rfl
  rw [List.cons_append, tokens_of_readToken hbegin, run_of_takeValue hplace rfl, List.append_assoc,
    tokens_blank hblanks, List.singleton_append, tokens_of_readToken hend, run_of_take htake]

theorem readsAs_object {first : MemberText} {members : List MemberText}
    (hkeys : ∀ m ∈ first :: members, KeySpelled m.key m.keyText)
    (hvalues : ∀ m ∈ first :: members, ReadsAs m.valueText m.value) :
    ReadsAs ('\x7b' :: (first.text ++ (following (members.map MemberText.text) ++ ['\x7d'])))
      (.object ((first :: members).map MemberText.member) true) := by
  obtain ⟨hkey, hkeys⟩ := List.forall_mem_cons.mp hkeys
  obtain ⟨hvalue, hvalues⟩ := List.forall_mem_cons.mp hvalues
  intro place frames rest hplace _
  have hsplit : '\x7b' :: (first.text ++ (following (members.map MemberText.text) ++ ['\x7d'])) ++
      rest = '\x7b' :: (first.text ++ (following (members.map MemberText.text) ++
        '\x7d' :: rest)) := by simp
  have hbegin : readToken ('\x7b' :: (first.text ++ (following (members.map MemberText.text) ++
      '\x7d' :: rest))) = some (.beginObject, _) := rfl
  rw [hsplit, tokens_of_readToken hbegin, run_of_takeValue hplace rfl,
    run_member hkey hvalue _ _ _ (endsNumber_following endsNumber_brace _ rest),
    run_following_members hkeys hvalues]
  rfl

theorem readsAs_of_spells {v : Value} {cs : List Char} (h : Spells v cs) : ReadsAs cs v := by
  induction h with
  | padded hbefore _ hafter ih => exact readsAs_padded hbefore ih hafter
  | null => exact readsAs_of_token (fun _ => rfl) (fun _ => rfl)
  | true => exact readsAs_of_token (fun _ => rfl) (fun _ => rfl)
  | false => exact readsAs_of_token (fun _ => rfl) (fun _ => rfl)
  | number h => exact readsAs_of_token (fun _ => rfl) (fun hrest => readToken_number h hrest)
  | string h => exact readsAs_of_token (fun _ => rfl) (fun _ => readToken_string h _)
  | emptyArray h => exact readsAs_emptyArray h
  | array _ ih => exact readsAs_array ih
  | emptyObject h => exact readsAs_emptyObject h
  | object hkeys _ ih => exact readsAs_object hkeys ih

/-- Every spelling of a value is read as this value, with nothing left over. -/
theorem read_spelled {v : Value} {cs : List Char} (h : Spells v cs) : read cs = (v, []) := by
  have hrun : run .value [] (tokens (cs ++ [])) = run (.ended v) [] (tokens []) :=
    readsAs_of_spells h awaits_value endsNumber_nil
  rw [List.append_nil, tokens_nil] at hrun
  rw [read, hrun, run]

theorem decodeText_spelled {α : Type} {decode : Decoder α} {text : String} {v : Value}
    (h : Spells v text.toList) : decodeText decode text = decode v := by
  rw [decodeText, read_spelled h]
  dsimp only
  cases decode v with
  | error e => rfl
  | ok a => rfl

/-! ## The text that the writer gives a value -/

namespace Value

/-- The text of the value is one of its spellings. -/
def Legible (v : Value) : Prop := Spells v v.write

theorem legible_ofString (s : String) : (ofString s).Legible := .string (stringSpelled_write s)

theorem legible_ofNat (n : Nat) : (ofNat n).Legible := .number (numeralSpelled_write n)

/-- An item with the text that the writer gives it. -/
def writtenItem (v : Value) : ItemText := ⟨v, v.write⟩

/-- A named value with the texts that the writer gives it. -/
def writtenMember (m : String × Value) : MemberText :=
  ⟨m.1.toList.map .char, writeString (m.1.toList.map .char), m.2, m.2.write⟩

theorem writeMoreItems_eq (items : List Value) :
    writeMoreItems items = following ((items.map writtenItem).map ItemText.text) := by
  induction items with
  | nil => rfl
  | cons v items ih =>
      rw [writeMoreItems, ih]
      rfl

theorem legible_list {items : List Value} (h : ∀ v ∈ items, v.Legible) : (list items).Legible := by
  cases items with
  | nil => exact .emptyArray (by nofun)
  | cons v items =>
      have hspelled : ∀ i ∈ (v :: items).map writtenItem, Spells i.value i.text := by
        intro i hi
        obtain ⟨w, hw, rfl⟩ := List.mem_map.mp hi
        exact h w hw
      have hvalues : ((v :: items).map writtenItem).map ItemText.value = v :: items := by
        rw [List.map_map]
        exact List.map_id _
      have harray := Spells.array hspelled
      rw [← List.map_cons, hvalues] at harray
      rw [Legible, list, write, writeItems, writeMoreItems_eq, List.append_assoc]
      exact harray

theorem writeMoreMembers_eq (members : List (String × Value)) :
    writeMoreMembers (members.map fun m => (m.1.toList.map .char, m.2)) =
      following ((members.map writtenMember).map MemberText.text) := by
  induction members with
  | nil => rfl
  | cons m members ih =>
      rw [List.map_cons, writeMoreMembers, ih]
      simp [following, MemberText.text, writtenMember]

theorem keySpelled_write (s : String) :
    KeySpelled (s.toList.map .char) (writeString (s.toList.map .char)) := by
  have hblank : Blank [] := by nofun
  have hkey := KeySpelled.padded hblank (stringSpelled_write s) hblank
  rwa [List.append_nil] at hkey

theorem legible_record {members : List (String × Value)} (h : ∀ m ∈ members, m.2.Legible) :
    (record members).Legible := by
  cases members with
  | nil => exact .emptyObject (by nofun)
  | cons m members =>
      have hkeys : ∀ t ∈ (m :: members).map writtenMember, KeySpelled t.key t.keyText := by
        intro t ht
        obtain ⟨n, _, rfl⟩ := List.mem_map.mp ht
        exact keySpelled_write n.1
      have hvalues : ∀ t ∈ (m :: members).map writtenMember, Spells t.value t.valueText := by
        intro t ht
        obtain ⟨n, hn, rfl⟩ := List.mem_map.mp ht
        exact h n hn
      have hobject := Spells.object hkeys hvalues
      rw [← List.map_cons, List.map_map] at hobject
      rw [Legible, record, write, List.map_cons, writeMembers, writeMoreMembers_eq,
        List.append_assoc, List.cons_append, List.append_assoc]
      rw [MemberText.text, List.append_assoc, List.cons_append] at hobject
      exact hobject

/-- A value with a name before it is legible if the value is. -/
theorem legible_named {name : String} {v : Value} (h : v.Legible) :
    (record [(name, v)]).Legible := by
  apply legible_record
  intro m hm
  rw [List.mem_singleton.mp hm]
  exact h

theorem legible_map {α : Type} {encode : α → Value} (h : ∀ a : α, (encode a).Legible)
    (as : List α) : (list (as.map encode)).Legible := by
  apply legible_list
  intro v hv
  obtain ⟨a, _, rfl⟩ := List.mem_map.mp hv
  exact h a

end Value

end DualRail.Json
