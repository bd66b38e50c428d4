/-
  Collecting settings from a file.

  A setting is written as a row: its name, a colon, and its value, which is quoted if it is a
  text.  Reading such a row puts the value into the draft, unless the setting is there already
  (`Config.Draft.addEntry_row`).  So after any rows the draft holds what is written, and nothing
  else (`Config.Draft.Reads`), and the configuration has those values and the defaults
  (`Config.Gives`), whatever the order.  One more row that repeats a setting, or that names
  something else, is a fault wherever it stands (`Config.readFile_collects`).
-/
import DualRail.Proofs.Layering
import DualRail.Proofs.Lexemes
import DualRail.Proofs.Mappings

set_option autoImplicit false

namespace DualRail

/-! ## Numbers -/

namespace Yaml

theorem isDigit_of_mem_toDigits {n : Nat} {c : Char} (h : c ∈ Nat.toDigits 10 n) :
    c.isDigit = true :=
  Nat.isDigit_of_mem_toDigits (by decide) (by decide) h

/-- A number is written without a sign, and its digits are those of the base ten. -/
theorem natural?_eq_of_isDigit {cs : List Char} (h : ∀ c ∈ cs, c.isDigit = true)
    (hpadded : isZeroPadded cs = false) : natural? cs = Text.natural? 10 cs := by
  have hplus : dropPlus cs = cs := by
    unfold dropPlus
    split
    · cases h '+' List.mem_cons_self
    · rfl
  have hbase : baseOf cs = (10, cs) := by
    unfold baseOf
    split
    · cases h 'x' (List.mem_cons_of_mem _ List.mem_cons_self)
    · cases h 'o' (List.mem_cons_of_mem _ List.mem_cons_self)
    · cases h 'b' (List.mem_cons_of_mem _ List.mem_cons_self)
    · rfl
  rw [natural?, hplus, hbase]
  dsimp only
  rw [hpadded, if_neg Bool.false_ne_true]

theorem isZeroPadded_toDigits (n : Nat) : isZeroPadded (Nat.toDigits 10 n) = false := by
  rcases Nat.eq_zero_or_pos n with rfl | hn
  · rfl
  · have hzero := Json.head_toDigits_ne_zero hn
    have hdigits : ∀ c ∈ Nat.toDigits 10 n, c.isDigit = true := fun c => isDigit_of_mem_toDigits
    cases hds : Nat.toDigits 10 n with
    | nil => rfl
    | cons d ds =>
        rw [hds] at hzero hdigits
        have hd := hdigits d List.mem_cons_self
        have hsigned : isSigned (d :: ds) = false := by
          rw [isSigned, beq_eq_false_of hd '+' (by decide), beq_eq_false_of hd '-' (by decide)]
          rfl
        unfold isZeroPadded
        rw [hsigned, if_neg Bool.false_ne_true]
        split
        · rename_i heq
          cases heq
          exact absurd rfl hzero
        · rfl

theorem natural?_toDigits (n : Nat) : natural? (Nat.toDigits 10 n) = some n := by
  rw [natural?_eq_of_isDigit (fun c => isDigit_of_mem_toDigits) (isZeroPadded_toDigits n),
    Text.natural?_ten_eq_some_iff]
  exact ⟨Nat.toDigits_ne_nil, fun c => isDigit_of_mem_toDigits, Nat.ofDigitChars_ten_toDigits⟩

theorem decodeUInt32_toDigits (n : UInt32) :
    decodeUInt32 (.scalar ⟨String.ofList (Nat.toDigits 10 n.toNat), .plain, none⟩) = .ok n := by
  have hsmall : n.toNat < Nat.pow 2 32 := n.toNat_lt
  simp [decodeUInt32, Scalar.mayBe, natural?_toDigits, hsmall]

/-- Digits are not the word for nothing. -/
theorem decodeOptional_toDigits (path : String) (n : UInt32) :
    decodeOptional path decodeUInt32
      (.scalar ⟨String.ofList (Nat.toDigits 10 n.toNat), .plain, none⟩) = .ok (some n) := by
  have hnot : ∀ word : String, word.toList.any (fun c => !c.isDigit) = true →
      String.ofList (Nat.toDigits 10 n.toNat) ≠ word := by
    rintro word hword rfl
    rw [String.toList_ofList, List.any_eq_true] at hword
    obtain ⟨c, hc, hdigit⟩ := hword
    rw [isDigit_of_mem_toDigits hc] at hdigit
    cases hdigit
  have hempty : String.ofList (Nat.toDigits 10 n.toNat) ≠ "" := by
    simp [Nat.toDigits_ne_nil]
  have hnull : isNull (String.ofList (Nat.toDigits 10 n.toNat)) = false := by
    simp (disch := decide) [isNull, hnot]
  simp [decodeOptional, hempty, hnull, decodeSetting, decodeUInt32_toDigits, Except.map,
    Except.mapError]

end Yaml

/-! ## Settings -/

namespace Config

open Files (FileTree)

/-- A setting and its value. -/
inductive Setting
  | circuit (text : String)
  | qubits (n : Option UInt32)
  | output (text : String)
  | protocol (p : Protocol)
  | strict (b : Bool)
  | logLevel (text : String)
deriving DecidableEq, Repr, Inhabited

namespace Setting

/-- The name of a setting. -/
def key : Setting → String
  | circuit _ => "circuit"
  | qubits _ => "qubits"
  | output _ => "output"
  | protocol _ => "protocol"
  | strict _ => "strict"
  | logLevel _ => "log_level"

/-- How a value is written: a text between quotes, everything else as it is. -/
def value : Setting → Yaml.Written
  | circuit text | output text | logLevel text => .quoted text.toList
  | qubits none => .plain "null".toList
  | qubits (some n) => .plain (Nat.toDigits 10 n.toNat)
  | protocol p => .plain p.name.toList
  | strict b => .plain (if b then "true" else "false").toList

/-- The row of a setting. -/
def row (s : Setting) : Yaml.Row := ⟨s.key.toList, s.value⟩

/-- Texts have printable characters only. -/
def Printable : Setting → Prop
  | circuit text | output text | logLevel text => ∀ c ∈ text.toList, Yaml.isPrintable c = true
  | qubits _ | protocol _ | strict _ => True

theorem key_mem_settingNames (s : Setting) : s.key ∈ settingNames := by
  cases s <;> simp [key, settingNames]

theorem Printable.legible {s : Setting} (h : s.Printable) : s.row.Legible := by
  have hname : Yaml.IsName s.key.toList ∧ s.key.toList.length ≤ Yaml.Scanner.maxKeyLength := by
    have hnames : ∀ key ∈ settingNames, key.toList ≠ [] ∧
        (∀ c ∈ key.toList, Yaml.isNameChar c = true) ∧
        key.toList.length ≤ Yaml.Scanner.maxKeyLength := by
      simp [settingNames, Yaml.isNameChar, Yaml.Scanner.maxKeyLength]
    obtain ⟨hne, hchars, hshort⟩ := hnames s.key s.key_mem_settingNames
    exact ⟨⟨hne, hchars⟩, hshort⟩
  have hvalue : s.value.Legible := by
    cases s with
    | circuit text => exact h
    | output text => exact h
    | logLevel text => exact h
    | protocol p =>
        cases p
        simp [value, Protocol.name, Yaml.Written.Legible, Yaml.IsName, Yaml.isNameChar]
    | strict b =>
        cases b <;> simp [value, Yaml.Written.Legible, Yaml.IsName, Yaml.isNameChar]
    | qubits n =>
        cases n with
        | none => simp [value, Yaml.Written.Legible, Yaml.IsName, Yaml.isNameChar]
        | some n =>
            refine ⟨Nat.toDigits_ne_nil, fun c hc => ?_⟩
            simp [Yaml.isNameChar, Char.isAlphanum, Yaml.isDigit_of_mem_toDigits hc]
  exact ⟨⟨hname.1, hvalue⟩, hname.2⟩

end Setting

/-! ## Drafts -/

namespace Draft

/-- Whether a setting is there, with any value. -/
def has (d : Draft) : Setting → Bool
  | .circuit _ => d.circuit.isSome
  | .qubits _ => d.qubits.isSome
  | .output _ => d.output.isSome
  | .protocol _ => d.protocol.isSome
  | .strict _ => d.strict.isSome
  | .logLevel _ => d.logLevel.isSome

/-- The draft with a setting. -/
def put (d : Draft) : Setting → Draft
  | .circuit text => { d with circuit := some text }
  | .qubits n => { d with qubits := some n }
  | .output text => { d with output := some text }
  | .protocol p => { d with protocol := some p }
  | .strict b => { d with strict := some b }
  | .logLevel text => { d with logLevel := some text }

theorem addEntry_entry (d : Draft) (r : Yaml.Row) :
    d.addEntry r.entry = d.addSetting (String.ofList r.key) (String.ofList r.key)
      (some (.scalar ⟨String.ofList r.value.text, r.value.style, none⟩)) := rfl

theorem take_map {α : Type} {name : String} {before : Option α} {n : Yaml.Node}
    {decode : Yaml.Node → Except Fault α} {a : α} (h : decode n = .ok a) (f : α → Draft) :
    (take name before (some n) decode).map f =
      if before.isSome then .error (.duplicateField name) else .ok (f a) := by
  cases before with
  | none =>
      rw [take, h]
      rfl
  | some b => rfl

/-- A row is read as the setting that it was written for, unless there is one. -/
theorem addEntry_row (d : Draft) (s : Setting) :
    d.addEntry s.row.entry =
      if d.has s then .error (.duplicateField s.key) else .ok (d.put s) := by
  have hkey : String.ofList s.row.key = s.key := String.ofList_toList
  have htext : ∀ (expected text : String),
      Yaml.decodeSetting s.key (Yaml.decodeText expected)
        (.scalar ⟨String.ofList text.toList, .quoted, none⟩) = .ok text := by
    intro expected text
    rw [String.ofList_toList]
    rfl
  rw [addEntry_entry, hkey]
  cases s with
  | circuit text =>
      change d.addSetting "circuit" "circuit" _ = _
      rw [addSetting, if_pos rfl]
      exact take_map (htext _ text) _
  | qubits n =>
      change d.addSetting "qubits" "qubits" _ = _
      rw [addSetting, if_neg (by decide), if_pos rfl]
      refine take_map ?_ _
      cases n with
      | none => rfl
      | some n => exact Yaml.decodeOptional_toDigits _ n
  | output text =>
      change d.addSetting "output" "output" _ = _
      rw [addSetting, if_neg (by decide), if_neg (by decide), if_pos rfl]
      exact take_map (htext _ text) _
  | protocol p =>
      change d.addSetting "protocol" "protocol" _ = _
      rw [addSetting, if_neg (by decide), if_neg (by decide), if_neg (by decide), if_pos rfl]
      refine take_map ?_ _
      cases p
      rfl
  | strict b =>
      change d.addSetting "strict" "strict" _ = _
      rw [addSetting, if_neg (by decide), if_neg (by decide), if_neg (by decide),
        if_neg (by decide), if_pos rfl]
      refine take_map ?_ _
      cases b <;> rfl
  | logLevel text =>
      change d.addSetting "log_level" "log_level" _ = _
      rw [addSetting, if_neg (by decide), if_neg (by decide), if_neg (by decide),
        if_neg (by decide), if_neg (by decide), if_pos rfl]
      exact take_map (htext _ text) _

theorem addSetting_unknown (d : Draft) {key : String} (hkey : key ∉ settingNames) (path : String)
    (value : Option Yaml.Node) :
    d.addSetting key path value = .error (.unknownField key settingNames) := by
  simp only [settingNames, List.mem_cons, List.not_mem_nil, or_false, not_or] at hkey
  obtain ⟨hcircuit, hqubits, houtput, hprotocol, hstrict, hlevel⟩ := hkey
  rw [addSetting, if_neg hcircuit, if_neg hqubits, if_neg houtput, if_neg hprotocol,
    if_neg hstrict, if_neg hlevel]

/-- The settings of one kind that are written: the value that was read, and no other. -/
def ReadAs {α : Type} (settings : List Setting) (make : α → Setting) (field : Option α) : Prop :=
  ∀ a : α, field = some a ↔ make a ∈ settings

namespace ReadAs

variable {α : Type} {settings : List Setting} {make : α → Setting} {field : Option α}

theorem keep (h : ReadAs settings make field) {s : Setting} (hs : ∀ a, make a ≠ s) :
    ReadAs (settings ++ [s]) make field := by
  intro a
  simp [h a, hs a]

theorem put (h : ReadAs settings make field) (hnew : field.isSome = false)
    (hmake : ∀ a b, make a = make b ↔ a = b) (a : α) :
    ReadAs (settings ++ [make a]) make (some a) := by
  intro b
  have hb : make b ∉ settings := by
    rw [← h b, Option.isNone_iff_eq_none.mp (Option.isSome_eq_false_iff.mp hnew)]
    simp
  simp [hb, hmake, eq_comm]

theorem isSome_iff (h : ReadAs settings make field) {name : String}
    (hname : ∀ s : Setting, s.key = name ↔ ∃ a, s = make a) :
    field.isSome = true ↔ name ∈ settings.map Setting.key := by
  rw [Option.isSome_iff_exists, List.mem_map]
  constructor
  · rintro ⟨a, ha⟩
    exact ⟨make a, (h a).mp ha, (hname _).mpr ⟨a, rfl⟩⟩
  · rintro ⟨s, hs, hkey⟩
    obtain ⟨a, rfl⟩ := (hname s).mp hkey
    exact ⟨a, (h a).mpr hs⟩

end ReadAs

/-- The draft holds what is written, and nothing else. -/
structure Reads (settings : List Setting) (d : Draft) : Prop where
  circuit : ReadAs settings .circuit d.circuit
  qubits : ReadAs settings .qubits d.qubits
  output : ReadAs settings .output d.output
  protocol : ReadAs settings .protocol d.protocol
  strict : ReadAs settings .strict d.strict
  logLevel : ReadAs settings .logLevel d.logLevel

namespace Reads

theorem empty : Reads [] Draft.empty := by
  constructor <;> simp [ReadAs, Draft.empty]

variable {settings : List Setting} {d : Draft}

theorem has_iff (h : Reads settings d) (s : Setting) :
    d.has s = true ↔ s.key ∈ settings.map Setting.key := by
  cases s with
  | circuit text => exact h.circuit.isSome_iff (by intro s; cases s <;> simp [Setting.key])
  | qubits n => exact h.qubits.isSome_iff (by intro s; cases s <;> simp [Setting.key])
  | output text => exact h.output.isSome_iff (by intro s; cases s <;> simp [Setting.key])
  | protocol p => exact h.protocol.isSome_iff (by intro s; cases s <;> simp [Setting.key])
  | strict b => exact h.strict.isSome_iff (by intro s; cases s <;> simp [Setting.key])
  | logLevel text => exact h.logLevel.isSome_iff (by intro s; cases s <;> simp [Setting.key])

/-- A new setting is put beside the others. -/
theorem put (h : Reads settings d) {s : Setting} (hs : d.has s = false) :
    Reads (settings ++ [s]) (d.put s) := by
  cases s with
  | circuit text =>
      exact ⟨h.circuit.put hs (by simp) text, h.qubits.keep (by simp), h.output.keep (by simp),
        h.protocol.keep (by simp), h.strict.keep (by simp), h.logLevel.keep (by simp)⟩
  | qubits n =>
      exact ⟨h.circuit.keep (by simp), h.qubits.put hs (by simp) n, h.output.keep (by simp),
        h.protocol.keep (by simp), h.strict.keep (by simp), h.logLevel.keep (by simp)⟩
  | output text =>
      exact ⟨h.circuit.keep (by simp), h.qubits.keep (by simp), h.output.put hs (by simp) text,
        h.protocol.keep (by simp), h.strict.keep (by simp), h.logLevel.keep (by simp)⟩
  | protocol p =>
      exact ⟨h.circuit.keep (by simp), h.qubits.keep (by simp), h.output.keep (by simp),
        h.protocol.put hs (by simp) p, h.strict.keep (by simp), h.logLevel.keep (by simp)⟩
  | strict b =>
      exact ⟨h.circuit.keep (by simp), h.qubits.keep (by simp), h.output.keep (by simp),
        h.protocol.keep (by simp), h.strict.put hs (by simp) b, h.logLevel.keep (by simp)⟩
  | logLevel text =>
      exact ⟨h.circuit.keep (by simp), h.qubits.keep (by simp), h.output.keep (by simp),
        h.protocol.keep (by simp), h.strict.keep (by simp), h.logLevel.put hs (by simp) text⟩

end Reads

/-- Rows of different settings are read one after the other. -/
theorem addEntries_rows {settings : List Setting} :
    -- The settings before are those that the draft holds already.
    ∀ {before : List Setting} {d : Draft}, d.Reads before →
      ((before ++ settings).map Setting.key).Nodup →
      ∃ d' : Draft, d.addEntries ((settings.map Setting.row).map Yaml.Row.entry) = .ok d' ∧
        d'.Reads (before ++ settings) := by
  induction settings with
  | nil =>
      intro before d h _
      exact ⟨d, rfl, by rwa [List.append_nil]⟩
  | cons s settings ih =>
      intro before d h hdistinct
      have hnew : d.has s = false := by
        rw [← Bool.not_eq_true, h.has_iff]
        intro hs
        rw [List.map_append, List.nodup_append] at hdistinct
        exact hdistinct.2.2 _ hs _ List.mem_cons_self rfl
      have hassoc : before ++ s :: settings = before ++ [s] ++ settings := by simp
      rw [hassoc] at hdistinct ⊢
      obtain ⟨d', hd', hreads⟩ := ih (h.put hnew) hdistinct
      refine ⟨d', ?_, hreads⟩
      rw [List.map_cons, List.map_cons, addEntries, addEntry_row, hnew]
      exact hd'

theorem addEntries_append {entries others : List Yaml.Entry} :
    ∀ {d d' : Draft}, d.addEntries entries = .ok d' →
      d.addEntries (entries ++ others) = d'.addEntries others := by
  induction entries with
  | nil =>
      intro d d' h
      cases h
      rfl
  | cons e entries ih =>
      intro d d' h
      obtain ⟨next, hnext, h⟩ := bind_eq_ok_iff.mp h
      rw [List.cons_append, addEntries, hnext]
      exact ih h

section Faults

variable {settings : List Setting} (hdistinct : (settings.map Setting.key).Nodup)
  (others : List Yaml.Entry)
include hdistinct

theorem addEntries_repeated {s : Setting} (hs : s.key ∈ settings.map Setting.key) :
    Draft.empty.addEntries
        ((settings.map Setting.row).map Yaml.Row.entry ++ s.row.entry :: others) =
      .error (.duplicateField s.key) := by
  obtain ⟨d, hd, hreads⟩ := addEntries_rows Reads.empty hdistinct
  rw [addEntries_append hd, addEntries, addEntry_row, if_pos ((hreads.has_iff s).mpr hs)]
  rfl

theorem addEntries_unknown {r : Yaml.Row} (hr : String.ofList r.key ∉ settingNames) :
    Draft.empty.addEntries ((settings.map Setting.row).map Yaml.Row.entry ++ r.entry :: others) =
      .error (.unknownField (String.ofList r.key) settingNames) := by
  obtain ⟨d, hd, _⟩ := addEntries_rows Reads.empty hdistinct
  rw [addEntries_append hd, addEntries, addEntry_entry, addSetting_unknown d hr]
  rfl

end Faults

/-- A setting that stands among others and is one of them is found twice: at its own place, or
at the place of the other one. -/
theorem addEntries_inserted {before after : List Setting}
    (hdistinct : ((before ++ after).map Setting.key).Nodup) {s : Setting}
    (hs : s.key ∈ (before ++ after).map Setting.key) :
    Draft.empty.addEntries (((before ++ s :: after).map Setting.row).map Yaml.Row.entry) =
      .error (.duplicateField s.key) := by
  by_cases hfirst : s.key ∈ before.map Setting.key
  · rw [List.map_append] at hdistinct
    rw [List.map_append, List.map_append, List.map_cons, List.map_cons]
    exact addEntries_repeated hdistinct.of_append_left _ hfirst
  · rw [List.map_append, List.mem_append, or_iff_right hfirst, List.mem_map] at hs
    obtain ⟨other, hother, hkey⟩ := hs
    obtain ⟨between, rest, rfl⟩ := List.append_of_mem hother
    -- Up to the other one, the names are the same as without the new row, in another order.
    have hperm : ((before ++ s :: between).map Setting.key).Perm
        ((before ++ (between ++ [other])).map Setting.key) := by
      simp only [List.map_append, List.map_cons, List.map_nil, hkey]
      exact (List.perm_append_singleton _ _).symm.append_left _
    have hsublist : (before ++ (between ++ [other])).Sublist
        (before ++ (between ++ other :: rest)) := by
      simp
    have hnodup := hperm.nodup_iff.mpr (hdistinct.sublist (hsublist.map Setting.key))
    have hrepeated : other.key ∈ (before ++ s :: between).map Setting.key := by
      rw [hkey]
      exact List.mem_map_of_mem (by simp)
    have hsplit : before ++ s :: (between ++ other :: rest) =
        (before ++ s :: between) ++ other :: rest := by simp
    rw [hsplit, List.map_append, List.map_append, List.map_cons, List.map_cons, ← hkey]
    exact addEntries_repeated hnodup _ hrepeated

end Draft

/-! ## Files -/

/-- The value of a setting: the one that is written, or else the default. -/
inductive Given {α : Type} (settings : List Setting) (make : α → Setting) (fallback : α) : α → Prop
  | written {a : α} (h : make a ∈ settings) : Given settings make fallback a
  | absent (h : ∀ a, make a ∉ settings) : Given settings make fallback fallback

/-- The configuration with these settings, and the default of all others. -/
structure Gives (settings : List Setting) (c : Config) : Prop where
  circuit : Given settings .circuit Config.default.circuit c.circuit
  qubits : Given settings .qubits Config.default.qubits c.qubits
  output : Given settings .output Config.default.output c.output
  protocol : Given settings .protocol Config.default.protocol c.protocol
  strict : Given settings .strict Config.default.strict c.strict
  logLevel : Given settings .logLevel Config.default.logLevel c.logLevel

theorem Draft.ReadAs.given {α : Type} {settings : List Setting} {make : α → Setting}
    {field : Option α} (h : Draft.ReadAs settings make field) (fallback : α) :
    Given settings make fallback (field.getD fallback) := by
  cases field with
  | none =>
      refine .absent fun a => ?_
      rw [← h a]
      simp
  | some a => exact .written ((h a).mp rfl)

theorem Draft.Reads.gives {settings : List Setting} {d : Draft} (h : d.Reads settings) :
    d.complete.Gives settings :=
  ⟨h.circuit.given _, h.qubits.given _, h.output.given _, h.protocol.given _, h.strict.given _,
    h.logLevel.given _⟩

/-- The file has these rows, one in each line; the last line may be ended or not. -/
def HasRows (t : FileTree) (path : String) (rows : List Yaml.Row) : Prop :=
  ∃ ending : String, (ending = "" ∨ ending = "\n") ∧
    t.readText path =
      .ok ("\n".intercalate (rows.map fun r => String.ofList r.line) ++ ending)

theorem intercalate_lines (r : Yaml.Row) (rows : List Yaml.Row) (rest : List Char) :
    List.intercalate ['\n'] (r.line :: rows.map Yaml.Row.line) ++ rest =
      r.line ++ Yaml.Row.following rows rest := by
  induction rows generalizing r with
  | nil => simp [Yaml.Row.following]
  | cons r' rows ih =>
      rw [List.map_cons, List.intercalate_cons_cons, Yaml.Row.following, ← ih]
      simp

theorem toList_intercalate_rows (rows : List Yaml.Row) (ending : String) :
    ("\n".intercalate (rows.map fun r => String.ofList r.line) ++ ending).toList =
      Yaml.Row.text rows ending.toList := by
  rw [String.toList_append, String.toList_intercalate, List.map_map]
  cases rows with
  | nil => rfl
  | cons r rows =>
      have hlines : ∀ rows : List Yaml.Row,
          rows.map (String.toList ∘ fun r => String.ofList r.line) = rows.map Yaml.Row.line := by
        simp
      rw [hlines]
      exact intercalate_lines r rows ending.toList

theorem readFile_of_hasRows {t : FileTree} {path : String} {rows : List Yaml.Row}
    (h : HasRows t path rows) :
    ∃ rest : List Char, (rest = [] ∨ rest = ['\n']) ∧
      ((readFile (some path)).runOn t).1 =
        (ofDocument (.ofTokens (Yaml.tokens (Yaml.Row.text rows rest)))).mapError .parse := by
  obtain ⟨ending, hending, hcontent⟩ := h
  refine ⟨ending.toList, ?_, ?_⟩
  · rcases hending with rfl | rfl
    · exact .inl rfl
    · exact .inr rfl
  · rw [readFile, Files.Script.runOn_bind, Files.Script.runOn_read]
    change ofFile path (t.readText path) = _
    rw [hcontent, ofFile, ofText, Yaml.Document.ofText, toList_intercalate_rows]

section Documents

variable {rest : List Char} (hrest : rest = [] ∨ rest = ['\n'])
include hrest

/-- Rows are collected in a draft, which the defaults complete. -/
theorem ofDocument_rows {rows : List Yaml.Row} (hrows : ∀ r ∈ rows, r.Legible) :
    ofDocument (.ofTokens (Yaml.tokens (Yaml.Row.text rows rest))) =
      (Draft.empty.addEntries (rows.map Yaml.Row.entry)).map Draft.complete := by
  by_cases hne : rows = []
  · rw [hne, Yaml.Document.ofNoRows hrest]
    rfl
  · rw [Yaml.Document.ofRows hrest hrows hne, ofDocument]
    cases Draft.empty.addEntries (rows.map Yaml.Row.entry) with
    | error fault => rfl
    | ok d => rfl

/-- No configuration has a key that is too long to be read. -/
theorem ofDocument_longKey {before after : List Yaml.Row} {r : Yaml.Row}
    (hbefore : ∀ b ∈ before, b.Legible) (hafter : ∀ a ∈ after, a.WellFormed)
    (hrow : r.WellFormed) (hlong : Yaml.Scanner.maxKeyLength < r.key.length) :
    ∃ fault : Fault,
      ofDocument (.ofTokens (Yaml.tokens (Yaml.Row.text (before ++ r :: after) rest))) =
        .error fault := by
  rw [Yaml.Document.ofRows_longKey hrest hbefore hafter hrow hlong]
  by_cases hne : before = []
  · have hkey : ¬ (String.ofList r.key = "" ∧ Yaml.Style.plain = .plain) := by
      rintro ⟨hempty, _⟩
      simp [hrow.name.1] at hempty
    rw [if_pos hne, ofDocument, if_neg hkey]
    exact ⟨_, rfl⟩
  · rw [if_neg hne, ofDocument]
    cases Draft.empty.addEntries (before.map Yaml.Row.entry) with
    | error fault => exact ⟨_, rfl⟩
    | ok d => exact ⟨_, rfl⟩

end Documents

theorem readFile_of_legible {t : FileTree} {path : String} {rows : List Yaml.Row}
    (hfile : HasRows t path rows) (hrows : ∀ r ∈ rows, r.Legible) :
    ((readFile (some path)).runOn t).1 =
      ((Draft.empty.addEntries (rows.map Yaml.Row.entry)).map Draft.complete).mapError .parse := by
  obtain ⟨rest, hrest, hread⟩ := readFile_of_hasRows hfile
  rw [hread, ofDocument_rows hrest hrows]

theorem legible_of_mem_rows {settings : List Setting} (h : ∀ s ∈ settings, s.Printable) :
    ∀ r ∈ settings.map Setting.row, r.Legible := by
  intro r hr
  obtain ⟨s, hs, rfl⟩ := List.mem_map.mp hr
  exact (h s hs).legible

/-- A file with one more row, which has the key of no setting.  If the key can be read, it is
the fault; if it cannot, the rest of the file cannot either. -/
theorem readFile_unknown {before after : List Setting}
    (hdistinct : (before.map Setting.key).Nodup) (hbefore : ∀ s ∈ before, s.Printable)
    (hafter : ∀ s ∈ after, s.Printable) {r : Yaml.Row} (hrow : r.WellFormed)
    (hkey : String.ofList r.key ∉ settingNames) {t : FileTree} {path : String}
    (hfile : HasRows t path (before.map Setting.row ++ r :: after.map Setting.row)) :
    ∃ fault : Fault, ((readFile (some path)).runOn t).1 = .error (.parse fault) ∧
      (r.key.length ≤ Yaml.Scanner.maxKeyLength →
        fault = .unknownField (String.ofList r.key) settingNames) := by
  by_cases hshort : r.key.length ≤ Yaml.Scanner.maxKeyLength
  · have hrows : ∀ r' ∈ before.map Setting.row ++ r :: after.map Setting.row, r'.Legible := by
      intro r' hr'
      rw [List.mem_append, List.mem_cons] at hr'
      rcases hr' with hr' | rfl | hr'
      · exact legible_of_mem_rows hbefore r' hr'
      · exact ⟨hrow, hshort⟩
      · exact legible_of_mem_rows hafter r' hr'
    refine ⟨_, ?_, fun _ => rfl⟩
    rw [readFile_of_legible hfile hrows, List.map_append, List.map_cons,
      Draft.addEntries_unknown hdistinct _ hkey]
    rfl
  · obtain ⟨rest, hrest, hread⟩ := readFile_of_hasRows hfile
    obtain ⟨fault, hfault⟩ := ofDocument_longKey hrest (legible_of_mem_rows hbefore)
      (fun a ha => (legible_of_mem_rows hafter a ha).toWellFormed) hrow (Nat.not_le.mp hshort)
    rw [hread, hfault]
    exact ⟨fault, rfl, fun h => absurd h hshort⟩

/-- Whatever settings a file has, in any order, the configuration has their values and the
defaults of all others.  With one more row at any place, there is a fault: if the row is that
of a setting which is there, and if it has another key. -/
theorem readFile_collects {settings : List Setting}
    (hdistinct : (settings.map Setting.key).Nodup) (hprintable : ∀ s ∈ settings, s.Printable)
    (t : FileTree) (path : String) :
    (HasRows t path (settings.map Setting.row) →
        ∃ c : Config, ((readFile (some path)).runOn t).1 = .ok c ∧ c.Gives settings) ∧
      ∀ before after : List Setting, before ++ after = settings →
        (∀ s : Setting, s.Printable → s.key ∈ settings.map Setting.key →
          HasRows t path ((before ++ s :: after).map Setting.row) →
            ((readFile (some path)).runOn t).1 = .error (.parse (.duplicateField s.key))) ∧
        ∀ key text : String, Yaml.IsName key.toList → key ∉ settingNames →
          (∀ c ∈ text.toList, Yaml.isPrintable c = true) →
          HasRows t path (before.map Setting.row ++
            ⟨key.toList, .quoted text.toList⟩ :: after.map Setting.row) →
            ∃ fault : Fault, ((readFile (some path)).runOn t).1 = .error (.parse fault) ∧
              (key.length ≤ Yaml.Scanner.maxKeyLength →
                fault = .unknownField key settingNames) := by
  refine ⟨?_, ?_⟩
  · intro hfile
    obtain ⟨d, hd, hreads⟩ := Draft.addEntries_rows .empty hdistinct
    refine ⟨d.complete, ?_, hreads.gives⟩
    rw [readFile_of_legible hfile (legible_of_mem_rows hprintable), hd]
    rfl
  · rintro before after rfl
    obtain ⟨hbefore, hafter⟩ := List.forall_mem_append.mp hprintable
    refine ⟨?_, ?_⟩
    · intro s hs hkey hfile
      have hinserted : ∀ s' ∈ before ++ s :: after, s'.Printable :=
        List.forall_mem_append.mpr ⟨hbefore, List.forall_mem_cons.mpr ⟨hs, hafter⟩⟩
      rw [readFile_of_legible hfile (legible_of_mem_rows hinserted),
        Draft.addEntries_inserted hdistinct hkey]
      rfl
    · intro key text hname hkey htext hfile
      rw [List.map_append] at hdistinct
      have hrow : Yaml.Row.WellFormed ⟨key.toList, .quoted text.toList⟩ := ⟨hname, htext⟩
      have hother : String.ofList key.toList ∉ settingNames := by rwa [String.ofList_toList]
      obtain ⟨fault, hread, hfault⟩ :=
        readFile_unknown hdistinct.of_append_left hbefore hafter hrow hother hfile
      rw [String.ofList_toList] at hfault
      exact ⟨fault, hread, hfault⟩

/-- Settings with texts that look like something else. -/
def quotedSettings : List Setting :=
  [.logLevel "it's: # 'odd' ", .qubits (some 4294967295), .circuit " - a: &b", .strict true]

/-- A file with these settings, and with more lines before them and between them. -/
def quotedTree (first middle : String) : FileTree :=
  FileTree.initial.add "klm.yaml"
    (.text (first ++ "log_level: 'it''s: # ''odd'' '\nqubits: 4294967295\n" ++ middle ++
      "circuit: ' - a: &b'\nstrict: true\n"))

/-- The settings are read, but not with another line before them or between them. -/
theorem readFile_collects_quotedSettings :
    (∃ c : Config, ((readFile (some "klm.yaml")).runOn (quotedTree "" "")).1 = .ok c ∧
        c.Gives quotedSettings) ∧
      ((readFile (some "klm.yaml")).runOn (quotedTree "strict: false\n" "")).1 =
        .error (.parse (.duplicateField "strict")) ∧
      ((readFile (some "klm.yaml")).runOn (quotedTree "" "level: ''''\n")).1 =
        .error (.parse (.unknownField "level" settingNames)) := by
  have hdistinct : (quotedSettings.map Setting.key).Nodup := by decide
  have hprintable : ∀ s ∈ quotedSettings, s.Printable := by
    simp [quotedSettings, Setting.Printable, Yaml.isPrintable]
  refine ⟨?_, ?_, ?_⟩
  · refine (readFile_collects hdistinct hprintable _ _).1 ⟨"\n", .inr rfl, ?_⟩
    with_unfolding_all rfl
  · refine ((readFile_collects hdistinct hprintable _ _).2 [] quotedSettings rfl).1 (.strict false)
      trivial (by decide) ⟨"\n", .inr rfl, ?_⟩
    with_unfolding_all rfl
  · have hfile : HasRows (quotedTree "" "level: ''''\n") "klm.yaml"
        ((quotedSettings.take 2).map Setting.row ++
          ⟨"level".toList, .quoted "'".toList⟩ :: (quotedSettings.drop 2).map Setting.row) := by
      refine ⟨"\n", .inr rfl, ?_⟩
      with_unfolding_all rfl
    obtain ⟨fault, hread, hfault⟩ := ((readFile_collects hdistinct hprintable _ _).2
      (quotedSettings.take 2) (quotedSettings.drop 2) rfl).2 "level" "'"
      (by simp [Yaml.IsName, Yaml.isNameChar]) (by decide) (by simp [Yaml.isPrintable]) hfile
    rw [hread, hfault (by decide)]

end Config

end DualRail
