/-
  Settings in layers.

  Below everything lie the defaults, above them what the file gives, then the variables of
  the environment that can be read, and on top the command line.  What a variable has to
  look like is said here without the functions that read it, and which layer decides about
  a setting is a relation (`Config.Chosen`).

  The configuration is checked twice, without the command line and with it.  So a bad value
  of a lower layer is an error even if the command line would replace it, and a
  configuration that is returned passes the check (`Config.configured_layers`).
-/
import DualRail.Proofs.Configuration

set_option autoImplicit false

namespace DualRail

/-! ## Numbers and words -/

namespace Text

theorem le_iff_toNat {c d : Char} : c ≤ d ↔ c.toNat ≤ d.toNat := by
  rw [Char.le_def, UInt32.le_iff_toNat_le]
  rfl

theorem digitIn?_ten_of_isDigit {c : Char} (h : c.isDigit = true) :
    digitIn? 10 c = some (c.toNat - '0'.toNat) := by
  obtain ⟨hlow, hhigh⟩ := Char.isDigit_iff_toNat.mp h
  have hdigit : '0' ≤ c ∧ c ≤ '9' := ⟨le_iff_toNat.mpr hlow, le_iff_toNat.mpr hhigh⟩
  have hten : c.toNat - '0'.toNat < 10 := by
    have hzero : '0'.toNat = 48 := rfl
    have hnine : '9'.toNat = 57 := rfl
    omega
  unfold digitIn?
  dsimp only
  rw [if_pos hdigit, if_pos hten]

theorem digitIn?_ten_of_not_isDigit {c : Char} (h : ¬ c.isDigit = true) :
    digitIn? 10 c = none := by
  have hdigit : ¬ ('0' ≤ c ∧ c ≤ '9') := by
    rintro ⟨hlow, hhigh⟩
    exact h (Char.isDigit_iff_toNat.mpr ⟨le_iff_toNat.mp hlow, le_iff_toNat.mp hhigh⟩)
  unfold digitIn?
  dsimp only
  rw [if_neg hdigit]
  -- Letters stand for ten and more, and everything else for the base.
  refine if_neg ?_
  split
  · omega
  · split
    · omega
    · omega

theorem naturalFrom?_ten_eq_some_iff {cs : List Char} :
    ∀ {n m : Nat}, naturalFrom? 10 n cs = some m ↔
      (∀ c ∈ cs, c.isDigit = true) ∧ Nat.ofDigitChars 10 cs n = m := by
  induction cs with
  | nil =>
      intro n m
      simp [naturalFrom?]
  | cons c rest ih =>
      intro n m
      rw [List.forall_mem_cons, Nat.ofDigitChars_cons, naturalFrom?]
      by_cases hc : c.isDigit = true
      · rw [digitIn?_ten_of_isDigit hc, and_iff_right hc]
        exact ih
      · rw [digitIn?_ten_of_not_isDigit hc]
        exact iff_of_false nofun (fun h => hc h.1.1)

/-- Decimal digits, at least one of them, that stand for a number. -/
structure Decimals (digits : List Char) (n : Nat) : Prop where
  nonempty : digits ≠ []
  isDigit : ∀ c ∈ digits, c.isDigit = true
  value : Nat.ofDigitChars 10 digits 0 = n

theorem natural?_ten_eq_some_iff {cs : List Char} {n : Nat} :
    natural? 10 cs = some n ↔ Decimals cs n := by
  rw [natural?]
  by_cases hcs : cs = []
  · rw [if_pos (List.isEmpty_iff.mpr hcs)]
    exact iff_of_false nofun (fun h => h.nonempty hcs)
  · rw [if_neg (fun h => hcs (List.isEmpty_iff.mp h)), naturalFrom?_ten_eq_some_iff]
    exact ⟨fun h => ⟨hcs, h.1, h.2⟩, fun h => ⟨h.isDigit, h.value⟩⟩

/-- A plus sign is no digit, so it can be told from the number after it. -/
theorem unsigned?_eq_some_iff {text : String} {n : Nat} :
    unsigned? text = some n ↔
      ∃ digits, (text.toList = digits ∨ text.toList = '+' :: digits) ∧ Decimals digits n := by
  unfold unsigned?
  split
  · rename_i rest htext
    rw [natural?_ten_eq_some_iff]
    constructor
    · intro hrest
      exact ⟨rest, .inr htext, hrest⟩
    · rintro ⟨digits, hdigits | hdigits, hn⟩
      · have hplus := hn.isDigit '+' (by rw [← hdigits, htext]; exact List.mem_cons_self)
        cases hplus
      · rw [htext] at hdigits
        cases hdigits
        exact hn
  · rename_i hplus
    rw [natural?_ten_eq_some_iff]
    constructor
    · intro htext
      exact ⟨text.toList, .inl rfl, htext⟩
    · rintro ⟨digits, hdigits | hdigits, hn⟩
      · rw [hdigits]
        exact hn
      · exact absurd hdigits (hplus digits)

/-- The text is the word, with each of its letters in upper or lower case. -/
def InAnyCase (text word : String) : Prop :=
  List.Forall₂ (fun c d => c = d ∨ c = d.toUpper) text.toList word.toList

theorem toNat_toLower (c : Char) :
    c.toLower.toNat = if 65 ≤ c.toNat ∧ c.toNat ≤ 90 then c.toNat + 32 else c.toNat := by
  have hrange : c.val ≥ 'A'.val ∧ c.val ≤ 'Z'.val ↔ 65 ≤ c.toNat ∧ c.toNat ≤ 90 := by
    rw [ge_iff_le, UInt32.le_iff_toNat_le, UInt32.le_iff_toNat_le]
    rfl
  unfold Char.toLower
  by_cases h : 65 ≤ c.toNat ∧ c.toNat ≤ 90
  · have hsmall : c.val.toNat ≤ 90 := h.2
    rw [dif_pos (hrange.mpr h), if_pos h]
    show (c.val + 32).toNat = c.val.toNat + 32
    rw [UInt32.toNat_add]
    show (c.val.toNat + 32) % 4294967296 = _
    omega
  · rw [dif_neg (fun hc => h (hrange.mp hc)), if_neg h]

theorem toNat_toUpper (c : Char) :
    c.toUpper.toNat = if 97 ≤ c.toNat ∧ c.toNat ≤ 122 then c.toNat - 32 else c.toNat := by
  have hrange : 'a'.val ≤ c.val ∧ c.val ≤ 'z'.val ↔ 97 ≤ c.toNat ∧ c.toNat ≤ 122 := by
    rw [UInt32.le_iff_toNat_le, UInt32.le_iff_toNat_le]
    rfl
  unfold Char.toUpper
  by_cases h : 97 ≤ c.toNat ∧ c.toNat ≤ 122
  · have hlow : 97 ≤ c.val.toNat := h.1
    have hhigh : c.val.toNat ≤ 122 := h.2
    rw [dif_pos (hrange.mpr h), if_pos h]
    show (c.val + ('A'.val - 'a'.val)).toNat = c.val.toNat - 32
    rw [UInt32.toNat_add]
    show (c.val.toNat + 4294967264) % 4294967296 = _
    omega
  · rw [dif_neg (fun hc => h (hrange.mp hc)), if_neg h]

theorem toLower_eq_iff {c d : Char} (h : d.isUpper = false) :
    c.toLower = d ↔ c = d ∨ c = d.toUpper := by
  have hupper : ¬ (65 ≤ d.toNat ∧ d.toNat ≤ 90) := by
    change decide ('A'.val ≤ d.val ∧ d.val ≤ 'Z'.val) = false at h
    rw [decide_eq_false_iff_not, UInt32.le_iff_toNat_le, UInt32.le_iff_toNat_le] at h
    exact h
  rw [← Char.toNat_inj, ← Char.toNat_inj, ← Char.toNat_inj, toNat_toLower, toNat_toUpper]
  split
  · split
    · omega
    · omega
  · split
    · omega
    · omega

theorem map_toLower_eq_iff {text word : String} (h : ∀ d ∈ word.toList, d.isUpper = false) :
    text.map Char.toLower = word ↔ InAnyCase text word := by
  rw [← String.toList_inj, String.toList_map, InAnyCase]
  generalize text.toList = cs
  generalize word.toList = ds at h
  induction cs generalizing ds with
  | nil =>
      cases ds with
      | nil => simp
      | cons d ds => simp
  | cons c cs ih =>
      cases ds with
      | nil => simp
      | cons d ds =>
          obtain ⟨hd, hds⟩ := List.forall_mem_cons.mp h
          rw [List.map_cons, List.cons.injEq, List.forall₂_cons, toLower_eq_iff hd, ih ds hds]

end Text

/-! ## What variables say -/

namespace Config

open Files (FileTree)
open Text (InAnyCase)

/-- A variable that holds a number of 32 bits, perhaps after a plus sign. -/
def SaysNumber (text : String) (n : UInt32) : Prop :=
  ∃ digits, (text.toList = digits ∨ text.toList = '+' :: digits) ∧
    Text.Decimals digits n.toNat

/-- A variable that holds the name of a protocol. -/
def SaysProtocol (text : String) (p : Protocol) : Prop := InAnyCase text p.name

/-- The words for a truth value. -/
def truthWords : Bool → List String
  | true => ["1", "true", "yes", "on"]
  | false => ["0", "false", "no", "off"]

/-- A variable that holds a word for a truth value. -/
def SaysTruth (text : String) (b : Bool) : Prop := ∃ word ∈ truthWords b, InAnyCase text word

theorem qubitsOf?_eq_some_iff {text : String} {n : UInt32} :
    qubitsOf? text = some n ↔ SaysNumber text n := by
  rw [SaysNumber, ← Text.unsigned?_eq_some_iff, qubitsOf?]
  cases Text.unsigned? text with
  | none => exact iff_of_false nofun nofun
  | some k =>
      dsimp only
      rw [Option.some.injEq]
      by_cases hk : k < Nat.pow 2 32
      · rw [if_pos hk, Option.some.injEq, ← UInt32.toNat_inj]
        simp only [Nat.toUInt32, UInt32.toNat_ofNat']
        rw [Nat.mod_eq_of_lt hk]
      · rw [if_neg hk]
        refine iff_of_false nofun ?_
        rintro rfl
        exact hk n.toNat_lt

theorem ofName_toOption_eq_some_iff {text : String} {p : Protocol} :
    (Protocol.ofName text).toOption = some p ↔ SaysProtocol text p := by
  have hname : ∀ d ∈ p.name.toList, d.isUpper = false := by
    cases p
    simp [Protocol.name]
  have hfind : Protocol.ofName? (text.map Char.toLower) = some p ↔
      text.map Char.toLower = p.name := by
    constructor
    · intro h
      have hfound := List.find?_some h
      exact (eq_of_beq hfound).symm
    · intro h
      rw [h, Protocol.ofName?_name]
  rw [SaysProtocol, ← Text.map_toLower_eq_iff hname, ← hfind, Protocol.ofName]
  cases Protocol.ofName? (text.map Char.toLower) with
  | none => exact iff_of_false nofun nofun
  | some q => rfl

theorem contains_toLower_iff {text : String} (b : Bool) :
    (truthWords b).contains (text.map Char.toLower) = true ↔ SaysTruth text b := by
  have hwords : ∀ word ∈ truthWords b, ∀ d ∈ word.toList, d.isUpper = false := by
    cases b <;> simp [truthWords]
  rw [List.contains_iff_mem]
  constructor
  · intro h
    exact ⟨_, h, (Text.map_toLower_eq_iff (hwords _ h)).mp rfl⟩
  · rintro ⟨word, hword, hcase⟩
    rw [(Text.map_toLower_eq_iff (hwords word hword)).mpr hcase]
    exact hword

/-- No word stands for both truth values. -/
theorem strictOf?_eq_some_iff {text : String} {b : Bool} :
    strictOf? text = some b ↔ SaysTruth text b := by
  have hdisjoint : ∀ word ∈ truthWords true, word ∉ truthWords false := by decide
  rw [← contains_toLower_iff]
  show (if (truthWords true).contains (text.map Char.toLower) then some true
    else if (truthWords false).contains (text.map Char.toLower) then some false
    else none) = some b ↔ _
  by_cases htrue : (truthWords true).contains (text.map Char.toLower) = true
  · have hfalse : ¬ (truthWords false).contains (text.map Char.toLower) = true := by
      intro h
      exact hdisjoint _ (List.contains_iff_mem.mp htrue) (List.contains_iff_mem.mp h)
    rw [if_pos htrue]
    cases b with
    | true => exact iff_of_true rfl htrue
    | false => exact iff_of_false nofun hfalse
  · rw [if_neg htrue]
    cases b with
    | true =>
        refine iff_of_false ?_ htrue
        split <;> nofun
    | false => simp

/-! ## Layers -/

/-- The value of a setting: what its variable says if that can be read, else what the file
gives, else the default. -/
inductive Chosen {α : Type} (Says : String → α → Prop) (held : Option String) (given : Option α)
    (fallback : α) : α → Prop
  | environment {text : String} {a : α} (set : held = some text) (usable : Says text a) :
      Chosen Says held given fallback a
  | file {a : α} (unusable : ∀ text b, held = some text → ¬ Says text b)
      (present : given = some a) : Chosen Says held given fallback a
  | default (unusable : ∀ text b, held = some text → ¬ Says text b) (absent : given = none) :
      Chosen Says held given fallback fallback

theorem chosen_iff {α : Type} {Says : String → α → Prop} (read : String → Option α)
    (hread : ∀ text a, read text = some a ↔ Says text a) {held : Option String}
    {given : Option α} {fallback a : α} :
    Chosen Says held given fallback a ↔ a = (held.bind read).getD (given.getD fallback) := by
  cases hsaid : held.bind read with
  | some b =>
      obtain ⟨text, hset, htext⟩ := Option.bind_eq_some_iff.mp hsaid
      have husable := (hread text b).mp htext
      constructor
      · rintro (⟨hset', hsays⟩ | ⟨hunusable, _⟩ | ⟨hunusable, _⟩)
        · cases hset.symm.trans hset'
          exact Option.some.inj (((hread _ _).mpr hsays).symm.trans htext)
        · exact absurd husable (hunusable text b hset)
        · exact absurd husable (hunusable text b hset)
      · rintro rfl
        exact .environment hset husable
  | none =>
      have hunusable : ∀ text b, held = some text → ¬ Says text b := by
        intro text b hset hsays
        rw [hset, Option.bind_some, (hread text b).mpr hsays] at hsaid
        cases hsaid
      constructor
      · rintro (⟨hset, hsays⟩ | ⟨_, hgiven⟩ | ⟨_, hgiven⟩)
        · exact absurd hsays (hunusable _ _ hset)
        · rw [hgiven]
          rfl
        · rw [hgiven]
          rfl
      · rintro rfl
        cases hgiven : given with
        | some b => exact .file hunusable rfl
        | none => exact .default hunusable rfl

/-- The configuration of the environment, a file that gives the settings of `d`, and the
defaults. -/
structure Merged (env : Environment) (d : Draft) (m : Config) : Prop where
  circuit : Chosen (fun text a => a = text) (env "KLMC_CIRCUIT") d.circuit "bell" m.circuit
  qubits : Chosen (fun text a => ∃ n, a = some n ∧ SaysNumber text n) (env "KLMC_QUBITS")
    d.qubits none m.qubits
  output : Chosen (fun text a => a = text) (env "KLMC_OUTPUT") d.output "quantum.qa" m.output
  protocol : Chosen SaysProtocol (env "KLMC_PROTOCOL") d.protocol .klm m.protocol
  strict : Chosen SaysTruth (env "KLMC_STRICT") d.strict false m.strict
  logLevel : Chosen (fun text a => a = text) (env "KLMC_LOG_LEVEL") d.logLevel "warn" m.logLevel

theorem chosen_text_iff {held given : Option String} {fallback a : String} :
    Chosen (fun text a => a = text) held given fallback a ↔
      a = held.getD (given.getD fallback) := by
  rw [chosen_iff some fun text a => by rw [Option.some.injEq, eq_comm]]
  cases held with
  | none => rfl
  | some text => rfl

theorem chosen_qubits_iff {held : Option String} {given : Option (Option UInt32)}
    {a : Option UInt32} :
    Chosen (fun text a => ∃ n, a = some n ∧ SaysNumber text n) held given none a ↔
      a = (held.bind qubitsOf?).or (given.getD none) := by
  have hread : ∀ (text : String) (a : Option UInt32),
      (qubitsOf? text).map some = some a ↔ ∃ n, a = some n ∧ SaysNumber text n := by
    intro text a
    rw [Option.map_eq_some_iff]
    refine exists_congr fun n => ?_
    rw [qubitsOf?_eq_some_iff, and_comm, eq_comm]
  rw [chosen_iff _ hread]
  have hor : (held.bind fun text => (qubitsOf? text).map some).getD (given.getD none) =
      (held.bind qubitsOf?).or (given.getD none) := by
    cases held with
    | none => rfl
    | some text =>
        rw [Option.bind_some, Option.bind_some]
        cases qubitsOf? text with
        | none => rfl
        | some n => rfl
  rw [hor]

/-- The layers make one configuration, and it is the one that the environment makes of the
settings of the file. -/
theorem merged_iff {env : Environment} {d : Draft} {m : Config} :
    Merged env d m ↔ m = d.complete.withEnvironment env := by
  constructor
  · rintro ⟨hcircuit, hqubits, houtput, hprotocol, hstrict, hlogLevel⟩
    cases m
    rw [withEnvironment, mk.injEq]
    exact ⟨chosen_text_iff.mp hcircuit, chosen_qubits_iff.mp hqubits, chosen_text_iff.mp houtput,
      (chosen_iff _ fun _ _ => ofName_toOption_eq_some_iff).mp hprotocol,
      (chosen_iff _ fun _ _ => strictOf?_eq_some_iff).mp hstrict, chosen_text_iff.mp hlogLevel⟩
  · rintro rfl
    exact ⟨chosen_text_iff.mpr rfl, chosen_qubits_iff.mpr rfl, chosen_text_iff.mpr rfl,
      (chosen_iff _ fun _ _ => ofName_toOption_eq_some_iff).mpr rfl,
      (chosen_iff _ fun _ _ => strictOf?_eq_some_iff).mpr rfl, chosen_text_iff.mpr rfl⟩

/-! ## Files -/

/-- The settings that a document gives. -/
inductive InDocument : Yaml.Document → Draft → Prop
  | missing : InDocument .missing .empty
  | blank {s : Yaml.Scalar} (text : s.text = "") (style : s.style = .plain) :
      InDocument (.single (.scalar s) true) .empty
  | mapping {entries : List Yaml.Entry} {d : Draft}
      (read : Draft.empty.addEntries entries = .ok d) :
      InDocument (.mapping entries true) d

/-- The settings that a file gives; without a file there are none. -/
inductive InFile (t : FileTree) : Option String → Draft → Prop
  | none : InFile t none .empty
  | file {path text : String} {d : Draft} (content : t.readText path = .ok text)
      (settings : InDocument (.ofText text) d) : InFile t (some path) d

theorem ofDocument_eq_ok {document : Yaml.Document} {c : Config}
    (h : ofDocument document = .ok c) : ∃ d : Draft, InDocument document d ∧ d.complete = c := by
  have hwhole : ∀ {whole : Bool} {value : Config}, checkWhole whole value = .ok c →
      whole = true ∧ value = c := by
    intro whole value hchecked
    cases whole with
    | false => cases hchecked
    | true => exact ⟨rfl, Except.ok.inj hchecked⟩
  cases document with
  | missing =>
      cases h
      exact ⟨_, .missing, rfl⟩
  | broken => cases h
  | single n whole =>
      cases n with
      | scalar s =>
          rw [ofDocument] at h
          split at h
          · rename_i hblank
            obtain ⟨rfl, rfl⟩ := hwhole h
            exact ⟨_, .blank hblank.1 hblank.2, rfl⟩
          · cases h
      | sequence tag => cases h
      | mapping flow tag => cases h
  | mapping entries whole =>
      obtain ⟨d, hd, hchecked⟩ := bind_eq_ok_iff.mp h
      obtain ⟨rfl, rfl⟩ := hwhole hchecked
      exact ⟨d, .mapping hd, rfl⟩

theorem FromFile.exists_draft {t : FileTree} {path : Option String} {base : Config}
    (h : FromFile t path base) : ∃ d : Draft, InFile t path d ∧ d.complete = base := by
  cases h with
  | none => exact ⟨_, .none, rfl⟩
  | file content settings =>
      obtain ⟨d, hd, hbase⟩ := ofDocument_eq_ok settings
      exact ⟨d, .file content hd, hbase⟩

/-! ## Checks -/

/-- The first problem of a configuration. -/
inductive FirstProblem (c : Config) : ConfigProblem → Prop
  | noQubits (none : c.qubits = some 0) : FirstProblem c .noQubits
  | emptyOutput (qubits : c.qubits ≠ some 0) (empty : c.output = "") : FirstProblem c .emptyOutput
  | emptyCircuit (qubits : c.qubits ≠ some 0) (output : c.output ≠ "") (empty : c.circuit = "") :
      FirstProblem c .emptyCircuit
  | unknownLogLevel (qubits : c.qubits ≠ some 0) (output : c.output ≠ "") (circuit : c.circuit ≠ "")
      (unknown : ∀ level : Level, c.logLevel ≠ level.name) :
      FirstProblem c (.unknownLogLevel c.logLevel)

/-- An invalid configuration is refused for its first problem. -/
theorem check_of_not_valid {c : Config} (h : ¬ c.Valid) :
    ∃ problem : ConfigProblem, c.FirstProblem problem ∧ c.check = .error (.invalid problem) := by
  have hcheck : ∀ {problem : ConfigProblem}, c.problem? = some problem →
      c.check = .error (.invalid problem) := by
    intro problem hproblem
    rw [check, hproblem]
  by_cases hqubits : c.qubits = some 0
  · exact ⟨_, .noQubits hqubits, hcheck (if_pos hqubits)⟩
  by_cases houtput : c.output = ""
  · refine ⟨_, .emptyOutput hqubits houtput, hcheck ?_⟩
    rw [problem?, if_neg hqubits, if_pos houtput]
  by_cases hcircuit : c.circuit = ""
  · refine ⟨_, .emptyCircuit hqubits houtput hcircuit, hcheck ?_⟩
    rw [problem?, if_neg hqubits, if_neg houtput, if_pos hcircuit]
  have hunknown : ∀ level : Level, c.logLevel ≠ level.name := by
    intro level hlevel
    exact h ⟨hqubits, houtput, hcircuit, level, hlevel⟩
  have hnone : (Level.ofName? c.logLevel).isNone = true := by
    by_contra hsome
    obtain ⟨level, hlevel⟩ := not_ofName?_isNone_iff.mp hsome
    exact hunknown level hlevel
  refine ⟨_, .unknownLogLevel hqubits houtput hcircuit hunknown, hcheck ?_⟩
  rw [problem?, if_neg hqubits, if_neg houtput, if_neg hcircuit, if_pos hnone]

theorem policy_eq_enforce_iff {c : Config} : c.policy = .enforce ↔ c.strict = true := by
  rw [policy]
  cases c.strict with
  | false => exact iff_of_false nofun nofun
  | true => exact iff_of_true rfl rfl

/-- The configuration of a run: what the file and the environment give, and then the command
line. -/
def configured (t : FileTree) (path : Option String) (env : Environment) (o : Overrides) :
    Except ConfigError Config :=
  ((load path env).runOn t).1.bind (·.withOverrides o)

theorem configured_eq {t : FileTree} {path : Option String} {base : Config}
    (h : ((readFile path).runOn t).1 = .ok base) (env : Environment) (o : Overrides) :
    configured t path env o =
      (base.withEnvironment env).check.bind fun m => (m.overlaid o).check := by
  rw [configured, load, Files.Script.runOn_bind, h]
  rfl

/-- What a run is configured with, for every file that can be read as settings, or none.  Let
`m` be the one configuration that takes each setting from the environment, the file or the
defaults.  If `m` is invalid, its first problem is the error.  Otherwise the command line
replaces what it gives, and may set `strict`; the result is returned exactly when it is
valid, and else its first problem is the error.  What is returned passes the check, and its
policy is to enforce exactly when it is strict. -/
theorem configured_layers {t : FileTree} {path : Option String} {base : Config}
    (hfile : ((readFile path).runOn t).1 = .ok base) (env : Environment) (o : Overrides) :
    ∃ (d : Draft) (m r : Config), InFile t path d ∧ (∀ m' : Config, Merged env d m' ↔ m' = m) ∧
      r = { circuit := o.circuit.getD m.circuit
            qubits := o.qubits.or m.qubits
            output := o.output.getD m.output
            protocol := o.protocol.getD m.protocol
            strict := m.strict || o.strict
            logLevel := m.logLevel } ∧
      (¬ m.Valid → ∃ problem : ConfigProblem, m.FirstProblem problem ∧
        configured t path env o = .error (.invalid problem)) ∧
      (m.Valid → ¬ r.Valid → ∃ problem : ConfigProblem, r.FirstProblem problem ∧
        configured t path env o = .error (.invalid problem)) ∧
      (m.Valid → (configured t path env o = .ok r ↔ r.Valid)) ∧
      ∀ c : Config, configured t path env o = .ok c →
        c = r ∧ c.check = .ok c ∧ (c.policy = .enforce ↔ r.strict = true) := by
  obtain ⟨d, hd, rfl⟩ := ((readFile_runOn t path).2 base).mp hfile |>.exists_draft
  have hconfigured := configured_eq hfile env o
  generalize hm : d.complete.withEnvironment env = m at hconfigured
  have hvalid : m.Valid → configured t path env o = (m.overlaid o).check := by
    intro hm
    rw [hconfigured, check_eq_ok_iff.mpr ⟨rfl, hm⟩]
    rfl
  refine ⟨d, m, m.overlaid o, hd, ?_, rfl, ?_, ?_, ?_, ?_⟩
  · intro m'
    rw [merged_iff, hm]
  · intro hinvalid
    obtain ⟨problem, hproblem, hcheck⟩ := check_of_not_valid hinvalid
    refine ⟨problem, hproblem, ?_⟩
    rw [hconfigured, hcheck]
    rfl
  · intro hm hinvalid
    rw [hvalid hm]
    exact check_of_not_valid hinvalid
  · intro hm
    rw [hvalid hm, check_eq_ok_iff, and_iff_right rfl]
  · intro c hc
    rw [hconfigured] at hc
    obtain ⟨m', hm', hcheck⟩ := bind_eq_ok_iff.mp hc
    obtain ⟨rfl, _⟩ := check_eq_ok_iff.mp hm'
    obtain ⟨rfl, hr⟩ := check_eq_ok_iff.mp hcheck
    exact ⟨rfl, check_eq_ok_iff.mpr ⟨rfl, hr⟩, policy_eq_enforce_iff⟩

/-- A file that asks for no qubits. -/
def layeredTree : FileTree :=
  FileTree.initial.add "klm.yaml" (.text "qubits: 0\nstrict: true\n")

/-- An environment with a number, a word in upper case and a protocol that does not exist. -/
def layeredEnvironment : Environment := fun name =>
  if name = "KLMC_QUBITS" then some "+3"
  else if name = "KLMC_STRICT" then some "OFF"
  else if name = "KLMC_PROTOCOL" then some "photon"
  else none

/-- Flags that name an output file, and a number of qubits or none. -/
def layeredFlags (qubits : Option UInt32) : Overrides := ⟨none, qubits, some "out.qa", none, true⟩

/-- The environment can mend what the file asks for, and the command line cannot. -/
theorem configured_layers_layeredTree :
    ((readFile (some "klm.yaml")).runOn layeredTree).1 =
        .ok ⟨"bell", some 0, "quantum.qa", .klm, true, "warn"⟩ ∧
      (∃ (d : Draft) (m c : Config), InFile layeredTree (some "klm.yaml") d ∧
        Merged layeredEnvironment d m ∧
        configured layeredTree (some "klm.yaml") layeredEnvironment (layeredFlags none) = .ok c ∧
        c = ⟨"bell", some 3, "out.qa", .klm, true, "warn"⟩ ∧ c.policy = .enforce) ∧
      ∃ (d : Draft) (m : Config), InFile layeredTree (some "klm.yaml") d ∧
        Merged (fun _ => none) d m ∧ m.FirstProblem .noQubits ∧
        configured layeredTree (some "klm.yaml") (fun _ => none) (layeredFlags (some 5)) =
          .error (.invalid .noQubits) := by
  have hfile : ((readFile (some "klm.yaml")).runOn layeredTree).1 =
      .ok ⟨"bell", some 0, "quantum.qa", .klm, true, "warn"⟩ := by
    with_unfolding_all rfl
  refine ⟨hfile, ?_, ?_⟩
  · have hconfigured : configured layeredTree (some "klm.yaml") layeredEnvironment
        (layeredFlags none) = .ok ⟨"bell", some 3, "out.qa", .klm, true, "warn"⟩ := by
      with_unfolding_all rfl
    obtain ⟨d, m, r, hd, hm, _, _, _, _, hreturned⟩ :=
      configured_layers hfile layeredEnvironment (layeredFlags none)
    obtain ⟨rfl, _, hpolicy⟩ := hreturned _ hconfigured
    exact ⟨d, m, _, hd, (hm m).mpr rfl, hconfigured, rfl, hpolicy.mpr rfl⟩
  · have hconfigured : configured layeredTree (some "klm.yaml") (fun _ => none)
        (layeredFlags (some 5)) = .error (.invalid .noQubits) := by
      with_unfolding_all rfl
    obtain ⟨d, m, r, hd, hm, hr, hinvalid, _, hvalid, _⟩ :=
      configured_layers hfile (fun _ => none) (layeredFlags (some 5))
    have hnot : ¬ m.Valid := by
      intro hm
      -- With five qubits and an output file, nothing would be wrong.
      have hqubits : some (5 : UInt32) ≠ some 0 := by decide
      have houtput : "out.qa" ≠ "" := by decide
      have hreturned := (hvalid hm).mpr (hr ▸ ⟨hqubits, houtput, hm.circuit, hm.logLevel⟩)
      rw [hconfigured] at hreturned
      cases hreturned
    obtain ⟨problem, hproblem, herror⟩ := hinvalid hnot
    rw [hconfigured] at herror
    cases herror
    exact ⟨d, m, hd, (hm m).mpr rfl, hproblem, hconfigured⟩

end Config

end DualRail
