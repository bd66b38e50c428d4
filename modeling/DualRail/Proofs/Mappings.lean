/-
  Reading block mappings.

  A text with a row in every line is the document of a mapping with an entry for every row,
  in the same order (`Yaml.Document.ofRows`).  If one of the keys is too long, the document is
  that of the rows before it and broken from there on (`Yaml.Document.ofRows_longKey`).
-/
import DualRail.Proofs.Scanning
import DualRail.Yaml.Node

set_option autoImplicit false

namespace DualRail.Yaml

/-! ## Ordinary texts -/

/-- Text that needs no preparation: printable characters and line feeds. -/
def IsOrdinary (text : List Char) : Prop := ∀ c ∈ text, c = '\n' ∨ isPrintable c = true

theorem isAllowed_of_isPrintable {c : Char} (h : isPrintable c = true) : isAllowed c = true := by
  simp only [isPrintable, Bool.and_eq_true, decide_eq_true_eq] at h
  simp [isAllowed, h]

theorem unifyBreaks_of_isOrdinary {text : List Char} (h : IsOrdinary text) :
    unifyBreaks text = text := by
  fun_induction unifyBreaks text with
  | case1 => rfl
  | case2 rest ih =>
      rcases h '\r' List.mem_cons_self with h | h <;> cases h
  | case3 c rest hc ih =>
      obtain ⟨hfirst, hrest⟩ := List.forall_mem_cons.mp h
      have hkept : ¬ (c = '\r' ∨ c = '\u0085') := by
        rintro (rfl | rfl)
        · rcases hfirst with hfirst | hfirst <;> cases hfirst
        · rcases hfirst with hfirst | hfirst <;> cases hfirst
      rw [if_neg hkept, ih hrest]

theorem tokens_of_isOrdinary {text : List Char} (h : IsOrdinary text) :
    tokens text = (Scanner.start text).run (text.length + 1) := by
  have hallowed : text.all isAllowed = true := by
    rw [List.all_eq_true]
    intro c hc
    rcases h c hc with rfl | hprintable
    · decide
    · exact isAllowed_of_isPrintable hprintable
  rw [tokens, if_pos hallowed, unifyBreaks_of_isOrdinary h]

/-! ## The text of rows -/

theorem mem_of_mem_doubled {c : Char} {text : List Char} (h : c ∈ doubled text) : c ∈ text := by
  induction text with
  | nil => exact h
  | cons d text ih =>
      rw [doubled] at h
      split at h
      · rename_i hd
        simp only [List.mem_cons] at h ⊢
        rcases h with h | h | h
        · exact .inl (h.trans hd.symm)
        · exact .inl (h.trans hd.symm)
        · exact .inr (ih h)
      · rcases List.mem_cons.mp h with h | h
        · exact h ▸ List.mem_cons_self
        · exact List.mem_cons_of_mem d (ih h)

theorem Written.Legible.isPrintable {value : Written} (h : value.Legible) {c : Char}
    (hc : c ∈ value.chars) : isPrintable c = true := by
  cases value with
  | plain name => exact isPrintable_of_isNameChar (h.2 c hc)
  | quoted text =>
      simp only [chars, List.mem_cons, List.mem_append, List.not_mem_nil, or_false] at hc
      rcases hc with rfl | hc | rfl
      · rfl
      · exact h c (mem_of_mem_doubled hc)
      · rfl

namespace Row

theorem WellFormed.isPrintable {r : Row} (h : r.WellFormed) {c : Char} (hc : c ∈ r.line) :
    isPrintable c = true := by
  simp only [line, List.mem_append, List.mem_cons] at hc
  rcases hc with hc | rfl | rfl | hc
  · exact isPrintable_of_isNameChar (h.name.2 c hc)
  · rfl
  · rfl
  · exact h.value.isPrintable hc

theorem WellFormed.length_line {r : Row} (h : r.WellFormed) : 3 ≤ r.line.length := by
  have hname : 0 < r.key.length := List.length_pos_iff.mpr h.name.1
  simp only [line, List.length_append, List.length_cons]
  omega

/-- A text with a row in every line, and what comes after the last of them. -/
def text (rows : List Row) (rest : List Char) : List Char :=
  match rows with
  | [] => rest
  | r :: rows => r.line ++ following rows rest

theorem following_append (rows others : List Row) (rest : List Char) :
    following (rows ++ others) rest = following rows (following others rest) := by
  induction rows with
  | nil => rfl
  | cons r rows ih => simp [following, ih]

section Texts

variable {rows : List Row} (hrows : ∀ r ∈ rows, r.WellFormed) (rest : List Char)
include hrows

theorem isOrdinary_following {rest : List Char} (hrest : IsOrdinary rest) :
    IsOrdinary (following rows rest) := by
  induction rows with
  | nil => exact hrest
  | cons r rows ih =>
      obtain ⟨hrow, hothers⟩ := List.forall_mem_cons.mp hrows
      intro c hc
      rw [following, List.mem_cons, List.mem_append] at hc
      rcases hc with hc | hc | hc
      · exact .inl hc
      · exact .inr (hrow.isPrintable hc)
      · exact ih hothers c hc

theorem isOrdinary_text {rest : List Char} (hrest : IsOrdinary rest) :
    IsOrdinary (text rows rest) := by
  cases rows with
  | nil => exact hrest
  | cons r rows =>
      obtain ⟨hrow, hothers⟩ := List.forall_mem_cons.mp hrows
      intro c hc
      rcases List.mem_append.mp hc with hc | hc
      · exact .inr (hrow.isPrintable hc)
      · exact isOrdinary_following hothers hrest c hc

theorem length_following : 3 * rows.length ≤ (following rows rest).length := by
  induction rows with
  | nil => simp
  | cons r rows ih =>
      obtain ⟨hrow, hothers⟩ := List.forall_mem_cons.mp hrows
      have hline := hrow.length_line
      have hrest := ih hothers
      simp only [following, List.length_cons, List.length_append]
      omega

/-- Every row has characters enough for the steps that read it. -/
theorem length_text : 3 * rows.length ≤ (text rows rest).length := by
  cases rows with
  | nil => simp
  | cons r rows =>
      obtain ⟨hrow, hothers⟩ := List.forall_mem_cons.mp hrows
      have hline := hrow.length_line
      have hrest := length_following hothers rest
      simp only [text, List.length_cons, List.length_append]
      omega

end Texts

end Row

theorem isOrdinary_of_ends {rest : List Char} (h : rest = [] ∨ rest = ['\n']) :
    IsOrdinary rest := by
  rcases h with rfl | rfl <;> simp [IsOrdinary]

/-! ## The tokens of rows -/

section Tokens

variable {rest : List Char} (hrest : rest = [] ∨ rest = ['\n'])
include hrest

theorem tokens_rows {rows : List Row} (hrows : ∀ r ∈ rows, r.Legible) (hne : rows ≠ []) :
    tokens (Row.text rows rest) =
      .blockMappingStart :: (rows.flatMap Row.tokens ++ [.blockEnd, .streamEnd]) := by
  obtain ⟨r, rows, rfl⟩ := List.exists_cons_of_ne_nil hne
  have hformed : ∀ r' ∈ r :: rows, r'.WellFormed := fun r' hr' => (hrows r' hr').toWellFormed
  have hends : EndsRow rest := hrest.elim .inl fun h => .inr (.inl h)
  obtain ⟨next, hnext, htokens, hrun⟩ := Scanner.start_run hrows hends
  rw [tokens_of_isOrdinary (Row.isOrdinary_text hformed (isOrdinary_of_ends hrest))]
  obtain ⟨spare, hspare⟩ := Nat.exists_eq_add_of_le (Row.length_text hformed rest)
  have hfuel : (Row.text (r :: rows) rest).length + 1 = spare + 1 + 3 * (r :: rows).length := by
    omega
  rw [hfuel, Row.text, hrun, hnext.run_end hrest, htokens]
  rfl

/-- The token before the colon is the last, if a key is too long. -/
theorem tokens_longKey {before after : List Row} {r : Row} (hbefore : ∀ b ∈ before, b.Legible)
    (hafter : ∀ a ∈ after, a.WellFormed) (hrow : r.WellFormed)
    (hlong : Scanner.maxKeyLength < r.key.length) :
    tokens (Row.text (before ++ r :: after) rest) =
      if before = [] then [.scalar (String.ofList r.key) .plain]
      else .blockMappingStart :: before.flatMap Row.tokens := by
  have hformed : ∀ r' ∈ before ++ r :: after, r'.WellFormed := by
    intro r' hr'
    rcases List.mem_append.mp hr' with hr' | hr'
    · exact (hbefore r' hr').toWellFormed
    · exact List.forall_mem_cons.mpr ⟨hrow, hafter⟩ r' hr'
  have hlength := Row.length_text hformed rest
  rw [List.length_append, List.length_cons] at hlength
  rw [tokens_of_isOrdinary (Row.isOrdinary_text hformed (isOrdinary_of_ends hrest))]
  have hline : ∀ more : List Char,
      r.line ++ more = r.key ++ ':' :: ' ' :: (r.value.chars ++ more) := by
    simp [Row.line]
  cases before with
  | nil =>
      -- One step reads the name, and the next one fails at the colon.
      obtain ⟨spare, hspare⟩ := Nat.exists_eq_add_of_le hlength
      have hfuel : (Row.text ([] ++ r :: after) rest).length + 1 =
          spare + 2 + 3 * after.length + 2 := by
        simp only [List.length_nil] at hspare
        omega
      rw [if_pos rfl, hfuel, List.nil_append, Row.text, hline,
        Scanner.start_run_longKey hrow.name hlong]
  | cons b before =>
      -- In an open block even the name cannot be read.
      obtain ⟨c, more, hfirst, hc⟩ := hrow.line_append (Row.following after rest)
      have hends : EndsRow ('\n' :: (r.line ++ Row.following after rest)) :=
        .inr (.inr ⟨c, more, congrArg ('\n' :: ·) hfirst, hc⟩)
      obtain ⟨next, hnext, htokens, hrun⟩ := Scanner.start_run hbefore hends
      obtain ⟨spare, hspare⟩ := Nat.exists_eq_add_of_le hlength
      have hfuel : (Row.text (b :: before ++ r :: after) rest).length + 1 =
          spare + 3 + 3 * after.length + 1 + 3 * (b :: before).length := by
        omega
      rw [if_neg (List.cons_ne_nil b before), hfuel, List.cons_append, Row.text,
        Row.following_append, Row.following, hrun]
      rw [hline] at hnext
      rw [hnext.run_longKey hrow.name hlong, htokens]

end Tokens

/-! ## Documents -/

namespace Row

/-- The pair of a row. -/
def pair (r : Row) : Pair :=
  ⟨.node (.scalar ⟨String.ofList r.key, .plain, none⟩),
    some (.node (.scalar ⟨String.ofList r.value.text, r.value.style, none⟩))⟩

/-- The entry of a row. -/
def entry (r : Row) : Entry :=
  ⟨.scalar ⟨String.ofList r.key, .plain, none⟩, false,
    some (.scalar ⟨String.ofList r.value.text, r.value.style, none⟩)⟩

end Row

theorem takeBlockPair_row (scope : Scope) (r : Row) (rest : List Token) :
    takeBlockPair scope (r.tokens ++ rest) = .pair r.pair scope (some rest) := rfl

/-- The tokens of every row are taken as a pair. -/
theorem takePairs_rows {scope : Scope} {rest : List Token} {after : Option (List Token)}
    {fuel : Nat} (hrest : ∀ first, takePairs false fuel first scope rest = ⟨[], scope, after⟩)
    (rows : List Row) :
    ∀ first, takePairs false (fuel + rows.length) first scope
      (rows.flatMap Row.tokens ++ rest) = ⟨rows.map Row.pair, scope, after⟩ := by
  induction rows with
  | nil => exact hrest
  | cons r rows ih =>
      intro first
      rw [List.flatMap_cons, List.append_assoc, List.length_cons, ← Nat.add_assoc, takePairs,
        if_neg Bool.false_ne_true, takeBlockPair_row]
      dsimp only
      rw [ih false]
      rfl

theorem length_flatMap_tokens (rows : List Row) :
    (rows.flatMap Row.tokens).length = 4 * rows.length := by
  induction rows with
  | nil => rfl
  | cons r rows ih =>
      rw [List.flatMap_cons, List.length_append, ih, List.length_cons]
      show 4 + 4 * rows.length = _
      omega

namespace Document

/-- The document of rows in a block.  What is left after them decides whether it is whole. -/
theorem ofTokens_rows (rows : List Row) {rest : List Token} {after : Option (List Token)}
    (hrest : ∀ fuel first scope,
      takePairs false (fuel + 1) first scope rest = ⟨[], scope, after⟩) :
    Document.ofTokens (.blockMappingStart :: (rows.flatMap Row.tokens ++ rest)) =
      .mapping (rows.map Row.entry) (after.any endsStream) := by
  have hfuel : (rows.flatMap Row.tokens ++ rest).length + 1 =
      3 * rows.length + rest.length + 1 + rows.length := by
    rw [List.length_append, length_flatMap_tokens]
    omega
  have hroot : ∀ scope : Scope,
      takeRoot scope (.blockMappingStart :: (rows.flatMap Row.tokens ++ rest)) =
        MappingRead.document
          (takePairs false ((rows.flatMap Row.tokens ++ rest).length + 1) true scope
            (rows.flatMap Row.tokens ++ rest))
          ((takePairs false ((rows.flatMap Row.tokens ++ rest).length + 1) true scope
            (rows.flatMap Row.tokens ++ rest)).after.any endsStream) :=
    fun _ => rfl
  have hstart : Document.ofTokens (.blockMappingStart :: (rows.flatMap Row.tokens ++ rest)) =
      takeRoot (.ofHandles []) (.blockMappingStart :: (rows.flatMap Row.tokens ++ rest)) :=
    if_pos rfl
  rw [hstart, hroot, hfuel, takePairs_rows (fun first => hrest _ first _) rows true,
    MappingRead.document, List.map_map]
  rfl

section Texts

variable {rest : List Char} (hrest : rest = [] ∨ rest = ['\n'])
include hrest

theorem ofNoRows : Document.ofTokens (tokens (Row.text [] rest)) = .missing := by
  rcases hrest with rfl | rfl
  · rfl
  · rfl

theorem ofRows {rows : List Row} (hrows : ∀ r ∈ rows, r.Legible) (hne : rows ≠ []) :
    Document.ofTokens (tokens (Row.text rows rest)) = .mapping (rows.map Row.entry) true := by
  have hclosed : ∀ fuel first scope, takePairs false (fuel + 1) first scope
      [.blockEnd, .streamEnd] = ⟨[], scope, some [.streamEnd]⟩ := fun _ _ _ => rfl
  rw [tokens_rows hrest hrows hne, ofTokens_rows rows hclosed]
  rfl

/-- A key that is too long is a text of its own, or the end of the mapping before it; either
way the document is not whole. -/
theorem ofRows_longKey {before after : List Row} {r : Row} (hbefore : ∀ b ∈ before, b.Legible)
    (hafter : ∀ a ∈ after, a.WellFormed) (hrow : r.WellFormed)
    (hlong : Scanner.maxKeyLength < r.key.length) :
    Document.ofTokens (tokens (Row.text (before ++ r :: after) rest)) =
      if before = [] then .single (.scalar ⟨String.ofList r.key, .plain, none⟩) false
      else .mapping (before.map Row.entry) false := by
  rw [tokens_longKey hrest hbefore hafter hrow hlong]
  by_cases hne : before = []
  · rw [if_pos hne, if_pos hne]
    rfl
  · have hbroken : ∀ fuel first scope, takePairs false (fuel + 1) first scope [] =
        ⟨[], scope, none⟩ := fun _ _ _ => rfl
    have hrows := ofTokens_rows before hbroken
    rw [List.append_nil] at hrows
    rw [if_neg hne, if_neg hne, hrows]
    rfl

end Texts

end Document

end DualRail.Yaml
