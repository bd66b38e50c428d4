/-
  The text of a program determines its lines.

  A line is written without a line feed and every line is ended by one, so the
  text of a program falls apart into the texts of its lines.  Inside a line the
  part ends at the first parenthesis, a port at a comma or a closing parenthesis,
  and a rail is written in decimal; hence the text of a line determines the line.
  Together, two programs have the same text exactly when they have the same lines
  (`Program.render_eq_iff`), whatever their blocks are.
-/
import DualRail.Optics.Program

set_option autoImplicit false

namespace DualRail

/-- Two texts that are cut at their first separator have equal pieces. -/
theorem cut_at_separator {sep : Char} :
    ∀ {a b x y : List Char}, sep ∉ a → sep ∉ b → a ++ sep :: x = b ++ sep :: y →
      a = b ∧ x = y := by
  intro a
  induction a with
  | nil =>
      intro b x y _ hb h
      cases b with
      | nil => exact ⟨rfl, (List.cons.inj h).2⟩
      | cons d b => exact absurd (List.mem_cons.mpr (.inl (List.cons.inj h).1)) hb
  | cons c a ih =>
      intro b x y ha hb h
      cases b with
      | nil => exact absurd (List.mem_cons.mpr (.inl (List.cons.inj h).1.symm)) ha
      | cons d b =>
          obtain ⟨hcd, hrest⟩ := List.cons.inj h
          obtain ⟨hab, hxy⟩ := ih (List.not_mem_of_not_mem_cons ha)
            (List.not_mem_of_not_mem_cons hb) hrest
          exact ⟨by rw [hcd, hab], hxy⟩

/-! ## Ports -/

namespace Port

/-- A port is written with digits, or as `~`. -/
theorem isDigit_or_eq_of_mem_text {p : Port} {c : Char} (h : c ∈ p.text.toList) :
    c.isDigit = true ∨ c = '~' := by
  cases p with
  | rail index =>
      left
      rw [text, Nat.toList_repr] at h
      exact Nat.isDigit_of_mem_toDigits (by decide) (by decide) h
  | vacuum =>
      right
      simpa [text] using h

theorem notMem_text (p : Port) {c : Char} (hdigit : c.isDigit = false) (htilde : c ≠ '~') :
    c ∉ p.text.toList := by
  intro hmem
  rcases isDigit_or_eq_of_mem_text hmem with h | h
  · rw [hdigit] at h
    exact absurd h (by decide)
  · exact htilde h

theorem comma_notMem_text (p : Port) : ',' ∉ p.text.toList :=
  p.notMem_text rfl (by simp)

theorem parenthesis_notMem_text (p : Port) : ')' ∉ p.text.toList :=
  p.notMem_text rfl (by simp)

theorem newline_notMem_text (p : Port) : '\n' ∉ p.text.toList :=
  p.notMem_text rfl (by simp)

/-- A rail is never written as the vacuum. -/
theorem text_rail_ne_text_vacuum (index : UInt64) : (rail index).text ≠ vacuum.text := by
  intro h
  have hmem : '~' ∈ (rail index).text.toList := by
    rw [h]
    decide
  rw [text, Nat.toList_repr] at hmem
  exact absurd (Nat.isDigit_of_mem_toDigits (by decide) (by decide) hmem) (by decide)

theorem text_injective {p q : Port} (h : p.text = q.text) : p = q := by
  cases p with
  | rail a =>
      cases q with
      | rail b =>
          -- Reading the digits back gives the numbers of both rails.
          have hdigits : Nat.toDigits 10 a.toNat = Nat.toDigits 10 b.toNat := by
            rw [← Nat.toList_repr, ← Nat.toList_repr]
            exact congrArg String.toList h
          have hnumbers := congrArg (Nat.ofDigitChars 10 · 0) hdigits
          simp only [Nat.ofDigitChars_ten_toDigits] at hnumbers
          rw [UInt64.toNat_inj.mp hnumbers]
      | vacuum => exact absurd h (text_rail_ne_text_vacuum a)
  | vacuum =>
      cases q with
      | rail b => exact absurd h.symm (text_rail_ne_text_vacuum b)
      | vacuum => rfl

end Port

namespace PortPair

theorem text_toList (p : PortPair) :
    p.text.toList = '(' :: (p.first.text.toList ++ ',' :: (p.second.text.toList ++ [')'])) := by
  simp [text]

/-- A pair of ports ends where its parenthesis is closed. -/
theorem text_append_inj {p q : PortPair} {x y : List Char}
    (h : p.text.toList ++ x = q.text.toList ++ y) : p = q ∧ x = y := by
  simp only [text_toList, List.cons_append, List.append_assoc, List.nil_append] at h
  obtain ⟨hfirst, hrest⟩ := cut_at_separator p.first.comma_notMem_text q.first.comma_notMem_text
    (List.cons.inj h).2
  obtain ⟨hsecond, hxy⟩ := cut_at_separator p.second.parenthesis_notMem_text
    q.second.parenthesis_notMem_text hrest
  refine ⟨?_, hxy⟩
  cases p
  cases q
  rw [mk.injEq]
  exact ⟨Port.text_injective (String.toList_inj.mp hfirst),
    Port.text_injective (String.toList_inj.mp hsecond)⟩

theorem newline_notMem_text (p : PortPair) : '\n' ∉ p.text.toList := by
  rw [text_toList]
  simp [p.first.newline_notMem_text, p.second.newline_notMem_text]

end PortPair

/-! ## Components and lines -/

namespace Part

theorem find?_template (p : Part) : all.find? (·.template == p.template) = some p := by
  cases p <;> decide

theorem template_injective {p q : Part} (h : p.template = q.template) : p = q := by
  have hp := find?_template p
  rw [h, find?_template q] at hp
  exact (Option.some.inj hp).symm

theorem parenthesis_notMem_template (p : Part) : '(' ∉ p.template.toList := by
  cases p <;> decide

theorem newline_notMem_template (p : Part) : '\n' ∉ p.template.toList := by
  cases p <;> decide

end Part

namespace Component

theorem text_toList (c : Component) :
    c.text.toList =
      c.part.template.toList ++ ' ' :: (c.input.text.toList ++ ' ' :: c.output.text.toList) := by
  simp [text]

/-- The part, and with it the start of the ports, is what stands before the first
parenthesis. -/
theorem part_of_text_eq {c d : Component} (h : c.text = d.text) :
    c.part = d.part ∧
      c.input.text.toList ++ ' ' :: c.output.text.toList =
        d.input.text.toList ++ ' ' :: d.output.text.toList := by
  have hlist := congrArg String.toList h
  rw [text_toList, text_toList, PortPair.text_toList c.input, PortPair.text_toList d.input] at hlist
  simp only [List.cons_append] at hlist
  rw [List.append_cons c.part.template.toList, List.append_cons d.part.template.toList] at hlist
  have hspace : ∀ p : Part, '(' ∉ p.template.toList ++ [' '] := by
    intro p
    simp [p.parenthesis_notMem_template]
  obtain ⟨htemplate, hports⟩ := cut_at_separator (hspace _) (hspace _) hlist
  refine ⟨Part.template_injective (String.toList_inj.mp (List.append_cancel_right htemplate)), ?_⟩
  rw [PortPair.text_toList c.input, PortPair.text_toList d.input]
  simp only [List.cons_append]
  rw [hports]

theorem text_injective {c d : Component} (h : c.text = d.text) : c = d := by
  obtain ⟨hpart, hports⟩ := part_of_text_eq h
  obtain ⟨hinput, hrest⟩ := PortPair.text_append_inj hports
  have hend : c.output.text.toList ++ [] = d.output.text.toList ++ [] := by
    rw [(List.cons.inj hrest).2]
  obtain ⟨houtput, _⟩ := PortPair.text_append_inj hend
  cases c
  cases d
  rw [mk.injEq]
  exact ⟨hpart, hinput, houtput⟩

theorem text_ne_empty (c : Component) : c.text ≠ "" := by
  intro h
  have hlist := congrArg String.toList h
  rw [text_toList] at hlist
  simp at hlist

theorem newline_notMem_text (c : Component) : '\n' ∉ c.text.toList := by
  rw [text_toList]
  simp [c.part.newline_notMem_template, c.input.newline_notMem_text,
    c.output.newline_notMem_text]

end Component

namespace Line

theorem text_injective {l m : Line} (h : l.text = m.text) : l = m := by
  cases l with
  | component c =>
      cases m with
      | component d => rw [Component.text_injective h]
      | blank => exact absurd h c.text_ne_empty
  | blank =>
      cases m with
      | component d => exact absurd h.symm d.text_ne_empty
      | blank => rfl

theorem newline_notMem_text (l : Line) : '\n' ∉ l.text.toList := by
  cases l with
  | component c => exact c.newline_notMem_text
  | blank => exact List.not_mem_nil

end Line

/-! ## Programs -/

namespace Program

theorem indented_toList (l : Line) :
    (indented l).toList = indent.toList ++ (l.text.toList ++ ['\n']) := by
  simp [indented]

/-- A text of indented lines falls apart into its lines. -/
theorem indentedLines_injective :
    ∀ {ls ms : List Line},
      ls.flatMap (fun l => (indented l).toList) = ms.flatMap (fun l => (indented l).toList) →
      ls = ms := by
  intro ls
  induction ls with
  | nil =>
      intro ms h
      cases ms with
      | nil => rfl
      | cons m ms => simp [indented_toList] at h
  | cons l ls ih =>
      intro ms h
      cases ms with
      | nil => simp [indented_toList] at h
      | cons m ms =>
          simp only [List.flatMap_cons, indented_toList, List.append_assoc, List.cons_append,
            List.nil_append] at h
          have hcut := List.append_cancel_left h
          obtain ⟨htext, hrest⟩ :=
            cut_at_separator l.newline_notMem_text m.newline_notMem_text hcut
          have hline : l = m := Line.text_injective (String.toList_inj.mp htext)
          have hlines : ls = ms := ih (by simpa only [indented_toList] using hrest)
          rw [hline, hlines]

theorem render_toList (p : Program) :
    p.render.toList =
      prologue.toList ++
        ((p.lines ++ [Line.blank]).flatMap (fun l => (indented l).toList) ++ epilogue.toList) := by
  simp [render, String.toList_join, List.flatMap_map]

/-- Programs are written alike exactly when they have the same lines. -/
theorem render_eq_iff {p q : Program} : p.render = q.render ↔ p.lines = q.lines := by
  constructor
  · intro h
    have hlist := congrArg String.toList h
    rw [render_toList, render_toList] at hlist
    have hbody := List.append_cancel_right (List.append_cancel_left hlist)
    exact List.append_cancel_right (indentedLines_injective hbody)
  · intro h
    unfold render
    rw [h]

end Program

end DualRail
