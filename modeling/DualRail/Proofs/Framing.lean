/-
  Taking the frame off a program.

  The text of a program is made in two steps: its lines are written one below the
  other, and this text is cut at its line feeds and indented piece by piece, between
  a prologue and an epilogue.  Nothing is lost on the way.  Without the frame and the
  indent of each line, the lines of the first text remain, with an empty one after
  them, and those that are not empty are the components.
-/
import Mathlib.Data.List.Basic
import DualRail.Proofs.Rendering

set_option autoImplicit false

namespace DualRail

/-! ## Texts and their lines -/

namespace Text

/-- The pieces of a text between its line feeds; there is one piece more than there are
line feeds. -/
def pieces (t : String) : List String := (t.toList.splitOn '\n').map String.ofList

/-- The lines of a text, each of which is ended by a line feed. -/
def lines (t : String) : List String := (pieces t).dropLast

/-- What follows a given beginning, if the text begins with it. -/
def after? (beginning t : String) : Option String :=
  (t.toList.dropPrefix? beginning.toList).map String.ofList

/-- What comes before a given ending, if the text ends with it. -/
def before? (ending t : String) : Option String :=
  (t.toList.dropSuffix? ending.toList).map String.ofList

theorem after?_append (beginning t : String) : after? beginning (beginning ++ t) = some t := by
  have hdrop : (beginning.toList ++ t.toList).dropPrefix? beginning.toList = some t.toList :=
    List.dropPrefix?_append_of_beq _ (beq_self_eq_true _)
  rw [after?, String.toList_append, hdrop, Option.map_some, String.ofList_toList]

theorem before?_append (ending t : String) : before? ending (t ++ ending) = some t := by
  have hdrop : (t.toList ++ ending.toList).dropSuffix? ending.toList = some t.toList :=
    List.dropSuffix?_eq_some_iff.mpr ⟨_, rfl, beq_self_eq_true _⟩
  rw [before?, String.toList_append, hdrop, Option.map_some, String.ofList_toList]

/-- Each piece is cut off at the line feed that ends it. -/
theorem pieces_ended {line : String} (h : '\n' ∉ line.toList) (rest : String) :
    pieces (line ++ "\n" ++ rest) = line :: pieces rest := by
  have hlist : (line ++ "\n" ++ rest).toList = line.toList ++ '\n' :: rest.toList := by simp
  rw [pieces, hlist, List.splitOn_append_cons_self_of_not_mem h, List.map_cons,
    String.ofList_toList, pieces]

theorem pieces_join {ts : List String} (h : ∀ t ∈ ts, '\n' ∉ t.toList) :
    pieces (String.join (ts.map (· ++ "\n"))) = ts ++ [""] := by
  induction ts with
  | nil => rfl
  | cons t ts ih =>
      obtain ⟨ht, hts⟩ := List.forall_mem_cons.mp h
      rw [List.map_cons, String.join_cons, pieces_ended ht, ih hts, List.cons_append]

theorem lines_join {ts : List String} (h : ∀ t ∈ ts, '\n' ∉ t.toList) :
    lines (String.join (ts.map (· ++ "\n"))) = ts := by
  rw [lines, pieces_join h, List.dropLast_concat]

theorem mapM_after? (beginning : String) (ts : List String) :
    (ts.map (beginning ++ ·)).mapM (after? beginning) = some ts := by
  induction ts with
  | nil => rfl
  | cons t ts ih =>
      rw [List.map_cons, List.mapM_cons, after?_append, ih]
      rfl

end Text

/-! ## Programs -/

namespace Program

/-- The lines of a program text without the frame and without the indent of each line,
if the text has them. -/
def unframed? (text : String) : Option (List String) := do
  let rest ← Text.after? prologue text
  let framed ← Text.before? epilogue rest
  (Text.lines framed).mapM (Text.after? indent)

theorem newline_notMem_of_mem {ls : List Line} {t : String} (ht : t ∈ ls.map Line.text) :
    '\n' ∉ t.toList := by
  obtain ⟨l, _, rfl⟩ := List.mem_map.mp ht
  exact l.newline_notMem_text

theorem linesText_eq_join (ls : List Line) :
    linesText ls = String.join ((ls.map Line.text).map (· ++ "\n")) := by
  rw [linesText, List.map_map]
  rfl

theorem pieces_linesText (ls : List Line) :
    Text.pieces (linesText ls) = ls.map Line.text ++ [""] := by
  rw [linesText_eq_join, Text.pieces_join fun _ => newline_notMem_of_mem]

/-- Cutting the body at its line feeds gives the lines and an empty piece after the last
line feed. -/
theorem pieces_body (p : Program) :
    Text.pieces p.body = (p.lines ++ [Line.blank]).map Line.text := by
  rw [body, pieces_linesText, List.map_append]
  rfl

theorem linesText_append (ls ms : List Line) :
    linesText (ls ++ ms) = linesText ls ++ linesText ms := by
  rw [linesText, List.map_append, String.join_append, linesText, linesText]

/-- The body is written block by block, with an empty line after each. -/
theorem body_eq_join (p : Program) :
    p.body = String.join (p.operations.map fun b => b.text ++ "\n") := by
  rw [body, lines]
  induction p.operations with
  | nil => rfl
  | cons b rest ih =>
      rw [List.flatMap_cons, linesText_append, linesText_append, ih, List.map_cons,
        String.join_cons]
      rfl

/-- The text of a program is made from the body, which is cut at its line feeds. -/
theorem render_eq_indent_pieces (p : Program) :
    p.render = prologue ++
      String.join ((Text.pieces p.body).map fun t => indent ++ t ++ "\n") ++ epilogue := by
  rw [pieces_body, List.map_map, render]
  rfl

theorem newline_notMem_indent_append {ls : List Line} {t : String}
    (ht : t ∈ (ls.map Line.text).map (indent ++ ·)) : '\n' ∉ t.toList := by
  obtain ⟨u, hu, rfl⟩ := List.mem_map.mp ht
  have hindent : '\n' ∉ indent.toList := by decide
  rw [String.toList_append, List.mem_append, not_or]
  exact ⟨hindent, newline_notMem_of_mem hu⟩

theorem unframed?_render (p : Program) : unframed? p.render = some (Text.pieces p.body) := by
  have hframed : p.render = prologue ++
      (String.join (((Text.pieces p.body).map (indent ++ ·)).map (· ++ "\n")) ++ epilogue) := by
    rw [render_eq_indent_pieces, String.append_assoc, List.map_map]
    rfl
  have hlines : Text.lines (String.join (((Text.pieces p.body).map (indent ++ ·)).map
      (· ++ "\n"))) = (Text.pieces p.body).map (indent ++ ·) := by
    rw [pieces_body]
    exact Text.lines_join fun _ => newline_notMem_indent_append
  simp only [unframed?, hframed, Text.after?_append, Text.before?_append, hlines,
    Option.bind_eq_bind, Option.bind_some, Text.mapM_after?]

/-! ## Components -/

/-- The components of a program are those of its lines; the blank lines after the blocks
add none. -/
theorem components_eq_filterMap (p : Program) :
    p.components = p.lines.filterMap Line.component? := by
  rw [components, lines, List.filterMap_flatMap]
  congr 1
  funext b
  rw [List.filterMap_append]
  exact (List.append_nil _).symm

theorem filter_text_ne_empty (ls : List Line) :
    (ls.map Line.text).filter (· ≠ "") = (ls.filterMap Line.component?).map Component.text := by
  induction ls with
  | nil => rfl
  | cons l rest ih =>
      cases l with
      | component c =>
          have hkept : decide (Line.text (.component c) ≠ "") = true :=
            decide_eq_true c.text_ne_empty
          rw [List.map_cons, List.filter_cons, if_pos hkept, ih]
          rfl
      | blank => exact ih

/-- The text of a program is the prologue, the pieces of its body, each indented and ended,
and the epilogue.  Without frame and indent the lines of the body are left, and an empty
one after them.  Those that are not empty are the texts of the components in their order.
And whatever their blocks are, two programs are written alike exactly when they have the
same lines. -/
theorem render_faithful (p : Program) :
    p.body = String.join (p.operations.map fun b => b.text ++ "\n") ∧
      p.render = prologue ++
        String.join ((Text.pieces p.body).map fun t => indent ++ t ++ "\n") ++ epilogue ∧
      unframed? p.render = some (Text.lines p.body ++ [""]) ∧
      Text.lines p.body = p.lines.map Line.text ∧
      (Text.lines p.body ++ [""]).filter (· ≠ "") = p.components.map Component.text ∧
      ((Text.lines p.body ++ [""]).filter (· ≠ "")).length = p.componentCount ∧
      ∀ q : Program, p.render = q.render ↔ p.lines = q.lines := by
  have hlines : Text.lines p.body = p.lines.map Line.text := by
    rw [Text.lines, pieces_body, List.map_append]
    exact List.dropLast_concat
  have hpieces : Text.pieces p.body = Text.lines p.body ++ [""] := by
    rw [hlines, pieces_body, List.map_append]
    rfl
  have hcomponents : (Text.lines p.body ++ [""]).filter (· ≠ "") =
      p.components.map Component.text := by
    rw [List.filter_append, hlines, filter_text_ne_empty, ← components_eq_filterMap]
    exact List.append_nil _
  refine ⟨body_eq_join p, render_eq_indent_pieces p, ?_, hlines, hcomponents, ?_, ?_⟩
  · rw [unframed?_render, hpieces]
  · rw [hcomponents, List.length_map, componentCount]
  · intro q
    exact render_eq_iff

end Program

end DualRail
