import Restyle.Proofs.Component.Synthesis
import Restyle.Proofs.Script.Template
import Restyle.Sheet.Load
/-!
Definitions of components as scripts. The style of a component stands in its definition as the text of
a template literal, just as it was in the stylesheet.
-/

namespace Restyle

open Script.Template (isPlain isPlain_append read? read?_eq_iff units mark)

namespace Sheet.ResolvedStyle

def isPlainText (s : String) : Bool := isPlain s.toList

/-- Whether all that a group of declarations is written with is plain: the headers of its blocks, the
properties and the values. -/
def isPlainGroup (g : Context × Declarations) : Bool :=
  g.1.blockHeaders.all isPlainText && g.2.all fun d => isPlainText d.1 && isPlainText d.2

theorem isPlainText_append {a b : String} (start : b.toList.head? ≠ some '\x7b') :
    isPlainText (a ++ b) = (isPlainText a && isPlainText b) := by
  unfold isPlainText
  rw [String.toList_append]
  exact isPlain_append fun _ => start

/-- A text that begins no substitution at its end. -/
def Closed (s : String) : Prop := s.toList.getLast? ≠ some '$'

instance (s : String) : Decidable (Closed s) := inferInstanceAs (Decidable (_ ≠ _))

theorem isPlainText_append_of_closed {a : String} (closed : Closed a) (b : String) :
    isPlainText (a ++ b) = (isPlainText a && isPlainText b) := by
  unfold isPlainText
  rw [String.toList_append]
  exact isPlain_append fun last => absurd last closed

theorem Closed.append {a b : String} (ha : Closed a) (hb : Closed b) : Closed (a ++ b) := by
  unfold Closed at ha hb ⊢
  rw [String.toList_append, List.getLast?_append]
  cases last : b.toList.getLast? with
  | none => exact ha
  | some c =>
      rw [last] at hb
      exact hb

theorem Closed.join {texts : List String} (h : ∀ text ∈ texts, Closed text) :
    Closed (String.join texts) := by
  induction texts with
  | nil => exact fun last => by cases last
  | cons text texts ih =>
      rw [String.join_cons]
      exact (h text List.mem_cons_self).append
        (ih fun other member => h other (List.mem_cons_of_mem text member))

theorem isPlainText_join {texts : List String} (closed : ∀ text ∈ texts, Closed text) :
    isPlainText (String.join texts) = texts.all isPlainText := by
  induction texts with
  | nil => rfl
  | cons text texts ih =>
      rw [String.join_cons, isPlainText_append_of_closed (closed text List.mem_cons_self),
        ih fun other member => closed other (List.mem_cons_of_mem text member), List.all_cons]

theorem isPlainText_indent (depth : Nat) (text : String) :
    isPlainText (String.join (List.replicate depth "  ") ++ text) = isPlainText text := by
  induction depth with
  | zero => rw [List.replicate_zero, String.join_nil, String.empty_append]
  | succ depth ih =>
      rw [List.replicate_succ, String.join_cons, String.append_assoc,
        isPlainText_append_of_closed (by decide), ih]
      rfl

theorem isPlainText_line (depth : Nat) (text : String) :
    isPlainText (line depth text) = isPlainText text := by
  rw [line, String.append_assoc, isPlainText_indent, isPlainText_append (by decide)]
  exact Bool.and_true _

theorem isPlainText_declaration (property value : String) :
    isPlainText (property ++ ": " ++ value ++ ";") = (isPlainText property && isPlainText value) := by
  rw [isPlainText_append (by decide), String.append_assoc, isPlainText_append,
    isPlainText_append_of_closed (by decide)]
  · change (isPlainText property && (true && isPlainText value) && true) = _
    rw [Bool.true_and, Bool.and_true]
  · rw [String.toList_append]
    exact fun brace => absurd brace (by simp)

theorem closed_line (depth : Nat) (text : String) : Closed (line depth text) := by
  unfold Closed
  rw [line, String.toList_append, List.getLast?_append]
  intro last
  cases last

theorem closed_nest (ds : Declarations) (depth : Nat) (headers : List String) :
    Closed (nest ds depth headers) := by
  cases headers with
  | nil =>
      apply Closed.join
      intro text member
      obtain ⟨d, -, rfl⟩ := List.mem_map.mp member
      exact closed_line _ _
  | cons h headers => exact ((closed_line _ _).append (closed_nest ds _ headers)).append (closed_line _ _)

theorem isPlainText_nest (ds : Declarations) (depth : Nat) (headers : List String) :
    isPlainText (nest ds depth headers)
      = (headers.all isPlainText && ds.all fun d => isPlainText d.1 && isPlainText d.2) := by
  induction headers generalizing depth with
  | nil =>
      rw [nest, isPlainText_join]
      · simp [List.all_map, Function.comp_def, isPlainText_line, isPlainText_declaration]
      · intro text member
        obtain ⟨d, -, rfl⟩ := List.mem_map.mp member
        exact closed_line _ _
  | cons h headers ih =>
      have opening := closed_line depth (h ++ " \x7b")
      have header : isPlainText (h ++ " \x7b") = isPlainText h := by
        rw [isPlainText_append (by decide)]
        exact Bool.and_true _
      rw [nest, isPlainText_append_of_closed (opening.append (closed_nest ds _ headers)),
        isPlainText_append_of_closed opening, ih, isPlainText_line, isPlainText_line, header]
      have closing : isPlainText "\x7d" = true := rfl
      rw [closing, Bool.and_true, List.all_cons, Bool.and_assoc]

theorem isPlainText_toCss (s : ResolvedStyle) :
    isPlainText s.toCss = s.groups.all isPlainGroup := by
  rw [toCss, isPlainText_join]
  · simp only [List.all_map, Function.comp_def, isPlainText_nest]
    rfl
  · intro text member
    obtain ⟨g, -, rfl⟩ := List.mem_map.mp member
    exact closed_nest _ _ _

end Sheet.ResolvedStyle

namespace Component

open Markup (Element)
open Sheet (StyleTable ResolvedStyle)

def Styled.template (c : Styled) : String := "`\n" ++ c.css ++ "`\n"

/-- The style that the class text of a component stands for. -/
def styleOf (t : StyleTable) (classNames : String) : ResolvedStyle :=
  .resolve t ((Text.words classNames.toList).map String.ofList)

theorem Styled.definition_eq (c : Styled) :
    c.definition = "export const " ++ c.name ++ " = " ++ c.constructor ++ c.template := by
  unfold definition template
  generalize "`\n" = text
  rw [← String.append_assoc, ← String.append_assoc]

theorem Styled.toList_template (c : Styled) :
    c.template.toList = mark :: ('\n' :: c.css.toList) ++ mark :: ['\n'] := by
  rw [template, String.toList_append, String.toList_append]
  rfl

theorem css_of_mem_synthesizeAll {s : Synthesizer} {calls : List (Path × List Element)}
    {c : Styled} (made : c ∈ s.synthesizeAll calls) :
    c.css = (styleOf s.table c.classNames).toCss := by
  obtain ⟨file, n, e, rfl⟩ := mem_synthesizeAll made
  rfl

/-- The definition of a component that was made ends in a template literal without substitutions that
stands for a new line and the style of the component, if and only if nothing that the style is
written with has a backslash, a carriage return, a mark of a template or the beginning of a
substitution: no header of a block, no property and no value. Nothing is escaped. -/
theorem definition_read_iff (s : Synthesizer) {calls : List (Path × List Element)} {c : Styled}
    (made : c ∈ s.synthesizeAll calls) :
    c.definition = "export const " ++ c.name ++ " = " ++ c.constructor ++ c.template ∧
      (read? c.template.toList = some (some (units ('\n' :: c.css.toList)), ['\n']) ↔
        (styleOf s.table c.classNames).groups.all ResolvedStyle.isPlainGroup = true) := by
  refine ⟨c.definition_eq, ?_⟩
  have newline : isPlain ('\n' :: c.css.toList) = ResolvedStyle.isPlainText c.css := rfl
  rw [c.toList_template, read?_eq_iff, newline, css_of_mem_synthesizeAll made,
    ResolvedStyle.isPlainText_toCss]

/-- A class that stands for a color, and one for a quotation mark that the sheet has as an escape. -/
def marksSheet : String :=
  ".p \x7b color: red; \x7d\n.q \x7b content: \"\\201C\"; \x7d\n"

def marks : Synthesizer := ⟨.ofCss marksSheet, "Style"⟩

def marksElement (classNames : String) : Element :=
  ⟨⟨"a.jsx"⟩, 0, "a", ⟨5, 6⟩, none, ⟨classNames, ⟨7, 20⟩, ⟨6, 20⟩⟩⟩

def marksCalls : List (Path × List Element) :=
  [(⟨"a.jsx"⟩, [marksElement "p", marksElement "q"])]

def redComponent : Styled :=
  ⟨"AStyle", ⟨"a.jsx"⟩, ⟨"a.style.jsx"⟩, "p", "a", "styled.a", "  color: red;\n"⟩

def quoteComponent : Styled :=
  ⟨"AStyle1", ⟨"a.jsx"⟩, ⟨"a.style.jsx"⟩, "q", "a", "styled.a", "  content: \"\\201C\";\n"⟩

theorem marks_made : marks.synthesizeAll marksCalls = [redComponent, quoteComponent] := by
  decide +kernel

theorem definition_read_iff_red :
    redComponent ∈ marks.synthesizeAll marksCalls ∧
      read? redComponent.template.toList
        = some (some (units ('\n' :: redComponent.css.toList)), ['\n']) := by
  have made : redComponent ∈ marks.synthesizeAll marksCalls := by
    rw [marks_made]
    exact List.mem_cons_self
  exact ⟨made, (definition_read_iff marks made).2.mpr (by decide +kernel)⟩

/-- A style may have escapes of its own, and the template takes them for escapes of the script. -/
theorem definition_not_read_back : ¬ ∀ (css suffix : String) (calls : List (Path × List Element))
    (c : Styled), c ∈ (⟨.ofCss css, suffix⟩ : Synthesizer).synthesizeAll calls →
      read? c.template.toList = some (some (units ('\n' :: c.css.toList)), ['\n']) := by
  intro all
  have made : quoteComponent ∈ marks.synthesizeAll marksCalls := by
    rw [marks_made]
    exact List.mem_cons_of_mem redComponent List.mem_cons_self
  have back := all marksSheet "Style" marksCalls quoteComponent made
  have value : read? quoteComponent.template.toList = some (none, ['\n']) := by decide +kernel
  rw [value] at back
  cases back

end Component

end Restyle
