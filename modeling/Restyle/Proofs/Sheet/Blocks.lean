import Mathlib.Data.List.Basic
import Restyle.Proofs.OrderedTable
import Restyle.Sheet.Resolved
import Restyle.Text
/-!
The text of a style, read back line by line. A line that ends in an opening brace opens a block, a
closing brace on its own closes one, and any other line is a declaration of the context that the
open blocks make up. Read so, the text of a style gives its groups, and no block is open behind any
of them.
-/

namespace Restyle

namespace Text

/-- The lines of a text. What follows the last line feed is one only if it is not empty. -/
def linesOf (cs : List Char) : List (List Char) :=
  let parts := splitOnChar '\n' cs
  if parts.getLast? = some [] then parts.dropLast else parts

theorem splitOnChar_append {separator : Char} {part : List Char} (plain : separator ∉ part)
    (rest : List Char) :
    splitOnChar separator (part ++ separator :: rest) = part :: splitOnChar separator rest := by
  induction part with
  | nil =>
      rw [List.nil_append, splitOnChar, if_pos (beq_self_eq_true separator)]
  | cons c part ih =>
      obtain ⟨other, plain⟩ := not_or.mp (fun h => plain (List.mem_cons.mpr h))
      have differs : (c == separator) = false := beq_false_of_ne (Ne.symm other)
      rw [List.cons_append, splitOnChar, differs, if_neg Bool.false_ne_true, ih plain]

theorem linesOf_flatMap {lines : List (List Char)} (plain : ∀ line ∈ lines, '\n' ∉ line) :
    linesOf (lines.flatMap (· ++ ['\n'])) = lines := by
  have parts : splitOnChar '\n' (lines.flatMap (· ++ ['\n'])) = lines ++ [[]] := by
    induction lines with
    | nil => rfl
    | cons line lines ih =>
        rw [List.flatMap_cons, List.append_assoc, List.singleton_append,
          splitOnChar_append (plain line List.mem_cons_self),
          ih fun other member => plain other (List.mem_cons_of_mem line member), List.cons_append]
  rw [linesOf, parts]
  simp only [List.getLast?_concat, if_true, List.dropLast_concat]

end Text

namespace Sheet.ResolvedStyle

open OrderedTable (upsert)

/-- A line without the blanks in front of it, as far as they are the indentation of its depth. -/
def unindented : Nat → List Char → List Char
  | n + 1, ' ' :: cs => unindented n cs
  | _, cs => cs

/-- The header of the block that a line opens. -/
def header? (line : List Char) : Option String :=
  match line.reverse with
  | '\x7b' :: ' ' :: header => some (String.ofList header.reverse)
  | _ => none

/-- The declaration on a line: a property up to the first colon, a blank, and a value up to the
semicolon at the end. -/
def declaration? (line : List Char) : Option (String × String) :=
  match line.dropWhile (· != ':') with
  | ':' :: ' ' :: value =>
    if value.getLast? = some ';' then
      some (String.ofList (line.takeWhile (· != ':')), String.ofList value.dropLast)
    else none
  | _ => none

/-- The context that the headers of blocks make up, the outermost first: at-rules, and behind them
a pseudo-class, which an ampersand stands in front of. -/
def contextOf? : List String → Option Context
  | [] => some Context.free
  | h :: hs =>
    match h.toList with
    | '@' :: _ => (contextOf? hs).map fun c => { c with atRules := h :: c.atRules }
    | '&' :: pseudo => if hs.isEmpty then some ⟨[], some (String.ofList pseudo)⟩ else none
    | _ => none

/-- What was read of a style: the headers of the blocks that are open, the outermost first, and the
groups so far. -/
structure Reading where
  headers : List String
  groups : List (Context × Declarations)
deriving DecidableEq, Repr

namespace Reading

def start : Reading := ⟨[], []⟩

/-- Reads one line. A declaration goes to the group of the context that the open blocks make up. -/
def step (r : Reading) (line : List Char) : Option Reading :=
  let text := unindented (2 * (r.headers.length + 1)) line
  if text = ['\x7d'] then
    if r.headers = [] then none else some { r with headers := r.headers.dropLast }
  else
    match header? text with
    | some header => some { r with headers := r.headers ++ [header] }
    | none => do
      let context ← contextOf? r.headers
      let declaration ← declaration? text
      some { r with groups := upsert [] context (· ++ [declaration]) r.groups }

/-- Reads a text to its end. -/
def ofText? (text : String) : Option Reading :=
  (Text.linesOf text.toList).foldlM step start

end Reading

/-- The groups of a text whose blocks are all closed. -/
def read? (text : String) : Option (List (Context × Declarations)) := do
  let r ← Reading.ofText? text
  if r.headers.isEmpty then some r.groups else none

def indented (depth : Nat) (text : List Char) : List Char := List.replicate (2 * depth) ' ' ++ text

def declarationLine (d : String × String) : List Char :=
  d.1.toList ++ ':' :: ' ' :: (d.2.toList ++ [';'])

def openingLine (header : String) : List Char := header.toList ++ [' ', '\x7b']

/-- The lines of declarations inside blocks with the given headers. -/
def nestLines (ds : Declarations) : Nat → List String → List (List Char)
  | depth, [] => ds.map fun d => indented depth (declarationLine d)
  | depth, h :: hs =>
    indented depth (openingLine h) :: (nestLines ds (depth + 1) hs ++ [indented depth ['\x7d']])

def linesOf (groups : List (Context × Declarations)) : List (List Char) :=
  groups.flatMap fun g => nestLines g.2 1 g.1.blockHeaders

theorem toList_line (depth : Nat) (text : String) :
    (line depth text).toList = indented depth text.toList ++ ['\n'] := by
  have blanks : (String.join (List.replicate depth "  ")).toList
      = List.replicate (2 * depth) ' ' := by
    induction depth with
    | zero => rfl
    | succ depth ih =>
        rw [List.replicate_succ, String.join_cons, String.toList_append, ih, Nat.mul_succ,
          Nat.add_comm, List.replicate_add]
        rfl
  rw [line, String.toList_append, String.toList_append, blanks]
  rfl

theorem toList_nest (ds : Declarations) (depth : Nat) (headers : List String) :
    (nest ds depth headers).toList = (nestLines ds depth headers).flatMap (· ++ ['\n']) := by
  induction headers generalizing depth with
  | nil =>
      rw [nest, nestLines, String.toList_join, List.flatMap_map, List.flatMap_map]
      apply List.flatMap_congr
      intro d _
      have text : (d.1 ++ ": " ++ d.2 ++ ";").toList = declarationLine d := by
        simp only [String.toList_append, List.append_assoc, declarationLine]
        rfl
      rw [toList_line, text]
  | cons h hs ih =>
      have text : (h ++ " \x7b").toList = openingLine h := String.toList_append
      rw [nest, nestLines, String.toList_append, String.toList_append, toList_line, toList_line,
        ih, text]
      simp only [List.flatMap_cons, List.flatMap_append, List.flatMap_nil, List.append_nil,
        List.append_assoc]
      rfl

theorem toList_toCss (s : ResolvedStyle) :
    s.toCss.toList = (linesOf s.groups).flatMap (· ++ ['\n']) := by
  rw [toCss, String.toList_join, List.flatMap_map, linesOf, List.flatMap_assoc]
  exact List.flatMap_congr fun g _ => toList_nest g.2 1 g.1.blockHeaders

theorem unindented_indented (depth : Nat) (text : List Char) :
    unindented (2 * depth) (indented depth text) = text := by
  unfold indented
  generalize 2 * depth = n
  induction n with
  | zero =>
      cases text <;> rfl
  | succ n ih => rw [List.replicate_succ, List.cons_append, unindented, ih]

theorem unindented_closing (depth : Nat) :
    unindented (2 * (depth + 1)) (indented depth ['\x7d']) = ['\x7d'] := by
  unfold indented
  have deeper : 2 * depth ≤ 2 * (depth + 1) := by omega
  generalize 2 * (depth + 1) = m at deeper ⊢
  generalize 2 * depth = n at deeper ⊢
  induction n generalizing m with
  | zero => cases m <;> rfl
  | succ n ih =>
      obtain ⟨m, rfl⟩ : ∃ k, m = k + 1 := ⟨m - 1, by omega⟩
      rw [List.replicate_succ, List.cons_append, unindented, ih m (by omega)]

theorem header?_openingLine (header : String) : header? (openingLine header) = some header := by
  simp [header?, openingLine]

theorem openingLine_ne (header : String) : openingLine header ≠ ['\x7d'] := by
  intro same
  have last := congrArg List.getLast? same
  simp [openingLine] at last

theorem getLast?_declarationLine (d : String × String) :
    (declarationLine d).getLast? = some ';' := by
  have parts : declarationLine d = (d.1.toList ++ ':' :: ' ' :: d.2.toList) ++ [';'] := by
    rw [declarationLine, List.append_assoc]
    rfl
  rw [parts, List.getLast?_concat]

theorem header?_declarationLine (d : String × String) : header? (declarationLine d) = none := by
  have last := getLast?_declarationLine d
  rw [List.getLast?_eq_head?_reverse] at last
  unfold header?
  split
  · rename_i header same
    rw [same] at last
    cases last
  · rfl

theorem declarationLine_ne (d : String × String) : declarationLine d ≠ ['\x7d'] := by
  intro same
  have last := getLast?_declarationLine d
  rw [same] at last
  cases last

theorem declaration?_declarationLine {d : String × String} (plain : ':' ∉ d.1.toList) :
    declaration? (declarationLine d) = some d := by
  have before : ∀ c ∈ d.1.toList, (c != ':') = true := by
    intro c member
    rw [bne_iff_ne]
    exact fun same => plain (same ▸ member)
  have property : (declarationLine d).takeWhile (· != ':') = d.1.toList := by
    rw [declarationLine, List.takeWhile_append_of_pos before]
    simp
  have rest : (declarationLine d).dropWhile (· != ':') = ':' :: ' ' :: (d.2.toList ++ [';']) := by
    rw [declarationLine, List.dropWhile_append_of_pos before]
    simp
  rw [declaration?, rest, property]
  simp

namespace Reading

variable {headers : List String} {groups : List (Context × Declarations)}

theorem step_opening (header : String) :
    step ⟨headers, groups⟩ (indented (headers.length + 1) (openingLine header))
      = some ⟨headers ++ [header], groups⟩ := by
  rw [step]
  simp only [unindented_indented, openingLine_ne, if_false, header?_openingLine]

theorem step_closing (header : String) :
    step ⟨headers ++ [header], groups⟩ (indented (headers.length + 1) ['\x7d'])
      = some ⟨headers, groups⟩ := by
  rw [step]
  simp only [List.length_append, List.length_singleton, unindented_closing, if_true,
    List.append_eq_nil_iff, List.cons_ne_self, and_false, if_false, List.dropLast_concat]

theorem step_declaration {c : Context} (context : contextOf? headers = some c)
    {d : String × String} (plain : ':' ∉ d.1.toList) :
    step ⟨headers, groups⟩ (indented (headers.length + 1) (declarationLine d))
      = some ⟨headers, upsert [] c (· ++ [d]) groups⟩ := by
  rw [step]
  simp only [unindented_indented, declarationLine_ne, if_false, header?_declarationLine, context,
    declaration?_declarationLine plain]
  rfl

/-- Behind the lines of some declarations in blocks the blocks are closed, and the declarations
stand in the group of their context. The induction is on the headers that are still to be opened. -/
theorem foldlM_nestLines {ds : Declarations} (plain : ∀ d ∈ ds, ':' ∉ d.1.toList) {c : Context}
    {inner : List String} (context : contextOf? (headers ++ inner) = some c) :
    (nestLines ds (headers.length + 1) inner).foldlM step ⟨headers, groups⟩ =
      some ⟨headers, ds.foldl (fun gs d => upsert [] c (· ++ [d]) gs) groups⟩ := by
  induction inner generalizing headers with
  | nil =>
      rw [List.append_nil] at context
      rw [nestLines]
      induction ds generalizing groups with
      | nil => rfl
      | cons d ds ih =>
          rw [List.map_cons, List.foldlM_cons,
            step_declaration context (plain d List.mem_cons_self)]
          exact ih fun other member => plain other (List.mem_cons_of_mem d member)
  | cons h inner ih =>
      have deeper := @ih (headers ++ [h]) (by rwa [List.append_assoc])
      rw [List.length_append, List.length_singleton] at deeper
      rw [nestLines, List.foldlM_cons, step_opening]
      simp only [List.foldlM_append, List.foldlM_cons, List.foldlM_nil, Option.bind_eq_bind,
        Option.bind_some, deeper, step_closing]
      rfl

end Reading

theorem foldl_upsert_of_new {c : Context} {ds : Declarations} (declared : ds ≠ [])
    {groups : List (Context × Declarations)} (new : c ∉ groups.map Prod.fst) :
    ds.foldl (fun gs d => upsert [] c (· ++ [d]) gs) groups = groups ++ [(c, ds)] := by
  have grows (more : Declarations) : ∀ first : Declarations,
      more.foldl (fun gs d => upsert [] c (· ++ [d]) gs) (groups ++ [(c, first)])
        = groups ++ [(c, first ++ more)] := by
    induction more with
    | nil =>
        intro first
        rw [List.foldl_nil, List.append_nil]
    | cons d more ih =>
        intro first
        have last : upsert [] c (· ++ [d]) (groups ++ [(c, first)])
            = groups ++ [(c, first ++ [d])] := by
          clear ih
          induction groups with
          | nil => simp only [List.nil_append, upsert, beq_self_eq_true, if_true]
          | cons g groups ih =>
              obtain ⟨other, new⟩ := not_or.mp (fun h => new (List.mem_cons.mpr h))
              have differs : (g.1 == c) = false := beq_false_of_ne (Ne.symm other)
              simp only [List.cons_append, upsert, differs, Bool.false_eq_true, if_false, ih new]
        rw [List.foldl_cons, last, ih, List.append_assoc, List.singleton_append]
  obtain ⟨d, more, rfl⟩ := List.exists_cons_of_ne_nil declared
  rw [List.foldl_cons, OrderedTable.upsert_of_not_mem [] _ new, grows]
  rfl

/-- A group that can be told from its text: it has a declaration, its at-rules begin as such, no
property has a colon, and nothing that it is written with has a line break. -/
structure Legible (g : Context × Declarations) : Prop where
  declared : g.2 ≠ []
  atRules : ∀ rule ∈ g.1.atRules, rule.toList.head? = some '@'
  colonless : ∀ d ∈ g.2, ':' ∉ d.1.toList
  headers : ∀ header ∈ g.1.blockHeaders, '\n' ∉ header.toList
  declarations : ∀ d ∈ g.2, '\n' ∉ d.1.toList ∧ '\n' ∉ d.2.toList

namespace Legible

variable {g : Context × Declarations}

theorem contextOf?_blockHeaders {c : Context}
    (atRules : ∀ rule ∈ c.atRules, rule.toList.head? = some '@') :
    contextOf? c.blockHeaders = some c := by
  obtain ⟨rules, pseudo⟩ := c
  induction rules with
  | nil =>
      cases pseudo with
      | none => rfl
      | some p =>
          have header : ("&" ++ p).toList = '&' :: p.toList := String.toList_append
          simp [Context.blockHeaders, contextOf?, header]
  | cons rule rules ih =>
      obtain ⟨more, text⟩ := List.head?_eq_some_iff.mp (atRules rule List.mem_cons_self)
      have inner := ih fun other member => atRules other (List.mem_cons_of_mem rule member)
      simp only [Context.blockHeaders] at inner ⊢
      simp only [List.cons_append, contextOf?, text, inner, Option.map_some]

theorem lines_plain (h : Legible g) (depth : Nat) :
    ∀ line ∈ nestLines g.2 depth g.1.blockHeaders, '\n' ∉ line := by
  have spaced {depth : Nat} {text : List Char} (plain : '\n' ∉ text) :
      '\n' ∉ indented depth text := by
    simp [indented, plain]
  have nested : ∀ headers : List String, (∀ header ∈ headers, '\n' ∉ header.toList) →
      ∀ depth, ∀ line ∈ nestLines g.2 depth headers, '\n' ∉ line := by
    intro headers plain
    induction headers with
    | nil =>
        intro depth line member
        obtain ⟨d, there, rfl⟩ := List.mem_map.mp member
        obtain ⟨property, value⟩ := h.declarations d there
        exact spaced (by simp [declarationLine, property, value])
    | cons header headers ih =>
        intro depth line member
        rw [nestLines, List.mem_cons, List.mem_append, List.mem_singleton] at member
        rcases member with rfl | inside | rfl
        · exact spaced (by simp [openingLine, plain header List.mem_cons_self])
        · exact ih (fun other there => plain other (List.mem_cons_of_mem header there)) _ line inside
        · exact spaced (by decide)
  exact nested _ h.headers depth

/-- The lines of one group add it to the groups that were read, and leave no block open. -/
theorem foldlM_lines (h : Legible g) {groups : List (Context × Declarations)}
    (new : g.1 ∉ groups.map Prod.fst) :
    (nestLines g.2 1 g.1.blockHeaders).foldlM Reading.step ⟨[], groups⟩ =
      some ⟨[], groups ++ [g]⟩ := by
  have context := contextOf?_blockHeaders h.atRules
  have run : (nestLines g.2 1 g.1.blockHeaders).foldlM Reading.step ⟨[], groups⟩ = some ⟨[], _⟩ :=
    Reading.foldlM_nestLines h.colonless context
  rw [foldl_upsert_of_new h.declared new] at run
  exact run

end Legible

theorem foldlM_linesOf {groups : List (Context × Declarations)}
    (apart : (groups.map Prod.fst).Nodup) (legible : ∀ g ∈ groups, Legible g) :
    (linesOf groups).foldlM Reading.step Reading.start = some ⟨[], groups⟩ := by
  -- Generalised over the groups that were read before.
  suffices all : ∀ before : List (Context × Declarations), ((before ++ groups).map Prod.fst).Nodup →
      (linesOf groups).foldlM Reading.step ⟨[], before⟩ = some ⟨[], before ++ groups⟩ from
    all [] apart
  clear apart
  induction groups with
  | nil =>
      intro before _
      rw [List.append_nil]
      rfl
  | cons g groups ih =>
      intro before apart
      have new : g.1 ∉ before.map Prod.fst := by
        rw [List.map_append, List.map_cons] at apart
        intro member
        exact (List.nodup_append.mp apart).2.2 _ member _ List.mem_cons_self rfl
      have rest := ih (fun other member => legible other (List.mem_cons_of_mem g member))
        (before ++ [g]) (by rwa [List.append_assoc])
      rw [linesOf, List.flatMap_cons, List.foldlM_append,
        (legible g List.mem_cons_self).foldlM_lines new]
      rw [List.append_assoc] at rest
      exact rest

theorem ofText?_toCss (s : ResolvedStyle) (apart : (s.groups.map Prod.fst).Nodup)
    (legible : ∀ g ∈ s.groups, Legible g) :
    Reading.ofText? s.toCss = some ⟨[], s.groups⟩ := by
  have plain : ∀ line ∈ linesOf s.groups, '\n' ∉ line := by
    intro line member
    obtain ⟨g, there, inside⟩ := List.mem_flatMap.mp member
    exact (legible g there).lines_plain 1 line inside
  rw [Reading.ofText?, toList_toCss, Text.linesOf_flatMap plain, foldlM_linesOf apart legible]

/-- The text of a style is read back as its groups, if their contexts differ and each can be told
from its text. Behind each group all blocks are closed: the text of the groups up to there, read by
itself, gives these groups with no block left open. -/
theorem read?_toCss (s : ResolvedStyle) (apart : (s.groups.map Prod.fst).Nodup)
    (legible : ∀ g ∈ s.groups, Legible g) :
    read? s.toCss = some s.groups ∧
    ∀ before after, s.groups = before ++ after →
      s.toCss = toCss ⟨before, []⟩ ++ toCss ⟨after, []⟩ ∧
      Reading.ofText? (toCss ⟨before, []⟩) = some ⟨[], before⟩ := by
  refine ⟨?_, ?_⟩
  · rw [read?, ofText?_toCss s apart legible]
    rfl
  · intro before after parts
    rw [parts] at apart legible
    refine ⟨?_, ofText?_toCss ⟨before, []⟩ ?_ ?_⟩
    · simp only [toCss, parts, List.map_append, String.join_append]
    · rw [List.map_append] at apart
      exact (List.nodup_append.mp apart).1
    · exact fun g member => legible g (List.mem_append_left after member)

/-- A style with a media query that two groups have in common, one of them inside of more. -/
def nestedStyle : ResolvedStyle :=
  ⟨[(Context.free, [("color", "red")]),
    (⟨["@media print"], none⟩, [("margin", "0"), ("color", "blue")]),
    (⟨["@media print", "@supports (display: grid)"], some ":hover"⟩, [("display", "grid")])], []⟩

theorem read?_toCss_nested :
    (nestedStyle.groups.map Prod.fst).Nodup ∧ (∀ g ∈ nestedStyle.groups, Legible g) ∧
    read? nestedStyle.toCss = some nestedStyle.groups ∧
    Reading.ofText? (toCss ⟨nestedStyle.groups.take 2, []⟩) =
      some ⟨[], nestedStyle.groups.take 2⟩ := by
  have apart : (nestedStyle.groups.map Prod.fst).Nodup := by decide
  have legible : ∀ g ∈ nestedStyle.groups, Legible g := by
    intro g member
    simp only [nestedStyle, List.mem_cons, List.not_mem_nil, or_false] at member
    rcases member with rfl | rfl | rfl <;>
      exact ⟨by decide, by decide, by decide, by decide, by decide⟩
  obtain ⟨whole, parts⟩ := read?_toCss nestedStyle apart legible
  have cut := (List.take_append_drop 2 nestedStyle.groups).symm
  exact ⟨apart, legible, whole, (parts _ _ cut).2⟩

end Sheet.ResolvedStyle

end Restyle
