import Restyle.Proofs.Markup.Reported
import Restyle.Proofs.Rewrite.Rescan
import Restyle.Proofs.Script.Imports
/-!
What a scan finds in a script of constants: the tag of each of them with its attributes, and the
class attribute among those.
-/

namespace Restyle.Script

open Markup (Element attributesOf classAttribute? elementOf? elementsAt elementsIn
  findWithPrevious isClassAttribute literal? shown tagsAt tagsAt_eq tagsIn tagsIn_eq)
open Syntax (Node leafAt)
open Text (byteLength byteLength_append byteLength_cons byteLength_nil)

/-- A text stands at a byte of a source. -/
def StandsAt (source : List Char) (start : Nat) (text : List Char) : Prop :=
  ∃ before after, source = before ++ (text ++ after) ∧ byteLength before = start

section

variable {source text rest : List Char} {start : Nat}

theorem StandsAt.slice (h : StandsAt source start text) {s : Span} (begins : s.start = start)
    (ends : s.stop = start + byteLength text) : Text.slice s source = text := by
  obtain ⟨before, after, cut, rfl⟩ := h
  exact Text.slice_eq cut begins ends

theorem StandsAt.left (h : StandsAt source start (text ++ rest)) : StandsAt source start text := by
  obtain ⟨before, after, cut, place⟩ := h
  exact ⟨before, rest ++ after, by rw [cut, List.append_assoc], place⟩

theorem StandsAt.right (h : StandsAt source start (text ++ rest)) :
    StandsAt source (start + byteLength text) rest := by
  obtain ⟨before, after, cut, rfl⟩ := h
  exact ⟨before ++ text, after, by simp [cut], byteLength_append before text⟩

theorem StandsAt.behind {c : Char} (h : StandsAt source start (c :: rest)) :
    StandsAt source (start + c.utf8Size) rest := by
  have parts : StandsAt source start ([c] ++ rest) := h
  exact parts.right

end

/-- What an attribute shows that is set to a string. -/
def Attribute.shows (a : Attribute) : Option String × Option String :=
  (some (String.ofList a.name), some (String.ofList a.value))

namespace Constant

/-- Where the tag begins of a constant that begins at `start`. -/
def tagStart (start : Nat) (c : Constant) : Nat := start + 6 + byteLength c.name + 3

/-- Where the attributes begin of a constant with its tag at `start`. -/
def attributesStart (start : Nat) (c : Constant) : Nat := start + 1 + byteLength c.tag

/-- The range of an attribute behind others, with the blank in front of it. -/
def attributeSpan (start : Nat) (c : Constant) (pre : List Attribute) (a : Attribute) : Span :=
  let place := c.attributesStart start + byteLength (attributesText pre)
  ⟨place, place + byteLength a.text⟩

/-- The element of a constant with its tag at `start`, of which the class attribute stands behind
other attributes. -/
def element (file : Path) (start : Nat) (c : Constant) (pre : List Attribute) (a : Attribute) :
    Element :=
  let removal := c.attributeSpan start pre a
  ⟨file, 0, String.ofList c.tag, ⟨start + 1, start + 1 + byteLength c.tag⟩, none,
    ⟨String.ofList a.value, ⟨removal.start + 1, removal.stop⟩, removal⟩⟩

/-- The attributes of a constant lie within its text. -/
theorem attributes_within (start : Nat) (c : Constant) :
    start ≤ c.attributesStart (c.tagStart start) ∧
      c.attributesStart (c.tagStart start) + byteLength (attributesText c.attributes) ≤
        start + byteLength c.text := by
  simp only [attributesStart, tagStart, text, declaratorText, tagText, byteLength_append,
    byteLength_cons, byteLength_nil, utf8Size_marks]
  omega

theorem faultless (start : Nat) (c : Constant) : (c.node start).hasFault = false := by
  have all (start : Nat) (as : List Attribute) :
      Node.anyFault (attributeNodes start as) = false := by
    induction as generalizing start with
    | nil => rfl
    | cons a as ih => exact ih _
  show ((Node.anyFault (_ ++ [_]) || false) || false) = false
  rw [Node.anyFault_append, all]
  rfl

end Constant

theorem nodesAt_faultless (start : Nat) (cs : List Constant) :
    Node.anyFault (nodesAt start cs) = false := by
  induction cs generalizing start with
  | nil => rfl
  | cons c cs ih => rw [nodesAt, Node.anyFault, c.faultless, ih, Bool.or_false]

theorem attributesText_append (as bs : List Attribute) :
    attributesText (as ++ bs) = attributesText as ++ attributesText bs :=
  List.flatMap_append

theorem attributeNodes_append (start : Nat) (as bs : List Attribute) :
    attributeNodes start (as ++ bs) = attributeNodes start as ++
      attributeNodes (start + byteLength (attributesText as)) bs := by
  induction as generalizing start with
  | nil => rfl
  | cons a as ih =>
      rw [List.cons_append, attributeNodes, ih, attributesText_cons, byteLength_append,
        Nat.add_assoc]
      rfl

theorem Attribute.span_node (start : Nat) (a : Attribute) :
    (a.node start).span = ⟨start + 1, start + byteLength a.text⟩ := by
  show (⟨start + 1, start + 1 + byteLength a.name + 1 + 1 + byteLength a.value + 1⟩ : Span) = _
  rw [a.byteLength_text]
  congr 1
  omega

/-- The attributes of a tag take up the text between its name and its end. -/
theorem span_of_mem_attributeNodes {start : Nat} {as : List Attribute} {n : Node}
    (member : n ∈ attributeNodes start as) : start < n.span.start ∧ n.span.start < n.span.stop ∧
      n.span.stop ≤ start + byteLength (attributesText as) := by
  induction as generalizing start with
  | nil => cases member
  | cons a as ih =>
      rw [attributesText_cons, byteLength_append]
      have size := a.byteLength_text
      rcases List.mem_cons.mp member with rfl | later
      · rw [a.span_node]
        dsimp only
        omega
      · have := ih later
        omega

theorem tagsIn_append (ms ns : List Node) : tagsIn (ms ++ ns) = tagsIn ms ++ tagsIn ns := by
  simp only [tagsIn_eq, List.flatMap_append]

theorem tagsIn_attributeNodes (start : Nat) (as : List Attribute) :
    tagsIn (attributeNodes start as) = [] := by
  induction as generalizing start with
  | nil => rfl
  | cons a as ih => exact ih _

theorem Constant.tagsAt_node (start : Nat) (c : Constant) :
    tagsAt (c.node start) = [c.tagNode (c.tagStart start)] := by
  have tag (start : Nat) : tagsAt (c.tagNode start) = [c.tagNode start] := by
    rw [tagsAt_eq]
    have inside : tagsIn (c.tagNode start).children = [] := by
      show tagsIn (_ ++ [_]) = []
      rw [tagsIn_append, tagsIn_attributeNodes]
      rfl
    rw [inside]
    rfl
  show (tagsAt (c.tagNode _) ++ []) ++ [] = _
  rw [tag]
  rfl

theorem tagsIn_nodesAt_cons (start : Nat) (c : Constant) (cs : List Constant) :
    tagsIn (nodesAt start (c :: cs)) =
      c.tagNode (c.tagStart start) :: tagsIn (nodesAt (start + byteLength c.text + 1) cs) := by
  rw [nodesAt, tagsIn, c.tagsAt_node, List.singleton_append]

theorem attributesOf_tagNode (start : Nat) (c : Constant) :
    attributesOf (c.tagNode start) = attributeNodes (c.attributesStart start) c.attributes := by
  have all (start : Nat) (as : List Attribute) : (attributeNodes start as).filter
      (fun a => a.role == some .attribute && a.is "jsx_attribute") = attributeNodes start as := by
    induction as generalizing start with
    | nil => rfl
    | cons a as ih => exact congrArg (a.node start :: ·) (ih _)
  show List.filter _ (_ ++ [_]) = _
  rw [List.filter_append, all]
  exact List.append_nil _

/-- An import has neither tags nor faults. -/
theorem Import.tagsAt_node (start : Nat) (i : Import) :
    tagsAt (i.node start) = [] ∧ (i.node start).hasFault = false := by
  have inside (start : Nat) (others : List (List Char)) :
      tagsIn (othersNodes start others) = [] ∧
        Node.anyFault (othersNodes start others) = false := by
    induction others generalizing start with
    | nil => exact ⟨rfl, rfl⟩
    | cons name others ih => exact ih _
  obtain ⟨tags, faults⟩ := inside (start + 7 + 2 + byteLength i.first) i.others
  constructor
  · show (tagsIn (_ ++ [_]) ++ []) ++ [] = []
    rw [tagsIn_append, tags]
    rfl
  · show ((Node.anyFault (_ ++ [_]) || false) || false) = false
    rw [Node.anyFault_append, faults]
    rfl

section

variable {attr : String} {file : Path} {source : String} {start : Nat} {c : Constant}
  {as pre post : List Attribute} {a : Attribute}

theorem StandsAt.tag {rest : List Char} (stands : StandsAt source.toList start (c.text ++ rest)) :
    StandsAt source.toList (c.tagStart start) c.tagText := by
  have name : StandsAt source.toList (start + 6) (c.name ++ ' ' :: '=' :: ' ' :: c.tagText) :=
    stands.left.right.behind.left
  exact name.right.behind.behind.behind

theorem StandsAt.tagName (stands : StandsAt source.toList start c.tagText) :
    StandsAt source.toList (start + 1) c.tag :=
  stands.behind.left

theorem StandsAt.attributes (stands : StandsAt source.toList start c.tagText) :
    StandsAt source.toList (c.attributesStart start) (attributesText c.attributes) :=
  stands.behind.right.left

/-- An attribute shows its name and its value where it stands in the source. -/
theorem Attribute.shown_node (a : Attribute) (stands : StandsAt source.toList start a.text) :
    shown source (a.node start) = a.shows := by
  let quote := start + 1 + byteLength a.name + 1
  have name : StandsAt source.toList (start + 1) (a.name ++ '=' :: '"' :: (a.value ++ ['"'])) :=
    stands.behind
  have value : StandsAt source.toList quote ('"' :: (a.value ++ ['"'])) := name.right.behind
  have name_text : (leafAt (.category "property_identifier") (start + 1) a.name).text source =
      String.ofList a.name :=
    congrArg String.ofList (name.left.slice rfl rfl)
  have raw : ((a.literalNode quote).text source).toList = '"' :: (a.value ++ ['"']) := by
    rw [Node.text, Span.text, String.toList_ofList]
    refine value.slice rfl ?_
    simp only [byteLength_cons, byteLength_append, byteLength_nil, utf8Size_marks]
    show quote + 1 + byteLength a.value + 1 = _
    omega
  have first : (shown source (a.node start)).1 =
      some ((leafAt (.category "property_identifier") (start + 1) a.name).text source) := rfl
  have second : literal? source (a.node start) =
      some (String.ofList (((a.literalNode quote).text source).toList.drop 1).dropLast) := rfl
  refine Prod.ext_iff.mpr ⟨first.trans (congrArg some name_text), second.trans ?_⟩
  rw [raw, List.drop_one, List.tail_cons, List.dropLast_concat]
  rfl

theorem map_shown_attributeNodes (stands : StandsAt source.toList start (attributesText as)) :
    (attributeNodes start as).map (shown source) = as.map Attribute.shows := by
  induction as generalizing start with
  | nil => rfl
  | cons a as ih =>
      rw [attributesText_cons] at stands
      rw [attributeNodes, List.map_cons, a.shown_node stands.left, ih stands.right, List.map_cons]

theorem map_shown_nodesAt {cs : List Constant}
    (stands : StandsAt source.toList start (script cs)) :
    (tagsIn (nodesAt start cs)).map (fun t => (attributesOf t).map (shown source)) =
      cs.map fun c => c.attributes.map Attribute.shows := by
  induction cs generalizing start with
  | nil => rfl
  | cons c cs ih =>
      rw [script_cons] at stands
      have behind : StandsAt source.toList (start + byteLength c.text + 1) (script cs) :=
        stands.right.behind
      rw [tagsIn_nodesAt_cons, List.map_cons, ih behind, attributesOf_tagNode]
      exact congrArg (· :: _) (map_shown_attributeNodes stands.tag.attributes)

/-- Whether an attribute is the class attribute can be told from its name. -/
theorem Attribute.isClassAttribute_node (a : Attribute)
    (stands : StandsAt source.toList start a.text) :
    isClassAttribute attr source (a.node start) = (String.ofList a.name == attr) := by
  rw [Markup.isClassAttribute_eq, a.shown_node stands]
  exact Bool.and_true _

/-- Attributes with other names are passed over. -/
theorem exists_previous (rest : List Node) (previous : Node)
    (others : ∀ a ∈ as, String.ofList a.name ≠ attr)
    (stands : StandsAt source.toList start (attributesText as))
    (ends : previous.span.stop = start) :
    ∃ p : Node, p.span.stop = start + byteLength (attributesText as) ∧
      findWithPrevious (isClassAttribute attr source) (some previous)
        (attributeNodes start as ++ rest) =
      findWithPrevious (isClassAttribute attr source) (some p) rest := by
  induction as generalizing start previous with
  | nil => exact ⟨previous, ends, rfl⟩
  | cons a as ih =>
      obtain ⟨other, others⟩ := List.forall_mem_cons.mp others
      rw [attributesText_cons] at stands
      obtain ⟨p, stop, same⟩ := ih (a.node start) others stands.right (by rw [a.span_node])
      refine ⟨p, by rw [stop, attributesText_cons, byteLength_append, Nat.add_assoc], ?_⟩
      have failed : isClassAttribute attr source (a.node start) = false := by
        rw [a.isClassAttribute_node stands.left, beq_eq_false_iff_ne]
        exact other
      rw [attributeNodes, List.cons_append, findWithPrevious, failed, if_neg Bool.false_ne_true]
      exact same

theorem classAttribute?_of_found {tag p n : Node} {value : String}
    (found : findWithPrevious (isClassAttribute attr source) none tag.children = some (some p, n))
    (literal : literal? source n = some value) :
    classAttribute? attr source tag = some ⟨value, n.span, ⟨p.span.stop, n.span.stop⟩⟩ := by
  obtain ⟨string, second, rfl⟩ := Option.map_eq_some_iff.mp literal
  obtain ⟨second, is⟩ := Option.filter_eq_some_iff.mp second
  rw [classAttribute?, found]
  simp only [Option.bind_eq_bind, Option.bind_some, second, is, guard_true]
  rfl

theorem Constant.classAttribute?_none (c : Constant)
    (others : ∀ a ∈ c.attributes, String.ofList a.name ≠ attr)
    (stands : StandsAt source.toList (c.attributesStart start) (attributesText c.attributes)) :
    classAttribute? attr source (c.tagNode start) = none := by
  obtain ⟨p, -, same⟩ := exists_previous [leafAt (.token "/>") _ ['/', '>']]
    ((leafAt (.category "identifier") (start + 1) c.tag).withRole .name) others stands rfl
  have found : findWithPrevious (isClassAttribute attr source) none (c.tagNode start).children =
      none := same
  rw [classAttribute?, found]
  rfl

theorem Constant.classAttribute?_some (file : Path) (c : Constant)
    (parts : c.attributes = pre ++ a :: post)
    (others : ∀ b ∈ pre, String.ofList b.name ≠ attr) (own : String.ofList a.name = attr)
    (stands : StandsAt source.toList (c.attributesStart start) (attributesText c.attributes)) :
    classAttribute? attr source (c.tagNode start) = some (c.element file start pre a).classes := by
  rw [parts, attributesText_append, attributesText_cons] at stands
  let place := (c.attributeSpan start pre a).start
  have there : StandsAt source.toList place a.text := stands.right.left
  let slash := leafAt (.token "/>")
    (c.attributesStart start + byteLength (attributesText c.attributes) + 1) ['/', '>']
  obtain ⟨p, stop, same⟩ := exists_previous
    (a.node place :: (attributeNodes (place + byteLength a.text) post ++ [slash]))
    ((leafAt (.category "identifier") (start + 1) c.tag).withRole .name) others stands.left rfl
  have children : (c.tagNode start).children = leafAt (.token "<") start ['<'] ::
      (leafAt (.category "identifier") (start + 1) c.tag).withRole .name ::
      (attributeNodes (c.attributesStart start) c.attributes ++ [slash]) := rfl
  have found : findWithPrevious (isClassAttribute attr source) none (c.tagNode start).children =
      some (some p, a.node place) := by
    rw [children, parts, attributeNodes_append, List.append_assoc, attributeNodes, List.cons_append]
    refine same.trans ?_
    rw [findWithPrevious, a.isClassAttribute_node there, beq_iff_eq.mpr own, if_pos rfl]
  rw [classAttribute?_of_found found (congrArg Prod.snd (a.shown_node there)), stop, a.span_node]
  rfl

theorem Constant.elementOf?_none (parent : Option Node) (c : Constant)
    (others : ∀ a ∈ c.attributes, String.ofList a.name ≠ attr)
    (stands : StandsAt source.toList start c.tagText) :
    elementOf? attr file source parent (c.tagNode start) = none := by
  have named : (c.tagNode start).childInRole? .name =
    some ((leafAt (.category "identifier") (start + 1) c.tag).withRole .name) := rfl
  have found := c.classAttribute?_none others stands.attributes
  rw [elementOf?, named, found]
  rfl

theorem Constant.elementOf?_some (parent : Option Node) (c : Constant)
    (parts : c.attributes = pre ++ a :: post)
    (others : ∀ b ∈ pre, String.ofList b.name ≠ attr) (own : String.ofList a.name = attr)
    (stands : StandsAt source.toList start c.tagText) :
    elementOf? attr file source parent (c.tagNode start) = some (c.element file start pre a) := by
  have named : (c.tagNode start).childInRole? .name =
    some ((leafAt (.category "identifier") (start + 1) c.tag).withRole .name) := rfl
  have found := c.classAttribute?_some file parts others own stands.attributes
  have tag : ((leafAt (.category "identifier") (start + 1) c.tag).withRole .name).text source =
      String.ofList c.tag :=
    congrArg String.ofList (stands.tagName.slice rfl rfl)
  rw [elementOf?, named, found]
  show some (Element.mk file 0 _ _ none _) = _
  rw [tag]
  rfl

/-- Among the nodes of a constant only its tag can be an element. -/
theorem Constant.elementsAt_node (attr : String) (file : Path) (source : String)
    (parent : Option Node) (start : Nat) (c : Constant) :
    ∃ p, elementsAt attr file source parent (c.node start) =
      (elementOf? attr file source p (c.tagNode (c.tagStart start))).toList := by
  let declarator := c.declaratorNode (start + 6)
  have inside (parent : Option Node) (slash : Node)
      (no_element : elementsAt attr file source parent slash = []) (start : Nat)
      (as : List Attribute) :
      elementsIn attr file source parent (attributeNodes start as ++ [slash]) = [] := by
    induction as generalizing start with
    | nil => exact (List.append_nil _).trans no_element
    | cons a as ih => exact ih _
  have tag : elementsAt attr file source (some declarator) (c.tagNode (c.tagStart start)) =
      (elementOf? attr file source (some declarator) (c.tagNode (c.tagStart start))).toList :=
    (congrArg (_ ++ ·) (inside _ _ rfl _ c.attributes)).trans (List.append_nil _)
  refine ⟨some declarator, ?_⟩
  show (elementsAt attr file source _ _ ++ []) ++ [] = _
  rw [List.append_nil, List.append_nil]
  exact tag

end

theorem QuoteCount.none_add (a : QuoteCount) : QuoteCount.add ⟨0, 0⟩ a = a := by
  simp [QuoteCount.add]

/-- Such a script has no strings but in its attributes. -/
theorem quotesInAll_nodesAt (source : String) (start : Nat) (cs : List Constant) :
    quotesInAll source (nodesAt start cs) = ⟨0, 0⟩ := by
  have attributes (start : Nat) (as : List Attribute) (stop : Nat) :
      quotesInAll source (attributeNodes start as ++ [leafAt (.token "/>") stop ['/', '>']]) =
        ⟨0, 0⟩ := by
    induction as generalizing start with
    | nil => rfl
    | cons a as ih => exact (QuoteCount.none_add _).trans (ih _)
  induction cs generalizing start with
  | nil => rfl
  | cons c cs ih =>
      have tag : quotesIn source (c.tagNode (c.tagStart start)) = ⟨0, 0⟩ :=
        (QuoteCount.none_add _).trans ((QuoteCount.none_add _).trans (attributes _ _ _))
      have declarator : quotesIn source (c.declaratorNode (start + 6)) = ⟨0, 0⟩ :=
        (QuoteCount.none_add _).trans
          ((QuoteCount.none_add _).trans (congrArg (QuoteCount.add · ⟨0, 0⟩) tag))
      have own : quotesIn source (c.node start) = ⟨0, 0⟩ :=
        (QuoteCount.none_add _).trans (congrArg (QuoteCount.add · ⟨0, 0⟩) declarator)
      rw [nodesAt, quotesInAll, own, ih]
      rfl

theorem quoteStyle_script (source : String) (cs : List Constant) (span : Span) :
    quoteStyle source (.mk (.category "program") none span (nodesAt 0 cs)) = '\'' := by
  have all : quotesIn source (.mk (.category "program") none span (nodesAt 0 cs)) = ⟨0, 0⟩ :=
    quotesInAll_nodesAt source 0 cs
  rw [quoteStyle, all]
  rfl

theorem directiveEnd?_script (source : String) (c : Constant) (cs : List Constant) (span : Span) :
    directiveEnd? source (.mk (.category "program") none span (nodesAt 0 (c :: cs))) = none := rfl

theorem Constant.text_node {source : String} {start : Nat} (c : Constant)
    (stands : StandsAt source.toList start c.text) :
    ((c.node start).text source).toList = c.text := by
  rw [Node.text, Span.text, String.toList_ofList]
  refine stands.slice rfl ?_
  simp only [Constant.text, byteLength_append, byteLength_cons, byteLength_nil, utf8Size_marks]
  show start + 6 + byteLength c.declaratorText + 1 = _
  omega

/-- It ends all its statements with semicolons. -/
theorem usesSemicolons_script {source : String} (c : Constant) (cs : List Constant)
    (stands : StandsAt source.toList 0 (script (c :: cs))) (span : Span) :
    usesSemicolons source (.mk (.category "program") none span (nodesAt 0 (c :: cs))) = true := by
  have telling (start : Nat) (cs : List Constant) :
      ((nodesAt start cs).filter Node.isNamed).filter showsSemicolon = nodesAt start cs := by
    induction cs generalizing start with
    | nil => rfl
    | cons c cs ih => exact congrArg (c.node start :: ·) (ih _)
  have ended (start : Nat) (cs : List Constant)
      (stands : StandsAt source.toList start (script cs)) :
      ∀ n ∈ nodesAt start cs, ((n.text source).toList.getLast? == some ';') = true := by
    induction cs generalizing start with
    | nil => exact fun n member => absurd member List.not_mem_nil
    | cons c cs ih =>
        rw [script_cons] at stands
        refine List.forall_mem_cons.mpr ⟨?_, ih _ stands.right.behind⟩
        rw [c.text_node stands.left, Constant.text, ← List.cons_append, ← List.append_assoc,
          List.getLast?_concat]
        rfl
  rw [usesSemicolons, Node.namedChildren, Node.children, telling,
    List.countP_eq_length.mpr (ended 0 (c :: cs) stands), Nat.sub_self]
  rfl

end Restyle.Script
