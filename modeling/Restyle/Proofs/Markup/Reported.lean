import Mathlib.Data.List.Forall2
import Restyle.Proofs.Markup.Attributes
import Restyle.Proofs.Rewrite.Collision
import Restyle.Proofs.Script.Openings
/-!
What a scan reports. In a source without faults these are the tags whose first class attribute is
set to a plain string, unless a comment stands in that attribute; they come in document order, each
once and each with its place in that order. All that a rewriter changes about them goes together.
-/

namespace Restyle

namespace Markup

open Syntax (Node)
open Script (isTag TagFree Begun)

variable {attr : String} {file : Path} {source : String}

/-- Whether an attribute is set to a plain string. -/
def isPlain (a : Node) : Bool := a.children.any (·.is "string")

/-- Whether a comment stands in an attribute, be it one of markup. -/
def isCommented (a : Node) : Bool := a.children.any Node.isComment

/-- Whether the first class attribute of a tag is set to a plain string and holds no comment. -/
def isStyled (attr source : String) (t : Node) : Bool :=
  (classAttributes attr source t).head?.any fun a => isPlain a && !isCommented a

/-- An element tells of a tag its name, and the string that its first class attribute is set to,
each with its place. -/
structure Element.Describes (attr : String) (file : Path) (source : String) (e : Element)
    (t : Node) : Prop where
  file : e.file = file
  name : ∃ k, t.childInRole? .name = some k ∧ e.tag = k.text source ∧ e.openingName = k.span
  classes : ∃ a, (classAttributes attr source t).head? = some a ∧ e.classes.span = a.span ∧
    literal? source a = some e.classes.value

theorem isNamed_of_is {n : Node} {name : String} (is : n.is name = true) : n.isNamed = true := by
  rw [Node.is, beq_iff_eq] at is
  rw [Node.isNamed, is]

theorem is_eq_false_of_is {n : Node} {name other : String} (is : n.is name = true)
    (differ : name ≠ other) : n.is other = false := by
  rw [Node.is, beq_iff_eq] at is
  rw [Node.is, is, beq_eq_false_iff_ne]
  exact fun same => differ (Syntax.Kind.category.inj same)

theorem isNamed_of_isComment {n : Node} (comment : n.isComment = true) : n.isNamed = true := by
  obtain ⟨name, -, is⟩ := List.any_eq_true.mp comment
  exact isNamed_of_is is

theorem isComment_eq_false_of_is {n : Node} {name : String} (is : n.is name = true)
    (other : name ∉ Syntax.commentCategories) : n.isComment = false := by
  rw [Node.isComment, List.any_eq_false]
  intro category among comment
  rw [is_eq_false_of_is is fun same => other (same ▸ among)] at comment
  cases comment

theorem is_eq_false_of_isComment {n : Node} {name : String} (comment : n.isComment = true)
    (other : name ∉ Syntax.commentCategories) : n.is name = false := by
  rw [Bool.eq_false_iff]
  intro is
  rw [isComment_eq_false_of_is is other] at comment
  cases comment

theorem isPlain_of_second {a : Node} (second : (a.namedChild? 1).any (·.is "string") = true) :
    isPlain a = true := by
  cases there : a.namedChild? 1 with
  | none =>
      rw [there] at second
      cases second
  | some n =>
      rw [there] at second
      have member := (List.mem_filter.mp (List.mem_of_getElem? there)).1
      exact List.any_eq_true.mpr ⟨n, member, second⟩

/-- Of an attribute the second part with a name is read. This is its string, unless a comment stands
in front of it. -/
theorem second_is_string {a : Node} (is : a.is "jsx_attribute" = true) (begun : Begun a) :
    (a.namedChild? 1).any (·.is "string") = (isPlain a && !isCommented a) := by
  cases plain : isPlain a with
  | false =>
      rw [Bool.false_and, Bool.eq_false_iff]
      intro second
      rw [isPlain_of_second second] at plain
      cases plain
  | true =>
      obtain ⟨name, sign, value, before, after, parts, ⟨named, other⟩, kind, string, comments⟩ :=
        begun.valued is (List.any_eq_true.mp plain)
      have named_before : before.filter Node.isNamed = before :=
        List.filter_eq_self.mpr fun m member =>
          isNamed_of_isComment (comments m (List.mem_append_left _ member))
      have named_after : after.filter Node.isNamed = after :=
        List.filter_eq_self.mpr fun m member =>
          isNamed_of_isComment (comments m (List.mem_append_right _ member))
      have children : a.namedChildren = name :: (before ++ after ++ [value]) := by
        have unnamed : sign.isNamed = false := by rw [Node.isNamed, kind]
        simp [Node.namedChildren, parts, named, unnamed, isNamed_of_is string, named_before,
          named_after]
      have commented : isCommented a = (before ++ after).any Node.isComment := by
        have apart : sign.isComment = false := by simp [Node.isComment, Node.is, kind]
        have apart' : value.isComment = false := isComment_eq_false_of_is string (by decide)
        simp [isCommented, parts, other, apart, apart']
      rw [Node.namedChild?, children, commented, Bool.true_and]
      cases between : before ++ after with
      | nil => exact string
      | cons c cs =>
          have comment := comments c (between ▸ List.mem_cons_self)
          rw [List.any_cons, comment, Bool.true_or]
          exact is_eq_false_of_isComment comment (by decide)

theorem classAttribute?_describes {t : Node} {c : ClassAttribute}
    (found : classAttribute? attr source t = some c) :
    ∃ a, (classAttributes attr source t).head? = some a ∧ c.span = a.span ∧
      literal? source a = some c.value := by
  simp only [classAttribute?, Option.bind_eq_bind, Option.bind_eq_some_iff, Option.pure_def,
    Option.guard_eq_some', Option.some.injEq, Prod.exists] at found
  obtain ⟨previous, a, first, value, second, -, string, rfl⟩ := found
  refine ⟨a, ?_, rfl, ?_⟩
  · rw [classAttributes, ← map_findWithPrevious _ none, first]
    rfl
  · rw [literal?, second, Option.filter_some, if_pos string]
    rfl

theorem literal?_isSome (source : String) (a : Node) :
    (literal? source a).isSome = (a.namedChild? 1).any (·.is "string") := by
  rw [literal?, Option.isSome_map, Option.isSome_filter]

theorem elementOf?_isSome {t : Node} (begun : t.Everywhere Begun) (parent : Option Node) :
    (elementOf? attr file source parent t).isSome = (isNamedTag t && isStyled attr source t) := by
  rw [← Option.isSome_map, elementOf?_value, isStyled, classTexts, List.head?_map]
  cases isNamedTag t with
  | false => rfl
  | true =>
      cases first : (classAttributes attr source t).head? with
      | none => rfl
      | some a =>
          obtain ⟨child, passed⟩ := List.mem_filter.mp (List.mem_of_head? first)
          have is := (exists_name_of_isClassAttribute passed).2.1
          rw [if_pos rfl, Option.map_some, Option.join_some, literal?_isSome,
            second_is_string is (begun.inside a child).here]
          rfl

theorem elementOf?_describes {parent : Option Node} {t : Node} {e : Element}
    (made : elementOf? attr file source parent t = some e) :
    Element.Describes attr file source e t := by
  simp only [elementOf?, Option.bind_eq_bind, Option.bind_eq_some_iff, Option.pure_def,
    Option.guard_eq_some', Option.some.injEq] at made
  obtain ⟨-, -, k, name, classes, found, rfl⟩ := made
  exact ⟨rfl, ⟨k, name, rfl, rfl⟩, classAttribute?_describes found⟩

theorem forall₂_flatMap {α β γ : Type} {R : β → γ → Prop} {f : α → List β} {g : α → List γ}
    {as : List α} (each : ∀ a ∈ as, List.Forall₂ R (f a) (g a)) :
    List.Forall₂ R (as.flatMap f) (as.flatMap g) := by
  induction as with
  | nil => exact .nil
  | cons a as ih =>
      obtain ⟨first, others⟩ := List.forall_mem_cons.mp each
      exact List.rel_append first (ih others)

/-- The elements at a node and below it are the styled tags there, in the same order. -/
theorem elementsAt_describe {n : Node} (h : n.Everywhere Begun) (parent : Option Node) :
    List.Forall₂ (Element.Describes attr file source) (elementsAt attr file source parent n)
      ((tagsAt n).filter (isStyled attr source)) := by
  induction h generalizing parent with
  | @mk n here inside ih =>
      rw [elementsAt_eq, tagsAt_eq, elementsIn_eq, tagsIn_eq, List.filter_append,
        List.filter_flatMap]
      refine List.rel_append ?_ (forall₂_flatMap fun c child => ih c child (some n))
      have own : (elementOf? attr file source parent n).isSome =
          (isNamedTag n && isStyled attr source n) := elementOf?_isSome (.mk here inside) parent
      cases made : elementOf? attr file source parent n with
      | none =>
          rw [made, Option.isSome_none] at own
          cases named : isNamedTag n with
          | false => exact .nil
          | true =>
              rw [named, Bool.true_and] at own
              rw [if_pos rfl, List.filter_cons_of_neg (by rw [← own]; decide)]
              exact .nil
      | some e =>
          rw [made, Option.isSome_some, eq_comm, Bool.and_eq_true] at own
          rw [if_pos own.1, List.filter_cons_of_pos own.2]
          exact .cons (elementOf?_describes made) .nil

theorem forall₂_mapIdx {es : List Element} {ts : List Node}
    (h : List.Forall₂ (Element.Describes attr file source) es ts) (f : Nat → Nat) :
    List.Forall₂ (Element.Describes attr file source)
      (es.mapIdx fun i e => { e with ordinal := f i }) ts := by
  induction h generalizing f with
  | nil => exact .nil
  | cons first later ih =>
      rw [List.mapIdx_cons]
      exact .cons ⟨first.file, first.name, first.classes⟩ (ih fun i => f (i + 1))

/-- One element begins before another one: its name does. -/
def Element.Before (a b : Element) : Prop := a.openingName.start < b.openingName.start

/-- What the order of elements needs of a node. -/
structure Ordered (source : List Char) (n : Node) : Prop where
  sound : Sound source n
  begun : Begun n
  extended : n.Extended

theorem name_between {n k : Node} (h : n.Everywhere (Ordered source.toList)) (tag : isTag n = true)
    (name : n.childInRole? .name = some k) :
    n.span.start < k.span.start ∧ k.span.start ≤ k.span.stop ∧ k.span.stop ≤ n.span.stop ∧
      ∀ c ∈ n.children, ¬ TagFree c → k.span.stop ≤ c.span.start := by
  obtain ⟨bracket, before, after, parts, kind, free⟩ := h.here.begun.led tag k name
  obtain ⟨there, role⟩ := childInRole?_eq_some name
  have first : bracket ∈ n.children := by
    rw [parts]
    exact List.mem_append_left _ List.mem_cons_self
  have placed := h.here.sound.1
  have apart := placed.apart
  rw [parts] at apart
  obtain ⟨-, behind, ahead⟩ := List.pairwise_append.mp apart
  refine ⟨?_, (h.inside k there).here.sound.1.ordered, (placed.within k there).2, ?_⟩
  · have begins := (placed.within bracket first).1
    have extended := (h.inside bracket first).here.extended _ kind
    have next := ahead bracket List.mem_cons_self k List.mem_cons_self
    omega
  · intro c member tagged
    rw [parts] at member
    rcases List.mem_append.mp member with early | late
    · exact absurd (free c early) tagged
    · rcases List.mem_cons.mp late with rfl | later
      · exact absurd ((h.inside c there).here.sound.2.named role) tagged
      · exact (List.pairwise_cons.mp behind).1 c later

/-- The elements at a node and below it come in the order of their names, and these begin inside of
the node. -/
structure Sequenced (attr : String) (file : Path) (source : String) (parent : Option Node)
    (n : Node) : Prop where
  order : (elementsAt attr file source parent n).Pairwise Element.Before
  bounds : ∀ e ∈ elementsAt attr file source parent n,
    n.span.start < e.openingName.start ∧ e.openingName.start ≤ n.span.stop

theorem elementsIn_ordered {parent : Option Node} {ns : List Node}
    (apart : ns.Pairwise fun a b => a.span.stop ≤ b.span.start)
    (each : ∀ c ∈ ns, Sequenced attr file source parent c) :
    (elementsIn attr file source parent ns).Pairwise Element.Before := by
  rw [elementsIn_eq]
  refine List.pairwise_flatMap.mpr ⟨fun c child => (each c child).order, ?_⟩
  refine apart.imp_of_mem ?_
  intro a b ha hb apart x of_a y of_b
  have ends := ((each a ha).bounds x of_a).2
  have begins := ((each b hb).bounds y of_b).1
  unfold Element.Before
  omega

theorem sequenced_of_everywhere {n : Node} (h : n.Everywhere (Ordered source.toList))
    (parent : Option Node) : Sequenced attr file source parent n := by
  induction h generalizing parent with
  | @mk n here inside ih =>
      have placed := here.sound.1
      have below : ∀ e ∈ elementsIn attr file source (some n) n.children,
          ∃ c ∈ n.children, ¬ TagFree c ∧ c.span.start < e.openingName.start ∧
            e.openingName.start ≤ c.span.stop := by
        intro e member
        rw [elementsIn_eq] at member
        obtain ⟨c, child, of_c⟩ := List.mem_flatMap.mp member
        refine ⟨c, child, fun free => ?_, (ih c child (some n)).bounds e of_c⟩
        rw [elementsAt_of_tagFree free] at of_c
        cases of_c
      have later := elementsIn_ordered placed.apart fun c child => ih c child (some n)
      have inner : ∀ e ∈ elementsIn attr file source (some n) n.children,
          n.span.start < e.openingName.start ∧ e.openingName.start ≤ n.span.stop := by
        intro e member
        obtain ⟨c, child, -, begins, ends⟩ := below e member
        have := placed.within c child
        omega
      cases made : elementOf? attr file source parent n with
      | none =>
          refine ⟨?_, ?_⟩
          · rwa [elementsAt_eq, made]
          · rwa [elementsAt_eq, made]
      | some e =>
          obtain ⟨k, name, -, opening⟩ := (elementOf?_describes made).name
          obtain ⟨begins, ordered, ends, ahead⟩ :=
            name_between (.mk here inside) (elementOf?_eq_some made).1 name
          refine ⟨?_, ?_⟩
          · rw [elementsAt_eq, made]
            refine List.pairwise_cons.mpr ⟨fun x member => ?_, later⟩
            obtain ⟨c, child, tagged, first, -⟩ := below x member
            have := ahead c child tagged
            unfold Element.Before
            rw [opening]
            omega
          · rw [elementsAt_eq, made]
            refine List.forall_mem_cons.mpr ⟨?_, inner⟩
            rw [opening]
            omega

section

variable {l : Language} (markup : l.hasMarkup = true)
  (faultless : (l.parse source).hasFault = false)

include markup faultless

theorem extended_of_faultless : ∀ n ∈ (l.parse source).children, n.Everywhere Node.Extended := by
  cases l with
  | javaScript | jsx | tsx => exact Syntax.parse_extended (Script.rules_visible _) faultless
  | typeScript | css => cases markup

theorem begun_of_faultless : (l.parse source).Everywhere Begun := by
  obtain ⟨d, derived⟩ := Language.parse_derived markup faultless
  have below := Script.begun_of_derived derived
  generalize l.parse source = tree at derived below
  obtain ⟨c, e, -, -, rfl⟩ := derived
  exact .mk (Script.begun_plain _ none _ _ rfl) below

theorem elementsAt_ordered :
    (elementsAt attr file source none (l.parse source)).Pairwise Element.Before := by
  have extended := extended_of_faultless markup faultless
  obtain ⟨d, derived⟩ := Language.parse_derived markup faultless
  have begun := Script.begun_of_derived derived
  have sound := sound_of_derived derived
  have none_above : elementOf? attr file source none (l.parse source) = none := by
    generalize l.parse source = tree at derived
    obtain ⟨c, e, -, -, rfl⟩ := derived
    rfl
  rw [elementsAt_eq, none_above]
  refine elementsIn_ordered derived.inOrder.1.apart fun n child => sequenced_of_everywhere ?_ _
  refine (((sound n child).and (begun n child)).and (extended n child)).imp ?_
  exact fun m both => ⟨both.1.1, both.1.2, both.2⟩

end

theorem scan_map {β : Type} (f : Element → β)
    (same : ∀ (e : Element) (i : Nat), f { e with ordinal := i } = f e) (tree : Node) :
    (scan attr file source tree).map f = (elementsAt attr file source none tree).map f :=
  List.ext_getElem (by simp [scan]) fun i _ _ => by simp [scan, same]

/-- A scan of a source without faults reports the tags with a name whose first class attribute is
set to a plain string and holds no comment, each once, in document order. Whatever is put in the
place of their names, and of what goes with these attributes, is accepted together. -/
theorem scan_reports {l : Language} (markup : l.hasMarkup = true) {source : String}
    (faultless : (l.parse source).hasFault = false) (attr : String) (file : Path) :
    let elements := scan attr file source (l.parse source)
    List.Forall₂ (Element.Describes attr file source) elements
      ((tagsAt (l.parse source)).filter (isStyled attr source)) ∧
    elements.map (·.ordinal) = List.range elements.length ∧
    elements.Pairwise Element.Before ∧
    (elements.flatMap Element.spans).Pairwise Span.Apart ∧
    (∀ s ∈ elements.flatMap Element.spans, s.Stands source.toList) ∧
    ∀ edits : List Edit, (edits.map (·.span)).Perm (elements.flatMap Element.spans) →
      ∃ set, EditSet.ofList edits source = .ok set := by
  intro elements
  obtain ⟨d, derived⟩ := Language.parse_derived markup faultless
  have ranges : (elements.flatMap Element.spans).Pairwise Span.Apart ∧
      ∀ s ∈ elements.flatMap Element.spans, s.Stands source.toList := scan_apart derived
  obtain ⟨spans_apart, stand⟩ := ranges
  refine ⟨?_, ?_, ?_, spans_apart, stand, ?_⟩
  · exact forall₂_mapIdx (elementsAt_describe (begun_of_faultless markup faultless) none) fun i => i
  · refine List.ext_getElem (by simp) fun i _ _ => ?_
    simp [elements, scan]
  · have names : (elements.map (·.openingName)).Pairwise fun a b => a.start < b.start := by
      rw [scan_map _ fun _ _ => rfl]
      exact List.pairwise_map.mpr (elementsAt_ordered markup faultless)
    rwa [List.pairwise_map] at names
  · intro edits perm
    refine EditSet.exists_ofList_iff.mpr ⟨?_, ?_⟩
    · intro e member
      exact stand _ (perm.mem_iff.mp (List.mem_map_of_mem member))
    · have all := (perm.pairwise_iff Span.Apart.symm).mpr spans_apart
      exact List.pairwise_map.mp all

def nestedSource : String :=
  "x = <a b=\x7b<i className=\"q\" />\x7d className=\"p\">é<b className=\x7by\x7d /></a>\n"

def nestedElements : List Element :=
  [⟨⟨"a.jsx"⟩, 0, "a", ⟨5, 6⟩, some ⟨68, 69⟩, ⟨"p", ⟨31, 44⟩, ⟨30, 44⟩⟩⟩,
    ⟨⟨"a.jsx"⟩, 1, "i", ⟨11, 12⟩, none, ⟨"q", ⟨13, 26⟩, ⟨12, 26⟩⟩⟩]

theorem nested_scan :
    (Language.jsx.parse nestedSource).hasFault = false ∧
    scan "className" ⟨"a.jsx"⟩ nestedSource (Language.jsx.parse nestedSource) = nestedElements ∧
    (tagsAt (Language.jsx.parse nestedSource)).map (isStyled "className" nestedSource) =
      [true, true, false] := by
  decide +kernel

theorem scan_reports_nested :
    (Language.jsx.parse nestedSource).hasFault = false ∧
    scan "className" ⟨"a.jsx"⟩ nestedSource (Language.jsx.parse nestedSource) = nestedElements ∧
    (tagsAt (Language.jsx.parse nestedSource)).map (isStyled "className" nestedSource) =
      [true, true, false] ∧
    nestedElements.Pairwise Element.Before ∧
    ∃ set, EditSet.ofList
      ((nestedElements.flatMap Element.spans).map fun s => ⟨s, "AStyle", "rename", 0⟩)
      nestedSource = .ok set := by
  obtain ⟨faultless, scanned, styled⟩ := nested_scan
  have reports := scan_reports (l := .jsx) rfl faultless "className" ⟨"a.jsx"⟩
  rw [scanned] at reports
  obtain ⟨-, -, before, -, -, accepted⟩ := reports
  refine ⟨faultless, scanned, styled, before, accepted _ ?_⟩
  rw [List.map_map]
  exact .of_eq (List.map_id _)

/-- A comment stands between the name of a class attribute and its string. -/
def commentedSource : String := "x = <a className=/* c */\"p\" />\n"

theorem commented_scan :
    (Language.jsx.parse commentedSource).hasFault = false ∧
    scan "className" ⟨"a.jsx"⟩ commentedSource (Language.jsx.parse commentedSource) = [] ∧
    ((tagsAt (Language.jsx.parse commentedSource)).filter fun t =>
      (classAttributes "className" commentedSource t).head?.any isPlain).length = 1 := by
  decide +kernel

/-- A plain string is not read behind a comment in its attribute. -/
theorem scan_misses_commented : ¬ ∀ (l : Language) (source attr : String) (file : Path),
    l.hasMarkup = true → (l.parse source).hasFault = false →
    List.Forall₂ (Element.Describes attr file source)
      (scan attr file source (l.parse source))
      ((tagsAt (l.parse source)).filter fun t =>
        (classAttributes attr source t).head?.any isPlain) := by
  intro always
  obtain ⟨faultless, scanned, one⟩ := commented_scan
  have all := (always .jsx commentedSource "className" ⟨"a.jsx"⟩ rfl faultless).length_eq
  rw [scanned, one] at all
  cases all

end Markup

end Restyle
