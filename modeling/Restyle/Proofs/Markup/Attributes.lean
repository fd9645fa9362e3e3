import Restyle.Proofs.Markup.Ranges
/-!
The class attributes of the tags of a source, and which of them go with its elements. A scan takes
of each tag the first class attribute, where it is a plain string. The ranges of the elements take
these attributes away and no other one, however tags are nested in the attributes of other tags.
-/

namespace Restyle.Markup

open Syntax (Node)
open Script (isTag TagFree)

variable {attr : String} {file : Path} {source : String}

/-- The string that an attribute is set to, where it is set to one. -/
def literal? (source : String) (a : Node) : Option String :=
  ((a.namedChild? 1).filter (·.is "string")).map fun value =>
    String.ofList ((value.text source).toList.drop 1).dropLast

def classAttributes (attr source : String) (tag : Node) : List Node :=
  tag.children.filter (isClassAttribute attr source)

/-- The strings that the class attributes of a tag are set to, with `none` for one that is set to
something else. -/
def classTexts (attr source : String) (tag : Node) : List (Option String) :=
  (classAttributes attr source tag).map (literal? source)

def isNamedTag (n : Node) : Bool := isTag n && (n.childInRole? .name).isSome

mutual
/-- The tags with a name at a node and below it, in document order. -/
def tagsAt : Node → List Node
  | .mk k r s cs =>
    let n := Node.mk k r s cs
    (if isNamedTag n then [n] else []) ++ tagsIn cs

def tagsIn : List Node → List Node
  | [] => []
  | n :: ns => tagsAt n ++ tagsIn ns
end

theorem tagsAt_eq (n : Node) :
    tagsAt n = (if isNamedTag n then [n] else []) ++ tagsIn n.children := by
  cases n
  rw [tagsAt]
  rfl

theorem tagsIn_eq (ns : List Node) : tagsIn ns = ns.flatMap tagsAt := by
  induction ns with
  | nil => rfl
  | cons n ns ih => rw [tagsIn, List.flatMap_cons, ih]

theorem mem_tagsAt_iff {t n : Node} :
    t ∈ tagsAt n ↔ (t = n ∧ isNamedTag n = true) ∨ ∃ c ∈ n.children, t ∈ tagsAt c := by
  rw [tagsAt_eq, tagsIn_eq, List.mem_append, List.mem_flatMap]
  refine or_congr_left ?_
  split
  · rename_i named
    simp only [List.mem_singleton, named, and_true]
  · rename_i unnamed
    simp only [List.not_mem_nil, unnamed, and_false, Bool.false_eq_true]

theorem map_findWithPrevious (test : Node → Bool) (previous : Option Node) (ns : List Node) :
    (findWithPrevious test previous ns).map Prod.snd = (ns.filter test).head? := by
  induction ns generalizing previous with
  | nil => rfl
  | cons n ns ih =>
      unfold findWithPrevious
      split
      · rename_i passed
        rw [List.filter_cons_of_pos passed]
        rfl
      · rename_i failed
        rw [List.filter_cons_of_neg failed, ih]

section

variable (attr : String) (file : Path) (source : String)

theorem classAttribute?_value (tag : Node) :
    (classAttribute? attr source tag).map (·.value) = (classTexts attr source tag).head?.join := by
  rw [classTexts, List.head?_map, classAttributes, ← map_findWithPrevious _ none, classAttribute?]
  cases findWithPrevious (isClassAttribute attr source) none tag.children with
  | none => rfl
  | some found =>
      simp only [Option.bind_eq_bind, Option.bind_some, Option.map_some, Option.join_some, literal?]
      cases found.2.namedChild? 1 with
      | none => rfl
      | some value =>
          rw [Option.bind_some, Option.filter_some]
          cases value.is "string" <;> rfl

theorem elementOf?_value (parent : Option Node) (tag : Node) :
    (elementOf? attr file source parent tag).map (·.classes.value) =
      if isNamedTag tag then (classTexts attr source tag).head?.join else none := by
  rw [← classAttribute?_value, elementOf?, isNamedTag, isTag]
  cases tag.is "jsx_opening_element" || tag.is "jsx_self_closing_element" with
  | false => rfl
  | true =>
      cases tag.childInRole? .name with
      | none => rfl
      | some name => cases classAttribute? attr source tag <;> rfl

mutual
theorem elementsAt_values (parent : Option Node) (n : Node) :
    (elementsAt attr file source parent n).map (·.classes.value) =
      (tagsAt n).filterMap fun t => (classTexts attr source t).head?.join := by
  cases n with
  | mk k r s cs =>
      rw [elementsAt, tagsAt, List.map_append, List.filterMap_append,
        elementsIn_values (some (.mk k r s cs)) cs]
      refine congrArg (· ++ _) ?_
      rw [← Option.toList_map, elementOf?_value]
      split
      · rw [List.filterMap_cons]
        split
        · rename_i none_
          rw [none_]
          rfl
        · rename_i some_
          rw [some_]
          rfl
      · rfl

theorem elementsIn_values (parent : Option Node) (ns : List Node) :
    (elementsIn attr file source parent ns).map (·.classes.value) =
      (tagsIn ns).filterMap fun t => (classTexts attr source t).head?.join := by
  cases ns with
  | nil => rfl
  | cons n ns =>
      rw [elementsIn, tagsIn, List.map_append, List.filterMap_append, elementsAt_values parent n,
        elementsIn_values parent ns]
end

/-- A scan reports the tags whose first class attribute is a plain string. -/
theorem scan_values (tree : Node) : (scan attr file source tree).map (·.classes.value) =
    (tagsAt tree).filterMap fun t => (classTexts attr source t).head?.join := by
  rw [← elementsAt_values attr file source none, scan, List.mapIdx_eq_zipIdx_map, List.map_map]
  conv => rhs; rw [← List.zipIdx_map_fst 0 (elementsAt attr file source none tree), List.map_map]
  rfl

mutual
theorem exists_parent_of_mem {t : Node} (parent : Option Node) (n : Node) (there : t ∈ tagsAt n) :
    ∃ p, ∀ e, elementOf? attr file source p t = some e →
      e ∈ elementsAt attr file source parent n := by
  cases n with
  | mk k r s cs =>
      rw [tagsAt, List.mem_append] at there
      rw [elementsAt]
      rcases there with here | below
      · split at here
        · obtain rfl := List.mem_singleton.mp here
          exact ⟨parent, fun e made =>
            List.mem_append_left _ (Option.mem_toList.mpr made)⟩
        · cases here
      · obtain ⟨p, makes⟩ := exists_parent_of_mem_tagsIn (some (.mk k r s cs)) cs below
        exact ⟨p, fun e made => List.mem_append_right _ (makes e made)⟩

theorem exists_parent_of_mem_tagsIn {t : Node} (parent : Option Node) (ns : List Node)
    (there : t ∈ tagsIn ns) : ∃ p, ∀ e, elementOf? attr file source p t = some e →
      e ∈ elementsIn attr file source parent ns := by
  cases ns with
  | nil => cases there
  | cons n ns =>
      rw [tagsIn, List.mem_append] at there
      rw [elementsIn]
      rcases there with first | later
      · obtain ⟨p, makes⟩ := exists_parent_of_mem parent n first
        exact ⟨p, fun e made => List.mem_append_left _ (makes e made)⟩
      · obtain ⟨p, makes⟩ := exists_parent_of_mem_tagsIn parent ns later
        exact ⟨p, fun e made => List.mem_append_right _ (makes e made)⟩
end

end

variable {n t : Node}

theorem tagsAt_of_tagFree (h : TagFree n) : tagsAt n = [] := by
  induction h with
  | @mk n here inside ih =>
      rw [tagsAt_eq, tagsIn_eq, isNamedTag, here, Bool.false_and, if_neg Bool.false_ne_true,
        List.nil_append, List.flatMap_eq_nil_iff]
      exact ih

theorem everywhere_of_mem {P : Node → Prop} (h : n.Everywhere P) (member : t ∈ tagsAt n) :
    t.Everywhere P ∧ isNamedTag t = true := by
  induction h with
  | @mk n here inside ih =>
      rcases mem_tagsAt_iff.mp member with ⟨rfl, named⟩ | ⟨c, child, below⟩
      · exact ⟨.mk here inside, named⟩
      · exact ih c child below

theorem within_of_mem (h : n.Everywhere (Sound source.toList)) (member : t ∈ tagsAt n) :
    t.span.Within n.span := by
  induction h with
  | @mk n here inside ih =>
      rcases mem_tagsAt_iff.mp member with ⟨rfl, -⟩ | ⟨c, child, below⟩
      · exact .refl _
      · exact (ih c child below).trans (here.1.within c child)

/-- How a range of an element stands to a tag: apart from it, or its own, or inside of it. -/
def Beside (attr : String) (file : Path) (source : String) (t : Node) (s : Span) : Prop :=
  s.Apart t.span ∨
  (∃ parent e, elementOf? attr file source parent t = some e ∧
    (s = e.openingName ∨ s = e.classes.removal)) ∨
  s ∈ spansIn attr file source t

section

variable (apart : n.children.Pairwise fun a b => a.span.stop ≤ b.span.start)
  (sound : ∀ c ∈ n.children, c.Everywhere (Sound source.toList))

include apart sound

theorem Closes.apart_of_tag {a c : Node} {s : Span} (closes : Closes n a s)
    (child : c ∈ n.children) (member : t ∈ tagsAt c) : s.Apart t.span := by
  obtain ⟨z, last, role, k, there, name, rfl⟩ := closes.name
  have placed := (sound z last).here.1
  by_cases same : c = z
  · subst same
    rcases mem_tagsAt_iff.mp member with ⟨rfl, named⟩ | ⟨d, inside, below⟩
    · rw [isNamedTag, (sound t last).here.2.closing role] at named
      cases named
    · refine (apart_of_ne placed.apart there inside ?_).of_within (.refl _)
        (within_of_mem ((sound c last).inside d inside) below)
      rintro rfl
      rw [tagsAt_of_tagFree (((sound c last).inside k there).here.2.named name)] at below
      cases below
  · exact (apart_of_ne apart last child (Ne.symm same)).of_within (placed.within k there)
      (within_of_mem (sound c child) member)

theorem beside_of_own {c : Node} (child : c ∈ n.children) (in_c : t ∈ tagsAt c) {e : Element}
    (made : elementOf? attr file source (some n) c = some e) {s : Span} (of_e : s ∈ e.spans) :
    Beside attr file source t s := by
  obtain ⟨-, closing, -, -⟩ := elementOf?_eq_some made
  have others := (own_apart made (sound c child).here
    fun k there => ((sound c child).inside k there).here).2
  have far : e.closingName = some s → s.Apart t.span := fun close =>
    (closingName?_eq_some (closing ▸ close)).apart_of_tag apart sound child in_c
  rcases mem_tagsAt_iff.mp in_c with ⟨rfl, -⟩ | ⟨d, inside, in_d⟩
  · -- The tag is the one of the element.
    rcases Element.mem_spans_iff.mp of_e with rfl | close | rfl
    · exact .inr (.inl ⟨some n, e, made, .inl rfl⟩)
    · exact .inl (far close)
    · exact .inr (.inl ⟨some n, e, made, .inr rfl⟩)
  · -- The tag lies in the one of the element, in a child with a tag.
    have tagged : ¬ TagFree d := fun free => by
      rw [tagsAt_of_tagFree free] at in_d
      cases in_d
    have deeper := (sound c child).inside d inside
    obtain ⟨from_name, from_removal⟩ := others t.span ⟨d, inside,
      fun name => tagged (deeper.here.2.named name), within_of_mem deeper in_d, fun _ => tagged⟩
    rcases Element.mem_spans_iff.mp of_e with rfl | close | rfl
    · exact .inl from_name
    · exact .inl (far close)
    · exact .inl from_removal

theorem beside_of_children (below : ∀ c ∈ n.children, ∀ t ∈ tagsIn c.children,
      ∀ s ∈ spansIn attr file source c, Beside attr file source t s) :
    ∀ t ∈ tagsIn n.children, ∀ s ∈ spansIn attr file source n, Beside attr file source t s := by
  have settled : ∀ c ∈ n.children, Settled attr file source c :=
    fun c child => settled_of_everywhere (sound c child)
  intro t there s member
  rw [tagsIn_eq] at there
  obtain ⟨c, child, in_c⟩ := List.mem_flatMap.mp there
  obtain ⟨b, child_b, of_b⟩ := List.mem_flatMap.mp member
  by_cases same : b = c
  · subst same
    rcases mem_spansAt_iff.mp of_b with ⟨e, made, of_e⟩ | inner
    · exact beside_of_own apart sound child in_c made of_e
    · rcases mem_tagsAt_iff.mp in_c with ⟨rfl, -⟩ | ⟨d, inside, in_d⟩
      · exact .inr (.inr inner)
      · refine below b child t ?_ s inner
        rw [tagsIn_eq]
        exact List.mem_flatMap.mpr ⟨d, inside, in_d⟩
  · rcases held_or_closes (sound b child_b) of_b with held | closes
    · exact .inl ((apart_of_ne apart child_b child same).of_within
        (held.within sound settled child_b) (within_of_mem (sound c child) in_c))
    · exact .inl (closes.apart_of_tag apart sound child in_c)

end

theorem beside_of_everywhere (h : n.Everywhere (Sound source.toList)) :
    ∀ t ∈ tagsIn n.children, ∀ s ∈ spansIn attr file source n, Beside attr file source t s := by
  induction h with
  | @mk n here inside ih => exact beside_of_children here.1.apart inside ih

theorem start_lt_stop_of_text {m : Node} (text : m.text source ≠ "") :
    m.span.start < m.span.stop := by
  by_contra empty
  refine text (congrArg String.ofList ?_)
  exact Text.slice_of_le (Nat.le_of_not_lt empty) _

theorem exists_name_of_isClassAttribute {a : Node} (h : isClassAttribute attr source a = true) :
    a.role = some .attribute ∧ a.is "jsx_attribute" = true ∧
      ∃ m ∈ a.children, m.is "property_identifier" = true ∧ m.text source = attr := by
  rw [isClassAttribute, Bool.and_eq_true, Bool.and_eq_true, beq_iff_eq] at h
  obtain ⟨⟨role, is⟩, test⟩ := h
  refine ⟨role, is, ?_⟩
  cases first : a.namedChild? 0 with
  | none =>
      rw [first] at test
      cases test
  | some m =>
      rw [first] at test
      obtain ⟨name, text⟩ := Bool.and_eq_true_iff.mp test
      exact ⟨m, (List.mem_filter.mp (List.mem_of_getElem? first)).1, name, beq_iff_eq.mp text⟩

theorem extended_of_mem (sound : t.Everywhere (Sound source.toList)) {a : Node}
    (member : a ∈ classAttributes attr source t) (proper : attr ≠ "") :
    a.span.start < a.span.stop := by
  obtain ⟨child, passed⟩ := List.mem_filter.mp member
  obtain ⟨-, -, m, there, -, text⟩ := exists_name_of_isClassAttribute passed
  obtain ⟨begins, ends⟩ := (sound.inside a child).here.1.within m there
  have extended := start_lt_stop_of_text (text ▸ proper)
  omega

theorem exists_child_of_mem (sound : ∀ c ∈ n.children, c.Everywhere (Sound source.toList))
    (other : n.is "jsx_element" = false) {s : Span} (member : s ∈ spansIn attr file source n) :
    ∃ c ∈ n.children, s ∈ spansAt attr file source n c ∧ s.Within c.span := by
  obtain ⟨c, child, of_c⟩ := List.mem_flatMap.mp member
  rcases held_or_closes (sound c child) of_c with held | closes
  · exact ⟨c, child, of_c,
      held.within sound (fun c child => settled_of_everywhere (sound c child)) child⟩
  · rw [closes.element] at other
    cases other

section

variable (sound : t.Everywhere (Sound source.toList))
  (bare : t.Everywhere (Node.Bare "property_identifier")) {a : Node}
  (member : a ∈ classAttributes attr source t)

include sound bare member

/-- No range that belongs to a tag inside of a tag takes up a class attribute of the outer one: the
name of the attribute would lie beside itself, first in the tag, then in the attribute. -/
theorem not_within_of_mem_spansIn (is_tag : isTag t = true) (proper : attr ≠ "") {s : Span}
    (inside : s ∈ spansIn attr file source t) : ¬ a.span.Within s := by
  intro within
  obtain ⟨child, passed⟩ := List.mem_filter.mp member
  obtain ⟨-, is, m, there, name, text⟩ := exists_name_of_isClassAttribute passed
  have extended := start_lt_stop_of_text (text ▸ proper)
  have sound_a := sound.inside a child
  have own : m.span.Within a.span := sound_a.here.1.within m there
  have tag_is : t.is "jsx_element" = false := Bool.eq_false_iff.mpr fun element => by
    rw [Script.isTag_of_is element rfl] at is_tag
    cases is_tag
  obtain ⟨c, child_c, of_c, within_c⟩ := exists_child_of_mem sound.inside tag_is inside
  by_cases same : c = a
  · subst same
    have inner : s ∈ spansIn attr file source c := by
      rcases mem_spansAt_iff.mp of_c with ⟨e, made, -⟩ | inner
      · have attribute_is_tag := (elementOf?_eq_some made).1
        rw [Script.isTag_of_is is rfl] at attribute_is_tag
        cases attribute_is_tag
      · exact inner
    have attribute_is : c.is "jsx_element" = false := Script.is_eq_false (by
      rw [beq_iff_eq.mp is]
      decide)
    obtain ⟨d, child_d, of_d, within_d⟩ := exists_child_of_mem sound_a.inside attribute_is inner
    have other : d ≠ m := by
      rintro rfl
      have free : TagFree d := .mk (Script.isTag_of_is name rfl) (by
        rw [((bare.inside c child).inside d there).here name]
        exact fun _ none => absurd none List.not_mem_nil)
      rw [spansAt, elementsAt_of_tagFree free] at of_d
      cases of_d
    exact (apart_of_ne sound_a.here.1.apart child_d there other).not_both extended
      (own.trans (within.trans within_d)) (.refl _)
  · exact (apart_of_ne sound.here.1.apart child_c child same).not_both extended
      (own.trans (within.trans within_c)) own

/-- A range that takes up a class attribute of a tag is the one that goes with the class attribute
of the element of this tag. -/
theorem removal_of_within (is_tag : isTag t = true) (proper : attr ≠ "") {s : Span}
    (beside : Beside attr file source t s) (within : a.span.Within s) :
    ∃ c, classAttribute? attr source t = some c ∧ s = c.removal := by
  obtain ⟨child, passed⟩ := List.mem_filter.mp member
  obtain ⟨role, -, m, there, -, text⟩ := exists_name_of_isClassAttribute passed
  have extended := start_lt_stop_of_text (text ▸ proper)
  have own : m.span.Within a.span := (sound.inside a child).here.1.within m there
  rcases beside with apart | ⟨parent, e, made, rfl | rfl⟩ | inside
  · exact (apart.not_both extended (own.trans within)
      (own.trans (sound.here.1.within a child))).elim
  · obtain ⟨-, -, ⟨k, child_k, name, opening⟩, -⟩ := elementOf?_eq_some made
    have other : k ≠ a := by
      rintro rfl
      rw [name] at role
      cases role
    rw [opening] at within
    exact ((apart_of_ne sound.here.1.apart child_k child other).not_both extended
      (own.trans within) own).elim
  · exact ⟨e.classes, (elementOf?_eq_some made).2.2.2, rfl⟩
  · exact absurd within (not_within_of_mem_spansIn sound bare member is_tag proper inside)

end

/-- The first class attribute of a tag, where it is a plain string, goes with what stands between it
and the child before it. -/
theorem classAttribute?_first {c : ClassAttribute}
    (h : classAttribute? attr source t = some c) : ∃ before a after,
      t.children = before ++ a :: after ∧
      classAttributes attr source t = a :: after.filter (isClassAttribute attr source) ∧
      literal? source a = some c.value ∧
      c.removal = ⟨(before.getLast?.map (·.span.stop)).getD a.span.start, a.span.stop⟩ := by
  have value := classAttribute?_value attr source t
  rw [h, classTexts, List.head?_map, Option.map_some] at value
  simp only [classAttribute?, Option.bind_eq_bind, Option.bind_eq_some_iff, Option.pure_def,
    Option.guard_eq_some', Option.some.injEq, Prod.exists] at h
  obtain ⟨previous, a, found, v, second, -, string, rfl⟩ := h
  obtain ⟨before, after, parts, rfl, test, first⟩ := findWithPrevious_eq_some found
  have attributes : classAttributes attr source t =
      a :: after.filter (isClassAttribute attr source) := by
    rw [classAttributes, parts, List.filter_append,
      List.filter_eq_nil_iff.mpr fun m member => by rw [first m member]; exact Bool.false_ne_true,
      List.nil_append, List.filter_cons_of_pos test]
  refine ⟨before, a, after, parts, attributes, ?_, ?_⟩
  · rw [attributes, List.head?_cons, Option.map_some, Option.join_some] at value
    exact value.symm
  · rw [Option.or_none]
    cases before.getLast? <;> rfl

/-- What is left of the class attributes of a tag when its element goes. -/
def unstyled : List (Option String) → List (Option String)
  | some _ :: texts => texts
  | texts => texts

theorem unstyled_of_none {texts : List (Option String)} (h : texts.head?.join = none) :
    unstyled texts = texts := by
  cases texts with
  | nil => rfl
  | cons text texts =>
      cases text with
      | none => rfl
      | some text => cases h

theorem exists_scanned (file : Path) {tree : Node} (there : t ∈ tagsAt tree)
    (named : isNamedTag t = true) {c : ClassAttribute}
    (found : classAttribute? attr source t = some c) :
    ∃ e ∈ scan attr file source tree, e.classes = c := by
  obtain ⟨parent, makes⟩ := exists_parent_of_mem attr file source none tree there
  have value := elementOf?_value attr file source parent t
  rw [if_pos named, ← classAttribute?_value, found, Option.map_some,
    Option.map_eq_some_iff] at value
  obtain ⟨e, made, -⟩ := value
  obtain ⟨i, at_, rfl⟩ := List.mem_iff_getElem.mp (makes e made)
  have same := (elementOf?_eq_some made).2.2.2
  rw [found] at same
  refine ⟨_, List.mem_mapIdx.mpr ⟨i, at_, rfl⟩, ?_⟩
  exact (Option.some.inj same).symm

section

variable {d : Script.Dialect} {tree : Node}
  (derived : tree.Derived (Script.grammar d) source.toList)

include derived

theorem bare_of_derived :
    ∀ c ∈ tree.children, c.Everywhere (Node.Bare "property_identifier") := by
  refine derived.bare (Script.rules_framed d) fun r => ?_
  obtain ⟨typed, markup⟩ := d
  cases typed <;> cases markup <;> cases r <;> rfl

theorem tagsAt_derived : tagsAt tree = tagsIn tree.children := by
  obtain ⟨c, e, -, -, rfl⟩ := derived
  exact tagsAt_eq _

section

variable (proper : attr ≠ "") {gone : Node → Bool}
  (takes : ∀ e ∈ scan attr file source tree, ∀ a : Node,
    a.span.Within e.classes.removal → gone a = true)
  (only : ∀ a : Node, gone a = true → a.span.start < a.span.stop →
    ∃ s ∈ (scan attr file source tree).flatMap Element.spans, a.span.Within s)
  (there : t ∈ tagsAt tree)

include there in
theorem everywhere_of_mem_tagsAt {P : Node → Prop} (h : ∀ c ∈ tree.children, c.Everywhere P) :
    t.Everywhere P ∧ isNamedTag t = true := by
  rw [tagsAt_derived derived, tagsIn_eq] at there
  obtain ⟨c, child, in_c⟩ := List.mem_flatMap.mp there
  exact everywhere_of_mem (h c child) in_c

include proper only there in
/-- Only the class attribute of the element of a tag can go. -/
theorem own_of_gone {a : Node} (member : a ∈ classAttributes attr source t)
    (goes : gone a = true) :
    ∃ r, classAttribute? attr source t = some r ∧ a.span.Within r.removal := by
  obtain ⟨sound, named⟩ := everywhere_of_mem_tagsAt derived there (sound_of_derived derived)
  obtain ⟨bare, -⟩ := everywhere_of_mem_tagsAt derived there (bare_of_derived derived)
  obtain ⟨s, range, within⟩ := only a goes (extended_of_mem sound member proper)
  have beside := beside_of_children derived.inOrder.1.apart (sound_of_derived derived)
    (fun c child => beside_of_everywhere (sound_of_derived derived c child)) t
    (tagsAt_derived derived ▸ there) s (scan_spans derived ▸ range)
  obtain ⟨r, found, rfl⟩ := removal_of_within sound bare member
    (Bool.and_eq_true_iff.mp named).1 proper beside within
  exact ⟨r, found, within⟩

include proper takes only there in
/-- The class attribute of the element of a tag is the first one of the tag, and the only one that
goes. -/
theorem gone_first {r : ClassAttribute} (found : classAttribute? attr source t = some r) :
    ∃ a as, classAttributes attr source t = a :: as ∧ literal? source a = some r.value ∧
      gone a = true ∧ ∀ b ∈ as, gone b = false := by
  obtain ⟨sound, named⟩ := everywhere_of_mem_tagsAt derived there (sound_of_derived derived)
  obtain ⟨before, a, after, parts, attributes, text, removal⟩ := classAttribute?_first found
  obtain ⟨e, scanned, rfl⟩ := exists_scanned file there named found
  have apart := sound.here.1.apart
  rw [parts, List.pairwise_append, List.pairwise_cons] at apart
  obtain ⟨-, ⟨behind, -⟩, ahead⟩ := apart
  refine ⟨a, _, attributes, text, takes e scanned a ?_, ?_⟩
  · rw [removal]
    refine ⟨?_, Nat.le_refl _⟩
    cases last : before.getLast? with
    | none => exact Nat.le_refl _
    | some l => exact ahead l (List.mem_of_getLast? last) a List.mem_cons_self
  · intro b member
    have member_t : b ∈ classAttributes attr source t := by
      rw [attributes]
      exact List.mem_cons_of_mem _ member
    refine Bool.eq_false_iff.mpr fun goes => ?_
    obtain ⟨r, found', -, ends⟩ := own_of_gone derived proper only there member_t goes
    obtain rfl := Option.some.inj (found.symm.trans found')
    have later := behind b (List.mem_filter.mp member).1
    have extended := extended_of_mem sound member_t proper
    rw [removal] at ends
    dsimp only at ends
    omega

include proper takes only there in
/-- If the class attributes of the elements go, and nothing goes that no range of an element takes
up, then a tag keeps its class attributes, but for a first one that is a plain string. -/
theorem kept_classTexts : ((classAttributes attr source t).filter fun a => !gone a).map
    (literal? source) = unstyled (classTexts attr source t) := by
  have stay : ∀ as : List Node, (∀ a ∈ as, gone a = false) →
      as.filter (fun a => !gone a) = as := fun as none =>
    List.filter_eq_self.mpr fun a member => by rw [none a member, Bool.not_false]
  cases found : classAttribute? attr source t with
  | none =>
      have first := classAttribute?_value attr source t
      rw [found, Option.map_none] at first
      rw [stay _ fun a member => Bool.eq_false_iff.mpr fun goes => by
        obtain ⟨r, found', -⟩ := own_of_gone derived proper only there member goes
        rw [found] at found'
        cases found']
      exact (unstyled_of_none first.symm).symm
  | some r =>
      obtain ⟨a, as, attributes, text, goes, others⟩ :=
        gone_first derived proper takes only there found
      rw [classTexts, attributes, List.filter_cons_of_neg (by rw [goes]; decide), stay _ others,
        List.map_cons, text, unstyled]

end

end

end Restyle.Markup
