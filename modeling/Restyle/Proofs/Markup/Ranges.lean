import Mathlib.Data.List.Pairwise
import Mathlib.Data.Option.Basic
import Restyle.Markup.Scan
import Restyle.Proofs.Script.Tags
import Restyle.Proofs.Text.Cut
/-!
The ranges of the elements of a source: the names in their tags and what goes with a class
attribute. However elements are nested, no two of these ranges have a byte in common. A range of an
element lies in its tag, but for the closing name, which lies in a later child of the same parent;
and where a tag has its name or a plain class attribute, there is no other tag.
-/

namespace Restyle

namespace Markup

open Syntax (Node)
open Script (isTag isOpening TagFree Shaped)

def Element.spans (e : Element) : List Span :=
  e.openingName :: (e.closingName.toList ++ [e.classes.removal])

theorem Element.mem_spans_iff {e : Element} {s : Span} :
    s ∈ e.spans ↔ s = e.openingName ∨ e.closingName = some s ∨ s = e.classes.removal := by
  rw [spans, List.mem_cons, List.mem_append, List.mem_singleton, Option.mem_toList]

variable {attr : String} {file : Path} {source : String}

theorem findWithPrevious_eq_some {test : Node → Bool} {previous q : Option Node} {ns : List Node}
    {n : Node} (h : findWithPrevious test previous ns = some (q, n)) :
    ∃ before after, ns = before ++ n :: after ∧ q = before.getLast?.or previous ∧
      test n = true ∧ ∀ m ∈ before, test m = false := by
  induction ns generalizing previous with
  | nil => cases h
  | cons m ns ih =>
      unfold findWithPrevious at h
      split at h
      · rename_i passed
        cases h
        exact ⟨[], ns, rfl, rfl, passed, fun _ none => absurd none List.not_mem_nil⟩
      · rename_i failed
        obtain ⟨before, after, rfl, rfl, passed, first⟩ := ih h
        refine ⟨m :: before, after, rfl, ?_, passed,
          List.forall_mem_cons.mpr ⟨Bool.of_not_eq_true failed, first⟩⟩
        cases before with
        | nil => rfl
        | cons k before => rw [List.getLast?_cons_cons, List.getLast?_cons]; rfl

/-- A class attribute goes together with what stands between it and the child before it. -/
theorem classAttribute?_eq_some {tag : Node} {a : ClassAttribute}
    (h : classAttribute? attr source tag = some a) :
    ∃ before n after, tag.children = before ++ n :: after ∧
      n.role = some .attribute ∧ n.is "jsx_attribute" = true ∧
      (∃ c ∈ n.children, c.is "string" = true) ∧
      a.removal = ⟨(before.getLast?.map (·.span.stop)).getD n.span.start, n.span.stop⟩ := by
  simp only [classAttribute?, Option.bind_eq_bind, Option.bind_eq_some_iff, Option.pure_def,
    Option.guard_eq_some', Option.some.injEq, Prod.exists] at h
  obtain ⟨previous, n, found, value, second, -, string, rfl⟩ := h
  obtain ⟨before, after, parts, rfl, test, -⟩ := findWithPrevious_eq_some found
  rw [isClassAttribute, Bool.and_eq_true, Bool.and_eq_true, beq_iff_eq] at test
  have member := List.mem_of_getElem? second
  refine ⟨before, n, after, parts, test.1.1, test.1.2,
    ⟨value, (List.mem_filter.mp member).1, string⟩, ?_⟩
  rw [Option.or_none]
  cases before.getLast? <;> rfl

theorem childInRole?_eq_some {n c : Node} {r : Syntax.Role} (h : n.childInRole? r = some c) :
    c ∈ n.children ∧ c.role = some r := by
  unfold Node.childInRole? at h
  have role := List.find?_some h
  exact ⟨List.mem_of_find?_eq_some h, beq_iff_eq.mp role⟩

/-- Where the closing name of a tag lies: in what closes its parent, which is an element. -/
structure Closes (parent tag : Node) (s : Span) : Prop where
  opening : isOpening tag = true
  element : parent.is "jsx_element" = true
  name : ∃ z ∈ parent.children, z.role = some .closeTag ∧
    ∃ k ∈ z.children, k.role = some .name ∧ s = k.span

theorem closingName?_eq_some {parent tag : Node} {s : Span}
    (h : closingName? (some parent) tag = some s) : Closes parent tag s := by
  simp only [closingName?, Option.bind_eq_bind, Option.bind_eq_some_iff, Option.pure_def,
    Option.guard_eq_some', Option.some.injEq] at h
  obtain ⟨_, opening, _, rfl, _, element, z, closing, k, name, rfl⟩ := h
  obtain ⟨there, role⟩ := childInRole?_eq_some closing
  obtain ⟨inside, named⟩ := childInRole?_eq_some name
  exact ⟨opening, element, z, there, role, k, inside, named, rfl⟩

theorem elementOf?_eq_some {parent : Option Node} {tag : Node} {e : Element}
    (h : elementOf? attr file source parent tag = some e) :
    isTag tag = true ∧ e.closingName = closingName? parent tag ∧
      (∃ k ∈ tag.children, k.role = some .name ∧ e.openingName = k.span) ∧
      classAttribute? attr source tag = some e.classes := by
  simp only [elementOf?, Option.bind_eq_bind, Option.bind_eq_some_iff, Option.pure_def,
    Option.guard_eq_some', Option.some.injEq] at h
  obtain ⟨-, is_tag, k, name, classes, found, rfl⟩ := h
  obtain ⟨there, role⟩ := childInRole?_eq_some name
  exact ⟨is_tag, rfl, ⟨k, there, role, rfl⟩, found⟩

theorem elementsAt_eq (parent : Option Node) (n : Node) :
    elementsAt attr file source parent n = (elementOf? attr file source parent n).toList ++
      elementsIn attr file source (some n) n.children := by
  cases n
  rw [elementsAt]
  rfl

theorem elementsIn_eq (parent : Option Node) (ns : List Node) :
    elementsIn attr file source parent ns =
      ns.flatMap (elementsAt attr file source parent) := by
  induction ns with
  | nil => rfl
  | cons n ns ih => rw [elementsIn, List.flatMap_cons, ih]

theorem elementsAt_of_tagFree {n : Node} (h : TagFree n) (parent : Option Node) :
    elementsAt attr file source parent n = [] := by
  induction h generalizing parent with
  | @mk n here inside ih =>
      rw [elementsAt_eq, elementsIn_eq, List.append_eq_nil_iff, List.flatMap_eq_nil_iff]
      refine ⟨?_, fun c member => ih c member (some n)⟩
      cases made : elementOf? attr file source parent n with
      | none => rfl
      | some e =>
          rw [(elementOf?_eq_some made).1] at here
          cases here

/-- A node stands in the source as it should, and holds its tags as it should. -/
def Sound (source : List Char) (n : Node) : Prop := n.Placed source ∧ Shaped n

def spansAt (attr : String) (file : Path) (source : String) (parent n : Node) : List Span :=
  (elementsAt attr file source (some parent) n).flatMap Element.spans

/-- The ranges that belong to the tags below a node. -/
def spansIn (attr : String) (file : Path) (source : String) (n : Node) : List Span :=
  n.children.flatMap (spansAt attr file source n)

theorem spansAt_eq (n c : Node) : spansAt attr file source n c =
    (elementOf? attr file source (some n) c).toList.flatMap Element.spans ++
      spansIn attr file source c := by
  rw [spansAt, elementsAt_eq, elementsIn_eq, List.flatMap_append, List.flatMap_assoc]
  rfl

theorem mem_spansAt_iff {n c : Node} {s : Span} : s ∈ spansAt attr file source n c ↔
    (∃ e, elementOf? attr file source (some n) c = some e ∧ s ∈ e.spans) ∨
      s ∈ spansIn attr file source c := by
  rw [spansAt_eq, List.mem_append, List.mem_flatMap]
  simp only [Option.mem_toList]

/-- The place of a range that belongs to a tag below a node: in a child that is not the name of the
node, and, should the node be a tag, not in one without a tag. -/
def Home (n : Node) (s : Span) : Prop :=
  ∃ c ∈ n.children, c.role ≠ some .name ∧ s.Within c.span ∧ (isTag n = true → ¬ TagFree c)

structure Settled (attr : String) (file : Path) (source : String) (n : Node) : Prop where
  apart : (spansIn attr file source n).Pairwise Span.Apart
  home : ∀ s ∈ spansIn attr file source n, s.Stands source.toList ∧ Home n s

variable {n : Node}

theorem Home.within {s : Span} (h : Home n s) (placed : n.Placed source.toList) :
    s.Within n.span := by
  obtain ⟨c, member, -, within, -⟩ := h
  exact within.trans (placed.within c member)

theorem apart_of_ne {ns : List Node} (apart : ns.Pairwise fun a b => a.span.stop ≤ b.span.start)
    {a b : Node} (ha : a ∈ ns) (hb : b ∈ ns) (other : a ≠ b) : a.span.Apart b.span := by
  have symmetric : Std.Symm fun a b : Node => a.span.Apart b.span := ⟨fun _ _ => Span.Apart.symm⟩
  have all : ns.Pairwise fun a b => a.span.Apart b.span := apart.imp .inl
  exact all.forall ha hb other

theorem removal_apart {before after : List Node} {a : Node}
    (apart : (before ++ a :: after).Pairwise fun a b => a.span.stop ≤ b.span.start)
    (ordered : ∀ c ∈ before ++ a :: after, c.span.start ≤ c.span.stop) {c : Node}
    (member : c ∈ before ++ a :: after) (other : c ≠ a) :
    Span.Apart ⟨(before.getLast?.map (·.span.stop)).getD a.span.start, a.span.stop⟩ c.span := by
  rw [List.pairwise_append, List.pairwise_cons] at apart
  obtain ⟨first, ⟨later, -⟩, -⟩ := apart
  rcases List.mem_append.mp member with earlier | rest
  · right
    cases last : before.getLast? with
    | none =>
        rw [List.getLast?_eq_none_iff.mp last] at earlier
        cases earlier
    | some l =>
        obtain ⟨init, rfl⟩ := List.getLast?_eq_some_iff.mp last
        rcases List.mem_append.mp earlier with ahead | same
        · have := (List.pairwise_append.mp first).2.2 c ahead l List.mem_cons_self
          have := ordered l (List.mem_append_left _ (List.mem_append_right _ List.mem_cons_self))
          simp only [Option.map_some, Option.getD_some]
          omega
        · rw [List.mem_singleton.mp same]
          exact Nat.le_refl _
  · rcases List.mem_cons.mp rest with same | behind
    · exact absurd same other
    · exact .inl (later c behind)

theorem removal_within (placed : n.Placed source.toList)
    (inside : ∀ c ∈ n.children, c.Placed source.toList) {before after : List Node} {a : Node}
    (parts : n.children = before ++ a :: after) {removal : Span}
    (removes : removal = ⟨(before.getLast?.map (·.span.stop)).getD a.span.start, a.span.stop⟩) :
    removal.Within n.span ∧ removal.Stands source.toList := by
  have member : a ∈ n.children := by
    rw [parts]
    exact List.mem_append_right _ List.mem_cons_self
  have own := inside a member
  rw [removes]
  cases last : before.getLast? with
  | none => exact ⟨placed.within a member, own.ordered, own.start, own.stop⟩
  | some l =>
      obtain ⟨init, rfl⟩ := List.getLast?_eq_some_iff.mp last
      have previous : l ∈ n.children := by
        rw [parts]
        exact List.mem_append_left _ (List.mem_append_right _ List.mem_cons_self)
      have ahead := inside l previous
      have next : l.span.stop ≤ a.span.start := by
        have apart := placed.apart
        rw [parts] at apart
        exact (List.pairwise_append.mp apart).2.2 l
          (List.mem_append_right _ List.mem_cons_self) a List.mem_cons_self
      exact ⟨⟨Nat.le_trans (placed.within l previous).1 ahead.ordered, (placed.within a member).2⟩,
        Nat.le_trans next own.ordered, ahead.stop, own.stop⟩

section

variable {parent : Node} {e : Element} (made : elementOf? attr file source (some parent) n = some e)
  (here : Sound source.toList n) (inside : ∀ c ∈ n.children, Sound source.toList c)

include made here inside

theorem own_within : (e.openingName.Within n.span ∧ e.openingName.Stands source.toList) ∧
    e.classes.removal.Within n.span ∧ e.classes.removal.Stands source.toList := by
  obtain ⟨-, -, ⟨k, there, -, opening⟩, found⟩ := elementOf?_eq_some made
  obtain ⟨before, a, after, parts, -, -, -, removal⟩ := classAttribute?_eq_some found
  have name := (inside k there).1
  rw [opening]
  exact ⟨⟨here.1.within k there, name.ordered, name.start, name.stop⟩,
    removal_within here.1 (fun c member => (inside c member).1) parts removal⟩

/-- The own ranges of a tag are apart from one another, and from what lies beside its name and
with some tag. -/
theorem own_apart : e.openingName.Apart e.classes.removal ∧ ∀ s, Home n s →
    e.openingName.Apart s ∧ e.classes.removal.Apart s := by
  obtain ⟨is_tag, -, ⟨k, there, name, opening⟩, found⟩ := elementOf?_eq_some made
  obtain ⟨before, a, after, parts, role, is, string, removal⟩ := classAttribute?_eq_some found
  have member_a : a ∈ n.children := by
    rw [parts]
    exact List.mem_append_right _ List.mem_cons_self
  have free : TagFree a :=
    .mk (Script.isTag_of_is is rfl) ((inside a member_a).2.plain is string)
  have apart := here.1.apart
  have ordered : ∀ c ∈ n.children, c.span.start ≤ c.span.stop := fun c m => (inside c m).1.ordered
  have gone : ∀ c ∈ n.children, c ≠ a → e.classes.removal.Apart c.span := by
    intro c member other
    rw [parts] at apart ordered member
    rw [removal]
    exact removal_apart apart ordered member other
  rw [opening]
  refine ⟨(gone k there ?_).symm, ?_⟩
  · rintro rfl
    rw [name] at role
    cases role
  · rintro s ⟨c, child, unnamed, within, tagged⟩
    refine ⟨?_, ?_⟩
    · refine (apart_of_ne apart there child ?_).of_within (.refl _) within
      rintro rfl
      exact unnamed name
    · refine (gone c child ?_).of_within (.refl _) within
      rintro rfl
      exact tagged is_tag free

end

/-- A range that belongs to a tag at or below a node, and is no closing name of the node itself. -/
def Held (attr : String) (file : Path) (source : String) (c : Node) (s : Span) : Prop :=
  isTag c = true ∧ s.Within c.span ∧ s.Stands source.toList ∨ s ∈ spansIn attr file source c

variable {c : Node}

theorem held_or_closes (h : c.Everywhere (Sound source.toList)) {s : Span}
    (member : s ∈ spansAt attr file source n c) :
    Held attr file source c s ∨ Closes n c s := by
  rcases mem_spansAt_iff.mp member with ⟨e, made, of_e⟩ | below
  · obtain ⟨⟨name, stands⟩, removal, stands'⟩ :=
      own_within made h.here fun k there => (h.inside k there).here
    obtain ⟨is_tag, closing, -, -⟩ := elementOf?_eq_some made
    rcases Element.mem_spans_iff.mp of_e with rfl | close | rfl
    · exact .inl (.inl ⟨is_tag, name, stands⟩)
    · exact .inr (closingName?_eq_some (closing ▸ close))
    · exact .inl (.inl ⟨is_tag, removal, stands'⟩)
  · exact .inl (.inr below)

section

variable (apart : n.children.Pairwise fun a b => a.span.stop ≤ b.span.start)
  (sound : ∀ c ∈ n.children, c.Everywhere (Sound source.toList))
  (settled : ∀ c ∈ n.children, Settled attr file source c)

include sound settled in
theorem Held.within {s : Span} (held : Held attr file source c s) (child : c ∈ n.children) :
    s.Within c.span := by
  rcases held with ⟨-, own, -⟩ | below
  · exact own
  · exact ((settled c child).home s below).2.within (sound c child).here.1

include apart sound settled in
/-- A closing name is apart from all that lies in the children: what closes an element is no tag,
and nothing in it lies in its name. -/
theorem Closes.apart_of_child {a b : Node} {s t : Span} (closes : Closes n a s)
    (child : b ∈ n.children) (held : Held attr file source b t) : s.Apart t := by
  obtain ⟨z, last, role, k, there, name, rfl⟩ := closes.name
  have placed := (sound z last).here.1
  by_cases same : b = z
  · -- What is held in the closing part itself lies beside its name.
    subst same
    rcases held with ⟨is_tag, -⟩ | below
    · rw [(sound b last).here.2.closing role] at is_tag
      cases is_tag
    · obtain ⟨c, member, unnamed, within, -⟩ := ((settled b last).home t below).2
      refine (apart_of_ne placed.apart there member ?_).of_within (.refl _) within
      rintro rfl
      exact unnamed name
  · have within := held.within sound settled child
    exact ((apart_of_ne apart child last same).of_within within (placed.within k there)).symm

include apart sound settled in
theorem spansAt_pairwise (child : c ∈ n.children) :
    (spansAt attr file source n c).Pairwise Span.Apart := by
  obtain ⟨below_apart, home⟩ := settled c child
  have here := (sound c child).here
  have inside := fun k member => ((sound c child).inside k member).here
  rw [spansAt_eq]
  cases made : elementOf? attr file source (some n) c with
  | none => exact below_apart
  | some e =>
      obtain ⟨is_tag, closing, -, -⟩ := elementOf?_eq_some made
      obtain ⟨⟨name, stands⟩, removal, stands'⟩ := own_within made here inside
      obtain ⟨own, others⟩ := own_apart made here inside
      have closes : ∀ s ∈ e.closingName.toList, Closes n c s := fun s member =>
        closingName?_eq_some (closing ▸ Option.mem_toList.mp member)
      have far : ∀ s ∈ e.closingName.toList, ∀ t, Held attr file source c t → s.Apart t :=
        fun s member t held => (closes s member).apart_of_child apart sound settled child held
      rw [Option.toList_some, List.flatMap_singleton, Element.spans]
      refine List.pairwise_append.mpr ⟨?_, below_apart, ?_⟩
      · refine List.pairwise_cons.mpr ⟨?_, List.pairwise_append.mpr ⟨?_, ?_, ?_⟩⟩
        · intro s member
          rcases List.mem_append.mp member with close | removed
          · exact (far s close _ (.inl ⟨is_tag, name, stands⟩)).symm
          · rw [List.mem_singleton.mp removed]
            exact own
        · cases e.closingName with
          | none => exact .nil
          | some s => exact List.pairwise_singleton _ _
        · exact List.pairwise_singleton _ _
        · intro s close t removed
          rw [List.mem_singleton.mp removed]
          exact far s close _ (.inl ⟨is_tag, removal, stands'⟩)
      · intro s member t below
        rcases List.mem_cons.mp member with rfl | rest
        · exact (others t (home t below).2).1
        · rcases List.mem_append.mp rest with close | removed
          · exact far s close t (.inr below)
          · rw [List.mem_singleton.mp removed]
            exact (others t (home t below).2).2

include apart sound settled in
theorem spansAt_apart {a b : Node} (ha : a ∈ n.children) (hb : b ∈ n.children)
    (before : a.span.stop ≤ b.span.start)
    (single : n.is "jsx_element" = true → isOpening a = true → isOpening b = false) {s t : Span}
    (of_a : s ∈ spansAt attr file source n a) (of_b : t ∈ spansAt attr file source n b) :
    s.Apart t := by
  rcases held_or_closes (sound a ha) of_a with held_a | closes_a
  · rcases held_or_closes (sound b hb) of_b with held_b | closes_b
    · exact Span.Apart.of_within (.inl before) (held_a.within sound settled ha)
        (held_b.within sound settled hb)
    · exact (closes_b.apart_of_child apart sound settled ha held_a).symm
  · rcases held_or_closes (sound b hb) of_b with held_b | closes_b
    · exact closes_a.apart_of_child apart sound settled hb held_b
    · have second := single closes_a.element closes_a.opening
      rw [closes_b.opening] at second
      cases second

include sound settled in
theorem home_of_mem {s : Span} (member : s ∈ spansIn attr file source n) :
    s.Stands source.toList ∧ Home n s := by
  obtain ⟨c, child, of_c⟩ := List.mem_flatMap.mp member
  have tagged : ¬ TagFree c := fun free => by
    rw [spansAt, elementsAt_of_tagFree free] at of_c
    cases of_c
  rcases held_or_closes (sound c child) of_c with held | closes
  · refine ⟨?_, c, child, ?_, held.within sound settled child, fun _ => tagged⟩
    · rcases held with ⟨-, -, stands⟩ | below
      · exact stands
      · exact ((settled c child).home s below).1
    · exact fun name => tagged ((sound c child).here.2.named name)
  · obtain ⟨z, last, role, k, there, name, rfl⟩ := closes.name
    have placed := ((sound z last).inside k there).here.1
    refine ⟨⟨placed.ordered, placed.start, placed.stop⟩, z, last, ?_,
      (sound z last).here.1.within k there, fun is_tag => ?_⟩
    · rw [role]
      nofun
    · rw [Script.isTag_of_is closes.element rfl] at is_tag
      cases is_tag

include apart sound settled in
theorem settled_of_children (shaped : Shaped n) : Settled attr file source n := by
  have single : n.children.Pairwise fun a b =>
      n.is "jsx_element" = true → isOpening a = true → isOpening b = false := by
    by_cases element : n.is "jsx_element" = true
    · exact (shaped.single element).imp fun h _ => h
    · exact List.pairwise_of_forall_mem_list fun _ _ _ _ is => absurd is element
  refine ⟨List.pairwise_flatMap.mpr ⟨?_, ?_⟩, fun s => home_of_mem sound settled⟩
  · exact fun c child => spansAt_pairwise apart sound settled child
  · refine (apart.and single).imp_of_mem ?_
    intro a b ha hb both s of_a t of_b
    exact spansAt_apart apart sound settled ha hb both.1 both.2 of_a of_b

end

theorem settled_of_everywhere (h : n.Everywhere (Sound source.toList)) :
    Settled attr file source n := by
  induction h with
  | @mk n here inside ih => exact settled_of_children here.1.apart inside ih here.2

theorem flatMap_spans_mapIdx (es : List Element) (f : Nat → Nat) :
    (es.mapIdx fun i e => { e with ordinal := f i }).flatMap Element.spans =
      es.flatMap Element.spans := by
  induction es generalizing f with
  | nil => rfl
  | cons e es ih =>
      rw [List.mapIdx_cons, List.flatMap_cons, List.flatMap_cons, ih fun i => f (i + 1)]
      rfl

section

variable {d : Script.Dialect} {tree : Node} (derived : tree.Derived (Script.grammar d) source.toList)

include derived

theorem sound_of_derived : ∀ c ∈ tree.children, c.Everywhere (Sound source.toList) := by
  obtain ⟨-, placed⟩ := derived.inOrder
  obtain ⟨-, below⟩ := Script.shaped_of_derived derived
  exact fun c member => (placed c member).and (below c member)

theorem scan_spans :
    (scan attr file source tree).flatMap Element.spans = spansIn attr file source tree := by
  have none_above : elementOf? attr file source none tree = none := by
    obtain ⟨c, e, -, -, rfl⟩ := derived
    rfl
  rw [scan, flatMap_spans_mapIdx _ fun i => i, elementsAt_eq, none_above, elementsIn_eq,
    Option.toList_none, List.nil_append, List.flatMap_assoc]
  rfl

/-- The ranges of the elements of a script without faults are apart from one another, and stand
between its characters. -/
theorem scan_apart :
    ((scan attr file source tree).flatMap Element.spans).Pairwise Span.Apart ∧
      ∀ s ∈ (scan attr file source tree).flatMap Element.spans, s.Stands source.toList := by
  have sound := sound_of_derived derived
  have settled : Settled attr file source tree :=
    settled_of_children derived.inOrder.1.apart sound
      (fun c member => settled_of_everywhere (sound c member)) (Script.shaped_of_derived derived).1
  rw [scan_spans derived]
  exact ⟨settled.apart, fun s member => (settled.home s member).1⟩

theorem scan_home {s : Span} (member : s ∈ (scan attr file source tree).flatMap Element.spans) :
    ∃ c ∈ tree.children, ¬ TagFree c ∧ s.Within c.span := by
  have sound := sound_of_derived derived
  rw [scan_spans derived] at member
  obtain ⟨c, child, of_c⟩ := List.mem_flatMap.mp member
  refine ⟨c, child, fun free => ?_, ?_⟩
  · rw [spansAt, elementsAt_of_tagFree free] at of_c
    cases of_c
  · rcases held_or_closes (sound c child) of_c with held | closes
    · exact held.within sound (fun k there => settled_of_everywhere (sound k there)) child
    · -- A whole script is no element, so that nothing closes it.
      have element := closes.element
      obtain ⟨_, _, -, -, rfl⟩ := derived
      cases element

end

end Markup

end Restyle
