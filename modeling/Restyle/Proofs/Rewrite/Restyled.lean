import Restyle.Proofs.Rewrite.Constants
/-!
Restyling the constants of a script. Each constant with a class attribute takes the name of its
component and loses the attribute: what a scan finds in such a script, and what the changes make of
it.
-/

namespace Restyle.Script

open Component (Collection Styled)
open Markup (Element attributesOf elementsIn shown tagsIn)
open Rewrite (elementChanges elementEdits)
open Syntax (Node)
open Text (byteLength byteLength_append byteLength_cons byteLength_nil)

/-- A constant with another tag and other attributes. -/
def Constant.restyled (c : Constant) (tag : List Char) (isWord : IsWord tag)
    (attributes : List Attribute) : Constant :=
  { c with tag := tag, attributes := attributes, tag_isWord := isWord }

/-- Constants of which each with a class attribute takes the name of its component and loses the
attribute, and the elements that are replaced, with their components. The first constant begins at
`start`. -/
inductive Restyled (attr : String) (file : Path) (components : Collection) :
    Nat → List Constant → List Constant → List (Element × Styled) → Prop
  | nil (start : Nat) : Restyled attr file components start [] [] []
  | plain {start : Nat} {c : Constant} {cs cs' : List Constant} {bound : List (Element × Styled)}
      (others : ∀ a ∈ c.attributes, String.ofList a.name ≠ attr)
      (later : Restyled attr file components (start + byteLength c.text + 1) cs cs' bound) :
      Restyled attr file components start (c :: cs) (c :: cs') bound
  | styled {start : Nat} {c : Constant} {cs cs' : List Constant} {bound : List (Element × Styled)}
      {pre post : List Attribute} {a : Attribute} {s : Styled}
      (parts : c.attributes = pre ++ a :: post)
      (others : ∀ b ∈ pre, String.ofList b.name ≠ attr) (own : String.ofList a.name = attr)
      (found : components.find? file (String.ofList a.value) = some s)
      (isWord : IsWord s.name.toList)
      (later : Restyled attr file components (start + byteLength c.text + 1) cs cs' bound) :
      Restyled attr file components start (c :: cs)
        (c.restyled s.name.toList isWord (pre ++ post) :: cs')
        ((c.element file (c.tagStart start) pre a, s) :: bound)

section

variable {attr : String} {file : Path} {source : String} {components : Collection} {start : Nat}
  {cs cs' : List Constant} {bound : List (Element × Styled)}

/-- A scan finds the elements that are replaced. -/
theorem Restyled.elementsIn_nodesAt (h : Restyled attr file components start cs cs' bound)
    (stands : StandsAt source.toList start (script cs)) (parent : Option Node) :
    elementsIn attr file source parent (nodesAt start cs) = bound.map Prod.fst := by
  induction h with
  | nil => rfl
  | @plain start c cs cs' bound others later ih =>
      rw [script_cons] at stands
      obtain ⟨p, only⟩ := c.elementsAt_node attr file source parent start
      rw [nodesAt, elementsIn, only, c.elementOf?_none p others stands.tag, ih stands.right.behind]
      rfl
  | @styled start c cs cs' bound pre post a s parts others own found isWord later ih =>
      rw [script_cons] at stands
      obtain ⟨p, only⟩ := c.elementsAt_node attr file source parent start
      rw [nodesAt, elementsIn, only, c.elementOf?_some p parts others own stands.tag,
        ih stands.right.behind]
      rfl

theorem Restyled.scan_eq (h : Restyled attr file components start cs cs' bound)
    (stands : StandsAt source.toList start (script cs)) (span : Span) :
    Markup.scan attr file source (.mk (.category "program") none span (nodesAt start cs)) =
      (bound.map Prod.fst).mapIdx fun i e => { e with ordinal := i } := by
  rw [← h.elementsIn_nodesAt stands]
  rfl

theorem Restyled.found (h : Restyled attr file components start cs cs' bound) :
    ∀ p ∈ bound, components.find? file p.1.classes.value = some p.2 := by
  induction h with
  | nil => exact fun p member => absurd member List.not_mem_nil
  | plain _ _ ih => exact ih
  | styled _ _ _ found _ _ ih => exact List.forall_mem_cons.mpr ⟨found, ih⟩

theorem Restyled.edits (h : Restyled attr file components start cs cs' bound)
    (stands : StandsAt source.toList start (script cs)) (span : Span) :
    Rewrite.editsFor attr file components
        (Markup.scan attr file source (.mk (.category "program") none span (nodesAt start cs))) =
      .ok (bound.flatMap fun p => elementEdits attr p.1 p.2) := by
  refine Rewrite.editsFor_eq_ok_iff.mpr
    ⟨bound.mapIdx fun i p => ({ p.1 with ordinal := i }, p.2), ?_, ?_, ?_⟩
  · rw [h.scan_eq stands]
    exact List.ext_getElem (by simp) fun i _ _ => by simp
  · intro p member
    obtain ⟨i, small, rfl⟩ := List.mem_mapIdx.mp member
    exact h.found bound[i] (List.getElem_mem small)
  · rw [List.mapIdx_eq_zipIdx_map, List.flatMap_map]
    conv => lhs; rw [← List.zipIdx_map_fst 0 bound, List.flatMap_map]
    rfl

/-- The changes of the elements turn the script into the restyled one. -/
theorem Restyled.spliced (h : Restyled attr file components start cs cs' bound) :
    Spliced start (bound.flatMap fun p => elementChanges p.1 p.2) (script cs) (script cs') := by
  induction h with
  | nil start => exact .rest start _
  | @plain start c cs cs' bound others later ih =>
      have line : Spliced (start + byteLength c.text)
          (bound.flatMap fun p => elementChanges p.1 p.2) (['\n'] ++ script cs)
          (['\n'] ++ script cs') := .front ih
      rw [script_cons, script_cons]
      exact .front line
  | @styled start c cs cs' bound pre post a s parts others own found isWord later ih =>
      let front := constWord ++ ' ' :: (c.name ++ [' ', '=', ' ', '<'])
      let behind := attributesText post ++ [' ', '/', '>', ';', '\n']
      have old : script (c :: cs) = front ++ (c.tag ++ (attributesText pre ++ (a.text ++
          (behind ++ script cs)))) := by
        simp [script_cons, Constant.text, Constant.declaratorText, Constant.tagText, parts,
          attributesText, front, behind]
      have new : script (c.restyled s.name.toList isWord (pre ++ post) :: cs') = front ++
          (s.name.toList ++ (attributesText pre ++ ("".toList ++ (behind ++ script cs')))) := by
        simp [script_cons, Constant.text, Constant.declaratorText, Constant.tagText,
          Constant.restyled, attributesText, front, behind]
      have place : c.tagStart start + 1 = start + byteLength front := by
        simp only [Constant.tagStart, front, byteLength_append, byteLength_cons, byteLength_nil,
          utf8Size_marks]
        omega
      have line : byteLength front + byteLength c.tag + byteLength (attributesText pre) +
          byteLength a.text + byteLength behind = byteLength c.text + 1 := by
        simp only [front, behind, Constant.text, Constant.declaratorText, Constant.tagText, parts,
          attributesText_append, attributesText_cons, byteLength_append, byteLength_cons,
          byteLength_nil, utf8Size_marks]
        omega
      have ends : c.tagStart start + 1 + byteLength c.tag + byteLength (attributesText pre) +
          byteLength a.text + byteLength behind = start + byteLength c.text + 1 := by omega
      rw [← ends] at ih
      rw [old, new]
      exact .change place rfl (.change rfl rfl (.front ih))

/-- The ranges of the elements lie behind the place where the constants begin. -/
theorem Restyled.extended (h : Restyled attr file components start cs cs' bound) :
    ∀ s ∈ bound.flatMap (·.1.spans), start < s.start ∧ s.start < s.stop := by
  induction h with
  | nil => exact fun s member => absurd member List.not_mem_nil
  | plain _ _ ih =>
      intro s member
      have := ih s member
      omega
  | @styled start c cs cs' bound pre post a s parts others own found isWord later ih =>
      have tag : byteLength c.tag ≠ 0 := fun empty =>
        c.tag_isWord.length_ne_zero (by rw [Text.byteLength_eq_zero.mp empty]; rfl)
      have text := a.byteLength_text
      rw [List.flatMap_cons, List.forall_mem_append]
      refine ⟨List.forall_mem_cons.mpr ⟨?_, List.forall_mem_singleton.mpr ?_⟩, ?_⟩
      · dsimp only [Constant.element, Constant.tagStart]
        omega
      · dsimp only [Constant.element, Constant.attributeSpan, Constant.attributesStart,
          Constant.tagStart]
        omega
      · intro t member
        have := ih t member
        omega

/-- Of the nodes that take up some text only those are taken away that lie within certain ranges. -/
def RemovesWithin (removes : Node → Bool) (spans : List Span) : Prop :=
  ∀ n, removes n = true → n.span.start < n.span.stop → ∃ s ∈ spans, n.span.Within s

/-- Attributes apart from all that is taken away stay. -/
theorem filter_attributeNodes {as : List Attribute} {removes : Node → Bool} {spans : List Span}
    (only : RemovesWithin removes spans)
    (apart : ∀ s ∈ spans, s.stop ≤ start ∨ start + byteLength (attributesText as) ≤ s.start) :
    (attributeNodes start as).filter (fun a => !removes a) = attributeNodes start as := by
  refine List.filter_eq_self.mpr fun n member => ?_
  rw [Bool.not_eq_true', Bool.eq_false_iff]
  intro removed
  have inside := span_of_mem_attributeNodes member
  obtain ⟨s, there, begins, ends⟩ := only n removed inside.2.1
  have := apart s there
  omega

/-- Where all of one attribute of a constant is taken away, and nothing of its neighbours, these are
shown. -/
theorem Constant.map_shown_neighbours (c : Constant) {pre post : List Attribute} {a : Attribute}
    {removes : Node → Bool} {spans : List Span} (parts : c.attributes = pre ++ a :: post)
    (stands : StandsAt source.toList start c.tagText)
    (taken : ∀ n : Node, n.span.Within (c.attributeSpan start pre a) → removes n = true)
    (only : RemovesWithin removes spans)
    (apart : ∀ s ∈ spans, s.stop ≤ c.attributesStart start ∨ s = c.attributeSpan start pre a ∨
      c.attributesStart start + byteLength (attributesText c.attributes) ≤ s.start) :
    ((attributesOf (c.tagNode start)).filter fun n => !removes n).map (shown source) =
      (pre ++ post).map Attribute.shows := by
  let own := c.attributeSpan start pre a
  have stands := stands.attributes
  simp only [parts, attributesText_append, attributesText_cons, byteLength_append] at stands apart
  have size : own.start = c.attributesStart start + byteLength (attributesText pre) ∧
      own.stop = own.start + byteLength a.text := ⟨rfl, rfl⟩
  have places : ∀ s ∈ spans, s.stop ≤ c.attributesStart start ∨
      own.start = s.start ∧ own.stop = s.stop ∨
      own.stop + byteLength (attributesText post) ≤ s.start := by
    intro s member
    rcases apart s member with before | rfl | behind
    · exact .inl before
    · exact .inr (.inl ⟨rfl, rfl⟩)
    · exact .inr (.inr (by omega))
  have gone : removes (a.node own.start) = true := by
    refine taken _ ?_
    rw [a.span_node]
    exact ⟨Nat.le_succ _, Nat.le_refl _⟩
  have front : (attributeNodes (c.attributesStart start) pre).filter (fun a => !removes a) =
      attributeNodes (c.attributesStart start) pre :=
    filter_attributeNodes only fun s member => by
      have := places s member
      omega
  have back : (attributeNodes own.stop post).filter (fun a => !removes a) =
      attributeNodes own.stop post :=
    filter_attributeNodes only fun s member => by
      have := places s member
      omega
  have nodes : attributeNodes (c.attributesStart start) (pre ++ a :: post) =
      attributeNodes (c.attributesStart start) pre ++
        a.node own.start :: attributeNodes own.stop post :=
    attributeNodes_append _ pre (a :: post)
  have shown_back : (attributeNodes own.stop post).map (shown source) = post.map Attribute.shows :=
    map_shown_attributeNodes stands.right.right
  rw [attributesOf_tagNode, parts, nodes, List.filter_append, front,
    List.filter_cons_of_neg (by simp [gone]), back, List.map_append,
    map_shown_attributeNodes stands.left, shown_back, List.map_append]

/-- Of the attributes of a script those are taken away that the restyled one does not have. -/
theorem Restyled.map_shown_kept (h : Restyled attr file components start cs cs' bound)
    (stands : StandsAt source.toList start (script cs)) {removes : Node → Bool}
    {earlier : List Span} (before : ∀ s ∈ earlier, s.stop ≤ start)
    (takes : ∀ p ∈ bound, ∀ n : Node, n.span.Within p.1.classes.removal → removes n = true)
    (only : RemovesWithin removes (earlier ++ bound.flatMap (·.1.spans))) :
    (tagsIn (nodesAt start cs)).map
        (fun t => ((attributesOf t).filter fun a => !removes a).map (shown source)) =
      cs'.map fun c => c.attributes.map Attribute.shows := by
  induction h generalizing earlier with
  | nil => rfl
  | @plain start c cs cs' bound others later ih =>
      rw [script_cons] at stands
      obtain ⟨low, high⟩ := c.attributes_within start
      have kept : (attributeNodes (c.attributesStart (c.tagStart start)) c.attributes).filter
          (fun a => !removes a) =
            attributeNodes (c.attributesStart (c.tagStart start)) c.attributes := by
        refine filter_attributeNodes only (List.forall_mem_append.mpr ⟨?_, ?_⟩)
        · exact fun s member => .inl (Nat.le_trans (before s member) low)
        · intro s member
          have := (later.extended s member).1
          omega
      have behind := ih stands.right.behind
        (fun s member => Nat.le_trans (before s member) (by omega)) takes only
      rw [tagsIn_nodesAt_cons, List.map_cons, behind, attributesOf_tagNode, kept,
        map_shown_attributeNodes stands.tag.attributes, List.map_cons]
  | @styled start c cs cs' bound pre post a s parts others own found isWord later ih =>
      rw [script_cons] at stands
      obtain ⟨taken, takes⟩ := List.forall_mem_cons.mp takes
      let name : Span := ⟨c.tagStart start + 1, c.attributesStart (c.tagStart start)⟩
      let removal := c.attributeSpan (c.tagStart start) pre a
      have spans : (c.element file (c.tagStart start) pre a).spans = [name, removal] := rfl
      rw [List.flatMap_cons, ← List.append_assoc, spans] at only
      obtain ⟨low, high⟩ := c.attributes_within start
      have inside : c.attributesStart (c.tagStart start) ≤ removal.stop ∧
          removal.stop ≤ start + byteLength c.text := by
        rw [parts, attributesText_append, attributesText_cons, byteLength_append,
          byteLength_append] at high
        dsimp only [removal, Constant.attributeSpan]
        omega
      have ended : ∀ t ∈ earlier ++ [name, removal], t.stop ≤ start + byteLength c.text + 1 := by
        simp only [List.forall_mem_append, List.forall_mem_cons]
        refine ⟨fun t old => ?_, Nat.le_trans inside.1 (Nat.le_succ_of_le inside.2),
          Nat.le_succ_of_le inside.2, fun _ h => absurd h List.not_mem_nil⟩
        exact Nat.le_trans (before t old) (by omega)
      have kept := c.map_shown_neighbours (a := a) parts stands.tag taken only (by
        simp only [List.forall_mem_append, List.forall_mem_cons]
        refine ⟨⟨fun t old => .inl (Nat.le_trans (before t old) low), .inl (Nat.le_refl _),
          .inr (.inl rfl), fun _ h => absurd h List.not_mem_nil⟩, fun t there => .inr (.inr ?_)⟩
        have := (later.extended t there).1
        omega)
      rw [tagsIn_nodesAt_cons, List.map_cons, kept, ih stands.right.behind ended takes only]
      rfl

/-- Where every element has a component, and the components are named by words, there is a restyled
script. -/
theorem exists_restyled (stands : StandsAt source.toList start (script cs)) (parent : Option Node)
    (covered : ∀ e ∈ elementsIn attr file source parent (nodesAt start cs),
      ∃ s, components.find? file e.classes.value = some s)
    (named : ∀ s ∈ components.forFile file, IsWord s.name.toList) :
    ∃ cs' bound, Restyled attr file components start cs cs' bound := by
  induction cs generalizing start with
  | nil => exact ⟨[], [], .nil start⟩
  | cons c cs ih =>
      rw [script_cons] at stands
      obtain ⟨p, only⟩ := c.elementsAt_node attr file source parent start
      rw [nodesAt, elementsIn, only, List.forall_mem_append] at covered
      obtain ⟨cs', bound, later⟩ := ih stands.right.behind covered.2
      cases first : c.attributes.find? (fun a => String.ofList a.name == attr) with
      | none =>
          refine ⟨c :: cs', bound, .plain (fun a member => ?_) later⟩
          simpa using List.find?_eq_none.mp first a member
      | some a =>
          obtain ⟨own, pre, post, parts, others⟩ := List.find?_eq_some_iff_append.mp first
          have own : String.ofList a.name = attr := by simpa using own
          have others : ∀ b ∈ pre, String.ofList b.name ≠ attr := fun b member => by
            simpa using others b member
          obtain ⟨s, found⟩ := covered.1 (c.element file (c.tagStart start) pre a) (by
            rw [c.elementOf?_some p parts others own stands.tag]
            exact List.mem_singleton_self _)
          have there : s ∈ components.forFile file := by
            rw [Collection.find?_eq] at found
            exact List.mem_of_find?_eq_some found
          exact ⟨_, _, .styled parts others own found (named s there) later⟩

end

end Restyle.Script
