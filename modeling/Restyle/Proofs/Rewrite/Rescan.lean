import Restyle.Proofs.Markup.Attributes
import Restyle.Proofs.Rewrite.Collision
/-!
What a scan finds in a rewritten file. The edits of a file leave each tag its class attributes, but
for a first one that is a plain string. Where the reader finds the tags of the source again in the
text that comes of the edits, a second scan therefore reports the tags that had a plain string in
front of another one, and no others. Of scripts of constants, `Script.run_script` shows that it does.
-/

namespace Restyle

open Component (Collection Styled Synthesizer)
open Markup (Element literal? classAttributes classTexts tagsAt unstyled)
open Syntax (Node)

def EditSet.removes (set : EditSet) (n : Node) : Bool :=
  set.edits.any fun e =>
    e.replacement == "" && decide (e.span.start ≤ n.span.start ∧ n.span.stop ≤ e.span.stop)

namespace Markup

/-- The attributes of a tag that have a name. -/
def attributesOf (tag : Node) : List Node :=
  tag.children.filter fun a => a.role == some .attribute && a.is "jsx_attribute"

/-- What an attribute shows: its name, and the string that it is set to. -/
def shown (source : String) (a : Node) : Option String × Option String :=
  (((a.namedChild? 0).filter (·.is "property_identifier")).map (·.text source), literal? source a)

end Markup

open Markup (attributesOf shown)

/-- The reader finds the tags of a source again in the text that edits make of it, each with the
attributes that no edit takes away. -/
def Language.Follows (l : Language) (source : String) (set : EditSet) : Prop :=
  (tagsAt (l.parse (set.apply source))).map
      (fun t => (attributesOf t).map (shown (set.apply source))) =
    (tagsAt (l.parse source)).map
      fun t => ((attributesOf t).filter fun a => !set.removes a).map (shown source)

instance (l : Language) (source : String) (set : EditSet) : Decidable (l.Follows source set) :=
  inferInstanceAs (Decidable (_ = _))

namespace Markup

variable {attr source : String}

theorem isClassAttribute_eq (a : Node) : isClassAttribute attr source a =
    ((shown source a).1 == some attr && (a.role == some .attribute && a.is "jsx_attribute")) := by
  rw [isClassAttribute, shown, Bool.and_comm]
  refine congrArg (· && _) ?_
  cases a.namedChild? 0 with
  | none => rfl
  | some name =>
      dsimp only
      rw [Option.filter_some]
      cases name.is "property_identifier" <;> rfl

/-- What the class attributes of a tag are set to can be told from what its attributes show. -/
theorem classTexts_of_shown (attr source : String) (p : Node → Bool) (tag : Node) :
    ((classAttributes attr source tag).filter p).map (literal? source) =
      ((((attributesOf tag).filter p).map (shown source)).filter (·.1 == some attr)).map
        Prod.snd := by
  rw [List.filter_map, List.map_map, classAttributes, attributesOf, List.filter_filter,
    List.filter_filter, List.filter_filter]
  refine congrArg (List.map (literal? source)) (List.filter_congr fun a _ => ?_)
  rw [isClassAttribute_eq, Function.comp_apply, Bool.and_assoc]
  exact Bool.and_left_comm (p a) _ _

end Markup

/-- The class attributes of the tags in a text that the reader follows are those that no edit takes
away. -/
theorem Language.Follows.left_behind {l : Language} {source : String} {set : EditSet}
    (h : l.Follows source set) (attr : String) :
    (tagsAt (l.parse (set.apply source))).map (classTexts attr (set.apply source)) =
      (tagsAt (l.parse source)).map fun t =>
        ((classAttributes attr source t).filter fun a => !set.removes a).map (literal? source) := by
  have all : ∀ (text : String) (t : Node), classTexts attr text t =
      (((attributesOf t).map (shown text)).filter (·.1 == some attr)).map Prod.snd := by
    intro text t
    have := Markup.classTexts_of_shown attr text (fun _ => true) t
    rwa [List.filter_true, List.filter_true] at this
  have same := congrArg
    (List.map fun showing : List (Option String × Option String) =>
      (showing.filter (·.1 == some attr)).map Prod.snd) h
  rw [List.map_map, List.map_map] at same
  simp only [Function.comp_def, ← all, ← Markup.classTexts_of_shown] at same
  exact same

namespace Rewrite

section

variable {attr : String} {file : Path} {source : String} {l : Language} {components : Collection}
  {set : EditSet}

/-- The edits that rewrite a file with components. -/
def Applied (attr : String) (file : Path) (source : String) (l : Language)
    (components : Collection) (set : EditSet) : Prop :=
  components.forFile file ≠ [] ∧
  ∃ edits, editsFor attr file components (Markup.scan attr file source (l.parse source)) =
      .ok edits ∧
    EditSet.ofList (edits ++ [importEdit source (l.parse source) (components.forFile file)])
      source = .ok set

theorem Applied.unique {set' : EditSet} (h : Applied attr file source l components set)
    (h' : Applied attr file source l components set') : set = set' := by
  obtain ⟨-, edits, made, accepted⟩ := h
  obtain ⟨-, edits', made', accepted'⟩ := h'
  obtain rfl := Except.ok.inj (made.symm.trans made')
  exact Except.ok.inj (accepted.symm.trans accepted')

theorem applied_of_run (owns : components.forFile file ≠ []) {r : Rewritten}
    (ran : run attr file source l components = .ok r) :
    ∃ set, Applied attr file source l components set ∧ r.content = set.apply source := by
  obtain ⟨-, edits, set, made, accepted, -, rfl⟩ := (run_eq_ok_iff owns).mp ran
  exact ⟨set, ⟨owns, edits, made, accepted⟩, rfl⟩

/-- What goes with the class attribute of an element is taken away. -/
theorem Applied.takes (h : Applied attr file source l components set) :
    ∀ e ∈ Markup.scan attr file source (l.parse source), ∀ a : Node,
      a.span.Within e.classes.removal → set.removes a = true := by
  obtain ⟨-, edits, made, accepted⟩ := h
  obtain ⟨bound, scanned, -, rfl⟩ := editsFor_eq_ok_iff.mp made
  intro e member a within
  rw [← scanned] at member
  obtain ⟨⟨e, c⟩, pair, rfl⟩ := List.mem_map.mp member
  refine List.any_eq_true.mpr
    ⟨.delete e.classes.removal ("drop " ++ attr), ?_, ?_⟩
  · refine (EditSet.ofList_perm accepted).mem_iff.mpr (List.mem_append_left _ ?_)
    exact List.mem_flatMap.mpr ⟨(e, c), pair, List.mem_append_right _ List.mem_cons_self⟩
  · exact Bool.and_eq_true_iff.mpr ⟨rfl, decide_eq_true within⟩

/-- Nothing is taken away but by the ranges of elements. -/
theorem Applied.only (h : Applied attr file source l components set) :
    ∀ a : Node, set.removes a = true → a.span.start < a.span.stop →
      ∃ s ∈ (Markup.scan attr file source (l.parse source)).flatMap Element.spans,
        a.span.Within s := by
  obtain ⟨-, edits, made, accepted⟩ := h
  intro a removed extended
  obtain ⟨d, member, covers⟩ := List.any_eq_true.mp removed
  obtain ⟨begins, ends⟩ := of_decide_eq_true (Bool.and_eq_true_iff.mp covers).2
  rcases List.mem_append.mp ((EditSet.ofList_perm accepted).mem_iff.mp member) with edit | last
  · refine ⟨d.span, ?_, begins, ends⟩
    rw [← editsFor_map_span made]
    exact List.mem_map_of_mem edit
  · -- The import takes up no text.
    rw [List.mem_singleton.mp last] at begins ends
    exact absurd (Nat.lt_of_le_of_lt begins (Nat.lt_of_lt_of_le extended ends)) (Nat.lt_irrefl _)

/-- The edits leave a tag its class attributes, but for a first one that is a plain string. -/
theorem Applied.kept (h : Applied attr file source l components set) (proper : attr ≠ "")
    (markup : l.hasMarkup = true) (faultless : (l.parse source).hasFault = false) :
    ∀ t ∈ tagsAt (l.parse source), ((classAttributes attr source t).filter
      fun a => !set.removes a).map (literal? source) = unstyled (classTexts attr source t) := by
  obtain ⟨d, derived⟩ := Language.parse_derived markup faultless
  intro t there
  exact Markup.kept_classTexts derived proper h.takes h.only there

end

/-- Whether the class attributes of a tag begin with two plain strings. -/
def repeats : List (Option String) → Bool
  | some _ :: some _ :: _ => true
  | _ => false

theorem unstyled_join_eq_none_iff (texts : List (Option String)) :
    (unstyled texts).head?.join = none ↔ repeats texts = false := by
  cases texts with
  | nil => exact ⟨fun _ => rfl, fun _ => rfl⟩
  | cons first rest =>
      cases first with
      | none => exact ⟨fun _ => rfl, fun _ => rfl⟩
      | some p =>
          cases rest with
          | nil => exact ⟨fun _ => rfl, fun _ => rfl⟩
          | cons second rest =>
              cases second with
              | none => exact ⟨fun _ => rfl, fun _ => rfl⟩
              | some q => exact ⟨nofun, nofun⟩

section

variable {attr : String} {file : Path} {source : String} {l : Language} {s : Synthesizer}
  {elements : List Element} {components : Collection} {r : Rewritten} (proper : attr ≠ "")
  (scanned : Markup.scanSource attr file source l = .ok elements)
  (faultless : (l.parse source).hasFault = false)
  (ran : run attr file source l (s.synthesizeFile file elements components).2 = .ok r)

include proper scanned faultless ran

theorem classTexts_rewritten (follows : ∀ set,
    Applied attr file source l (s.synthesizeFile file elements components).2 set →
      l.Follows source set) :
    (tagsAt (l.parse r.content)).map (classTexts attr r.content) =
      (tagsAt (l.parse source)).map fun t => unstyled (classTexts attr source t) := by
  obtain ⟨markup, rfl⟩ := Markup.scanSource_eq_ok_iff.mp scanned
  by_cases owns : (s.synthesizeFile file (Markup.scan attr file source (l.parse source))
      components).2.forFile file = []
  · -- A file without components has no elements, and stays as it is.
    rw [run_of_unowned owns] at ran
    obtain rfl := Except.ok.inj ran
    have covers := (Component.synthesizeFile_covers s file
      (Markup.scan attr file source (l.parse source)) components).1
    have none_scanned : Markup.scan attr file source (l.parse source) = [] := by
      rw [List.eq_nil_iff_forall_not_mem]
      intro e member
      have covered := covers e member
      rw [Collection.Covers, owns] at covered
      cases covered
    have values := Markup.scan_values attr file source (l.parse source)
    rw [none_scanned, List.map_nil] at values
    refine List.map_congr_left fun t there => (Markup.unstyled_of_none ?_).symm
    exact List.filterMap_eq_nil_iff.mp values.symm t there
  · obtain ⟨set, applied, content⟩ := applied_of_run owns ran
    rw [content, (follows set applied).left_behind attr]
    exact List.map_congr_left (applied.kept proper markup faultless)

/-- The edits that rewrite a source without faults with the components of its own scan leave each
tag its class attributes, but for a first one that is a plain string. Where the reader finds the
tags of the source again behind these edits, the same attributes stand in the result. The second
scan then reports the strings that stood behind another one at the front; it reports nothing exactly
if no tag repeats its class attribute in this way, and if so there is nothing left to rewrite. -/
theorem scan_rewritten :
    (∀ set, Applied attr file source l (s.synthesizeFile file elements components).2 set →
      ∀ t ∈ tagsAt (l.parse source), ((classAttributes attr source t).filter
        fun a => !set.removes a).map (literal? source) = unstyled (classTexts attr source t)) ∧
    ((∀ set, Applied attr file source l (s.synthesizeFile file elements components).2 set →
        l.Follows source set) →
      (tagsAt (l.parse r.content)).map (classTexts attr r.content) =
        (tagsAt (l.parse source)).map (fun t => unstyled (classTexts attr source t)) ∧
      ∃ again, Markup.scanSource attr file r.content l = .ok again ∧
        again.map (·.classes.value) = (tagsAt (l.parse source)).filterMap
          (fun t => (unstyled (classTexts attr source t)).head?.join) ∧
        (again = [] ↔
          ∀ t ∈ tagsAt (l.parse source), repeats (classTexts attr source t) = false) ∧
        (again = [] → ∀ s' : Synthesizer,
          run attr file r.content l (s'.synthesizeFile file again []).2 =
            .ok ⟨r.content, 0, []⟩)) := by
  obtain ⟨markup, -⟩ := Markup.scanSource_eq_ok_iff.mp scanned
  refine ⟨fun set applied => applied.kept proper markup faultless, fun follows => ?_⟩
  have texts := classTexts_rewritten proper scanned faultless ran follows
  have values : (Markup.scan attr file r.content (l.parse r.content)).map (·.classes.value) =
      (tagsAt (l.parse source)).filterMap
        fun t => (unstyled (classTexts attr source t)).head?.join := by
    have same := congrArg (List.filterMap fun left : List (Option String) => left.head?.join) texts
    rw [List.filterMap_map, List.filterMap_map] at same
    rw [Markup.scan_values]
    exact same
  refine ⟨texts, Markup.scan attr file r.content (l.parse r.content),
    Markup.scanSource_eq_ok_iff.mpr ⟨markup, rfl⟩, values, ?_, ?_⟩
  · rw [← List.map_eq_nil_iff (f := (·.classes.value)), values, List.filterMap_eq_nil_iff]
    exact forall₂_congr fun t _ => unstyled_join_eq_none_iff _
  · intro none_left s'
    rw [none_left]
    exact run_of_unowned rfl attr r.content l

end

def aloneElements : List Element :=
  [⟨⟨"a.jsx"⟩, 0, "a", ⟨5, 6⟩, none, ⟨"p", ⟨7, 20⟩, ⟨6, 20⟩⟩⟩]

def aloneComponents : Collection :=
  ((⟨Sheet.StyleTable.empty, "Style"⟩ : Synthesizer).synthesizeFile ⟨"a.jsx"⟩ aloneElements []).2

def aloneEdits : List Edit :=
  [⟨⟨5, 6⟩, "AStyle", "open a -> AStyle", 0⟩, ⟨⟨6, 20⟩, "", "drop className", 0⟩]

def aloneImport : Edit :=
  ⟨⟨0, 0⟩, "import \x7b AStyle \x7d from './a.style'\n", "import components", -1⟩

def aloneSet : EditSet := ⟨aloneImport :: aloneEdits⟩

def computedSource : String :=
  "x = <a className=\"p\" b=\x7b<c className=\x7by\x7d className=\"q\" />\x7d />\n"

theorem computed_stages :
    (Markup.scanSource "className" ⟨"a.jsx"⟩ computedSource .jsx).toOption = some aloneElements ∧
    (Language.jsx.parse computedSource).hasFault = false ∧
    Staged "className" ⟨"a.jsx"⟩ computedSource .jsx aloneComponents aloneEdits aloneImport
      aloneSet ∧
    Language.jsx.Follows computedSource aloneSet ∧
    (tagsAt (Language.jsx.parse computedSource)).map (classTexts "className" computedSource) =
      [[some "p"], [none, some "q"]] := by
  decide +kernel

theorem scan_rewritten_computed :
    Markup.scanSource "className" ⟨"a.jsx"⟩ computedSource .jsx = .ok aloneElements ∧
    (Language.jsx.parse computedSource).hasFault = false ∧
    Language.jsx.Follows computedSource aloneSet ∧
    ∃ r, run "className" ⟨"a.jsx"⟩ computedSource .jsx aloneComponents = .ok r ∧
      (tagsAt (Language.jsx.parse r.content)).map (classTexts "className" r.content) =
        [[], [none, some "q"]] ∧
      Markup.scanSource "className" ⟨"a.jsx"⟩ r.content .jsx = .ok [] := by
  obtain ⟨scanned, faultless, staged, follows, texts⟩ := computed_stages
  have scanned := ok_of_toOption scanned
  have applied : Applied "className" ⟨"a.jsx"⟩ computedSource .jsx aloneComponents aloneSet :=
    ⟨staged.owns, aloneEdits, ok_of_toOption staged.2.1, staged.accepted⟩
  obtain ⟨left, again, rescanned, -, empty, -⟩ := (scan_rewritten (by decide) scanned faultless
    (run_of_staged staged)).2 fun set other => applied.unique other ▸ follows
  refine ⟨scanned, faultless, follows, _, run_of_staged staged, ?_, ?_⟩
  · rw [left, ← Function.comp_def, ← List.map_map, texts]
    rfl
  · rw [rescanned, empty.mpr]
    intro t there
    have one : classTexts "className" computedSource t ∈ [[some "p"], [none, some "q"]] :=
      texts ▸ List.mem_map_of_mem there
    revert one
    generalize classTexts "className" computedSource t = own
    revert own
    decide

def repeatedSource : String := "x = <a className=\"p\" className=\"q\" />\n"

def repeatedResult : String :=
  "import \x7b AStyle \x7d from './a.style'\nx = <AStyle className=\"q\" />\n"

theorem repeated_stages :
    (Markup.scanSource "className" ⟨"a.jsx"⟩ repeatedSource .jsx).toOption = some aloneElements ∧
    (Language.jsx.parse repeatedSource).hasFault = false ∧
    Staged "className" ⟨"a.jsx"⟩ repeatedSource .jsx aloneComponents aloneEdits aloneImport
      aloneSet ∧
    aloneSet.apply repeatedSource = repeatedResult ∧
    (Markup.scanSource "className" ⟨"a.jsx"⟩ repeatedResult .jsx).toOption =
      some [⟨⟨"a.jsx"⟩, 0, "AStyle", ⟨40, 46⟩, none, ⟨"q", ⟨47, 60⟩, ⟨46, 60⟩⟩⟩] := by
  decide +kernel

/-- The second scan may find what the first one has passed over. -/
theorem second_scan_not_empty : ¬ ∀ (s : Synthesizer) (attr : String) (file : Path)
    (source : String) (l : Language) (elements : List Element) (components : Collection)
    (r : Rewritten),
    Markup.scanSource attr file source l = .ok elements →
    (l.parse source).hasFault = false →
    run attr file source l (s.synthesizeFile file elements components).2 = .ok r →
    Markup.scanSource attr file r.content l = .ok [] := by
  intro always
  obtain ⟨scanned, faultless, staged, content, again⟩ := repeated_stages
  have none_left := always ⟨Sheet.StyleTable.empty, "Style"⟩ "className" ⟨"a.jsx"⟩ repeatedSource
    .jsx aloneElements [] _ (ok_of_toOption scanned) faultless (run_of_staged staged)
  rw [content, ok_of_toOption again] at none_left
  cases none_left

end Rewrite

end Restyle
