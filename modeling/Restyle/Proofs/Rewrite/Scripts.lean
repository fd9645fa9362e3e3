import Restyle.Proofs.Migration.Names
import Restyle.Proofs.Rewrite.Restyled
/-!
Rewriting a script of constants, each with one tag. The edits restyle the constants, and an import
goes in front of them. The reader reads the result without a fault and finds the tags of the script
in it again, so that what is known where it follows the edits is known of all these scripts.
-/

namespace Restyle.Script

open Component (Collection Styled Synthesizer componentName companionPath importSpecifier)
open Markup (Element elementsIn tagsAt tagsIn)
open Rewrite (Applied elementEdits importEdit)
open Syntax (Node)
open Text (byteLength)

theorem toList_intercalate_names (name : String) (names : List String) :
    (", ".intercalate (name :: names)).toList =
      name.toList ++ othersText (names.map String.toList) := by
  induction names generalizing name with
  | nil => simp [othersText]
  | cons other names ih =>
      rw [String.intercalate_cons_cons, String.toList_append, String.toList_append, ih]
      simp [othersText]

theorem Import.toList_importStatement (i : Import) {names : List String} {specifier : String}
    (same : names.map String.toList = i.first :: i.others)
    (module_ : specifier.toList = i.specifier) :
    (Rewrite.importStatement names specifier '\'' true).toList = i.text ++ ['\n'] := by
  obtain ⟨name, names, rfl, first, others⟩ := List.map_eq_cons_iff.mp same
  unfold Rewrite.importStatement
  simp only [String.toList_append, toList_intercalate_names, first, others, module_, if_true]
  simp [Import.text, Import.clauseText, importWord, fromWord]

/-- The insertion of an import in front of a script. -/
def Import.edit (i : Import) : Edit :=
  (Edit.insert 0 (String.ofList (i.text ++ ['\n'])) "import components").withPriority (-1)

/-- An import takes in the components that a collection has for a file. -/
structure Import.Takes (i : Import) (components : Collection) (file : Path) : Prop where
  names : (components.forFile file).map (·.name.toList) = i.first :: i.others
  module_ : ∀ s ∈ components.forFile file, (importSpecifier s.companion).toList = i.specifier

theorem parse_of_untyped {l : Language} (no_types : l = .javaScript ∨ l = .jsx)
    (source : List Char) : l.parse (String.ofList source) = Syntax.parse untyped source := by
  rcases no_types with rfl | rfl
  · rw [Language.parse, String.toList_ofList]
  · rw [Language.parse, String.toList_ofList]

theorem hasMarkup_of_untyped {l : Language} (no_types : l = .javaScript ∨ l = .jsx) :
    l.hasMarkup = true := by
  rcases no_types with rfl | rfl <;> rfl

theorem standsAt_script (cs : List Constant) :
    StandsAt (String.ofList (script cs)).toList 0 (script cs) :=
  ⟨[], [], by simp, rfl⟩

section

variable {attr : String} {file : Path} {l : Language} {components : Collection} {c : Constant}
  {cs cs' : List Constant} {bound : List (Element × Styled)} {i : Import}

theorem Import.Takes.exists_owned (h : i.Takes components file) : ∃ first others,
    components.forFile file = first :: others ∧
      (importSpecifier first.companion).toList = i.specifier := by
  obtain ⟨first, others, owned, -⟩ := List.map_eq_cons_iff.mp h.names
  exact ⟨first, others, owned, h.module_ first (owned ▸ List.mem_cons_self)⟩

theorem importEdit_script (c : Constant) (cs : List Constant)
    (no_types : l = .javaScript ∨ l = .jsx) (takes : i.Takes components file) :
    importEdit (String.ofList (script (c :: cs))) (l.parse (String.ofList (script (c :: cs))))
      (components.forFile file) = i.edit := by
  obtain ⟨first, others, owned, module_⟩ := takes.exists_owned
  have names := takes.names
  rw [owned] at names ⊢
  have statement : (Rewrite.importStatement ((first :: others).map (·.name))
      (importSpecifier first.companion) '\'' true).toList = i.text ++ ['\n'] :=
    i.toList_importStatement (by rw [List.map_map]; exact names) module_
  rw [parse_of_untyped no_types, parse_script, importEdit, directiveEnd?_script, quoteStyle_script,
    usesSemicolons_script c cs (standsAt_script _)]
  simp only [Option.getD_none, Import.edit, ← statement, String.ofList_toList]
  rfl

/-- The edits that restyle a script, the import among them. -/
def restyling (attr : String) (i : Import) (bound : List (Element × Styled)) : EditSet :=
  ⟨i.edit :: bound.flatMap fun p => elementEdits attr p.1 p.2⟩

theorem Restyled.spliced_whole (h : Restyled attr file components 0 (c :: cs) cs' bound)
    (i : Import) :
    Spliced 0 ((restyling attr i bound).edits.map Edit.change)
      (String.ofList (script (c :: cs))).toList (i.text ++ '\n' :: script cs') := by
  have changes : (restyling attr i bound).edits.map Edit.change =
      i.edit.change :: bound.flatMap fun p => Rewrite.elementChanges p.1 p.2 := by
    rw [restyling, List.map_cons, List.map_flatMap]
    simp only [Rewrite.elementEdits_map_change]
  have text : [] ++ (i.edit.change.text.toList ++ script cs') = i.text ++ '\n' :: script cs' := by
    simp [Import.edit, Edit.change, Edit.withPriority, Edit.insert, Edit.replace]
  have whole : Spliced 0 (i.edit.change :: _) ([] ++ ([] ++ script (c :: cs)))
      ([] ++ (i.edit.change.text.toList ++ script cs')) := .change rfl rfl h.spliced
  rw [changes, String.toList_ofList]
  rwa [text] at whole

/-- The import comes first, since it alone takes up no text. -/
theorem Restyled.strict (h : Restyled attr file components 0 (c :: cs) cs' bound) (i : Import) :
    (restyling attr i bound).edits.Pairwise fun a b => b.le a = false := by
  have extended : ∀ e ∈ bound.flatMap fun p => elementEdits attr p.1 p.2,
      0 < e.span.start ∧ e.span.start < e.span.stop := by
    intro e member
    obtain ⟨p, there, edit⟩ := List.mem_flatMap.mp member
    refine h.extended e.span (List.mem_flatMap.mpr ⟨p, there, ?_⟩)
    rw [← Rewrite.elementEdits_map_span attr p.1 p.2]
    exact List.mem_map_of_mem edit
  have apart := List.pairwise_cons.mp (List.pairwise_map.mp (h.spliced_whole i).apart)
  refine List.pairwise_cons.mpr
    ⟨fun e member => ?_, apart.2.imp_of_mem fun {a b} own _ before => ?_⟩
  · have := extended e member
    rw [Bool.eq_false_iff, ne_eq, Edit.le_iff]
    show ¬ (e.span.start < 0 ∨ e.span.start = 0 ∧ _)
    omega
  · have := extended a own
    rw [Edit.change_span, Edit.change_span] at before
    rw [Bool.eq_false_iff, ne_eq, Edit.le_iff]
    omega

theorem Restyled.applied (h : Restyled attr file components 0 (c :: cs) cs' bound)
    (no_types : l = .javaScript ∨ l = .jsx) (takes : i.Takes components file) :
    Applied attr file (String.ofList (script (c :: cs))) l components (restyling attr i bound) ∧
      (restyling attr i bound).apply (String.ofList (script (c :: cs))) =
        String.ofList (i.text ++ '\n' :: script cs') := by
  obtain ⟨accepted, result⟩ := EditSet.ofList_of_spliced
    (List.perm_append_singleton i.edit _) (h.strict i) (h.spliced_whole i)
  have made := h.edits (standsAt_script (c :: cs)) ⟨0, byteLength (script (c :: cs))⟩
  rw [← parse_script, ← parse_of_untyped no_types] at made
  refine ⟨⟨?_, _, made, ?_⟩, result⟩
  · obtain ⟨first, others, owned, -⟩ := takes.exists_owned
    rw [owned]
    exact List.cons_ne_nil _ _
  · rw [importEdit_script c cs no_types takes]
    exact accepted

theorem Restyled.length_scan (h : Restyled attr file components 0 (c :: cs) cs' bound)
    (no_types : l = .javaScript ∨ l = .jsx) :
    (Markup.scan attr file (String.ofList (script (c :: cs)))
      (l.parse (String.ofList (script (c :: cs))))).length = bound.length := by
  rw [parse_of_untyped no_types, parse_script, h.scan_eq (standsAt_script _), List.length_mapIdx,
    List.length_map]

/-- The run succeeds, with the restyled script behind the import. -/
theorem Restyled.run (h : Restyled attr file components 0 (c :: cs) cs' bound)
    (no_types : l = .javaScript ∨ l = .jsx) (takes : i.Takes components file) :
    Rewrite.run attr file (String.ofList (script (c :: cs))) l components =
      .ok ⟨String.ofList (i.text ++ '\n' :: script cs'), bound.length,
        (components.forFile file).map (·.name)⟩ := by
  obtain ⟨⟨owns, edits, made, accepted⟩, result⟩ := h.applied no_types takes
  refine (Rewrite.run_eq_ok_iff owns).mpr
    ⟨hasMarkup_of_untyped no_types, edits, _, made, accepted, ?_, ?_⟩
  · have faultless : (l.parse (String.ofList (i.text ++ '\n' :: script cs'))).hasFault = false := by
      rw [parse_of_untyped no_types, parse_imported]
      show Node.anyFault (_ :: _) = false
      rw [Node.anyFault, (i.tagsAt_node 0).2, nodesAt_faultless]
      rfl
    rw [result, Rewrite.verify, Syntax.faults_of_faultless faultless]
    exact if_neg (Nat.not_lt_zero _)
  · rw [result, h.length_scan no_types]

/-- The reader finds the tags of a script again behind the edits that restyle it, with all
attributes that no edit takes away. -/
theorem Restyled.follows (h : Restyled attr file components 0 (c :: cs) cs' bound)
    (no_types : l = .javaScript ∨ l = .jsx) (takes : i.Takes components file) {set : EditSet}
    (applied : Applied attr file (String.ofList (script (c :: cs))) l components set) :
    l.Follows (String.ofList (script (c :: cs))) set := by
  obtain ⟨own, result⟩ := h.applied no_types takes
  obtain rfl := applied.unique own
  have read : tagsAt (l.parse (String.ofList (i.text ++ '\n' :: script cs'))) =
      tagsIn (nodesAt (byteLength i.text + 1) cs') := by
    rw [parse_of_untyped no_types, parse_imported]
    show tagsAt (i.node 0) ++ _ = _
    rw [(i.tagsAt_node 0).1]
    rfl
  have source : tagsAt (l.parse (String.ofList (script (c :: cs)))) =
      tagsIn (nodesAt 0 (c :: cs)) := by
    rw [parse_of_untyped no_types, parse_script]
    rfl
  have scanned : Markup.scan attr file (String.ofList (script (c :: cs)))
      (l.parse (String.ofList (script (c :: cs)))) =
        (bound.map Prod.fst).mapIdx fun i e => { e with ordinal := i } := by
    rw [parse_of_untyped no_types, parse_script, h.scan_eq (standsAt_script _)]
  have taken : ∀ p ∈ bound, ∀ n : Node, n.span.Within p.1.classes.removal →
      (restyling attr i bound).removes n = true := by
    intro p member n within
    obtain ⟨k, small, rfl⟩ := List.mem_iff_getElem.mp member
    refine own.takes { bound[k].1 with ordinal := k } ?_ n within
    rw [scanned]
    exact List.mem_mapIdx.mpr ⟨k, by simpa using small, by simp⟩
  have only : RemovesWithin (restyling attr i bound).removes
      ([] ++ bound.flatMap (·.1.spans)) := by
    intro n removed extended
    have spans := own.only n removed extended
    rwa [scanned, Markup.flatMap_spans_mapIdx _ fun i => i, List.flatMap_map] at spans
  have stands : StandsAt (String.ofList (i.text ++ '\n' :: script cs')).toList
      (byteLength i.text + 1) (script cs') :=
    ⟨i.text ++ ['\n'], [], by simp, Text.byteLength_append _ _⟩
  rw [Language.Follows, result, read, source, map_shown_nodesAt stands]
  exact (h.map_shown_kept (standsAt_script _) (fun s member => absurd member List.not_mem_nil)
    taken only).symm

end

/-- If the first name for a file is a word, so are all others, which have a number behind it. -/
theorem isWord_componentName {suffix : String} {file : Path}
    (first : IsWord (componentName suffix file 0).toList) (n : Nat) :
    IsWord (componentName suffix file n).toList := by
  obtain ⟨digits, all, name⟩ := Component.toList_componentName suffix file n
  have base : (componentName suffix file 0).toList =
      Component.pascalCase (file.stem?.getD "").toList ++ suffix.toList := by
    rw [Component.componentName_zero, String.toList_append, String.toList_ofList]
  have plain : digits.all isWordPart = true := List.all_eq_true.mpr fun c member =>
    isWordPart_of_isHexDigit (by rw [Text.isHexDigit, all c member]; rfl)
  obtain ⟨c, head, letter⟩ := first.begins
  rw [name, ← List.append_assoc, ← base]
  exact ⟨first.pieces.append (pieces_of_plain plain), c, by rw [List.head?_append, head]; rfl,
    letter⟩

section

variable {s : Synthesizer} {attr : String} {file : Path} {l : Language} {components : Collection}
  {elements : List Element} {c : Constant} {cs : List Constant}

theorem mem_scan_script (no_types : l = .javaScript ∨ l = .jsx) (parent : Option Node) {e : Element}
    (member : e ∈ elementsIn attr file (String.ofList (script (c :: cs))) parent
      (nodesAt 0 (c :: cs))) :
    ∃ e' ∈ Markup.scan attr file (String.ofList (script (c :: cs)))
      (l.parse (String.ofList (script (c :: cs)))), e'.classes.value = e.classes.value := by
  have value : e.classes.value ∈ (elementsIn attr file (String.ofList (script (c :: cs))) parent
      (nodesAt 0 (c :: cs))).map (·.classes.value) := List.mem_map_of_mem member
  rw [Markup.elementsIn_values] at value
  refine List.mem_map.mp ?_
  rw [Markup.scan_values, parse_of_untyped no_types, parse_script]
  exact value

/-- The components of a file that had none are named and placed for it. -/
theorem forFile_synthesizeFile (fresh : components.forFile file = []) :
    ∀ d ∈ (s.synthesizeFile file elements components).2.forFile file,
      (∃ n, d.name = componentName s.suffix file n) ∧ d.companion = companionPath file := by
  intro d member
  obtain ⟨there, own⟩ := List.mem_filter.mp member
  rcases Component.mem_synthesizeFile there with old | ⟨n, e, -, rfl⟩
  · have none_ : d ∈ components.forFile file := List.mem_filter.mpr ⟨old, own⟩
    rw [fresh] at none_
    exact absurd none_ List.not_mem_nil
  · exact ⟨⟨n, rfl⟩, rfl⟩

theorem exists_import {made : Collection} {companion : Path} (owns : made.forFile file ≠ [])
    (words : ∀ d ∈ made.forFile file, IsWord d.name.toList)
    (placed : ∀ d ∈ made.forFile file, d.companion = companion)
    (plain : ∀ x ∈ (importSpecifier companion).toList,
      x ≠ '\'' ∧ x ≠ '\\' ∧ x ≠ '\n' ∧ x ≠ '\r') :
    ∃ i : Import, i.Takes made file ∧ i.specifier = (importSpecifier companion).toList := by
  obtain ⟨first, others, owned⟩ := List.exists_cons_of_ne_nil owns
  have some_ : (importSpecifier companion).toList ≠ [] := by
    rw [importSpecifier, String.toList_append]
    exact List.cons_ne_nil _ _
  let names := others.map (·.name.toList)
  have all : ∀ w ∈ first.name.toList :: names, IsWord w := by
    rw [← List.map_cons (f := fun d : Styled => d.name.toList), ← owned]
    exact List.forall_mem_map.mpr words
  have modules : ∀ d ∈ made.forFile file,
      (importSpecifier d.companion).toList = (importSpecifier companion).toList := by
    intro d member
    rw [placed d member]
  generalize (importSpecifier companion).toList = module_ at some_ plain modules ⊢
  exact ⟨⟨first.name.toList, names, module_, all, some_, plain⟩,
    ⟨congrArg (List.map _) owned, modules⟩, rfl⟩

/-- A script of constants is read without a fault. If one of them has a class attribute, rewriting
it with the components of its own scan succeeds: the constants are restyled, and an import stands in
front of them. The tags are found again behind the edits. -/
theorem run_script (attr : String) (c : Constant) (cs : List Constant)
    (no_types : l = .javaScript ∨ l = .jsx) (fresh : components.forFile file = [])
    (word : IsWord (componentName s.suffix file 0).toList)
    (plain : ∀ x ∈ (importSpecifier (companionPath file)).toList,
      x ≠ '\'' ∧ x ≠ '\\' ∧ x ≠ '\n' ∧ x ≠ '\r') :
    let source := String.ofList (script (c :: cs))
    let elements := Markup.scan attr file source (l.parse source)
    let made := (s.synthesizeFile file elements components).2
    (l.parse source).hasFault = false ∧
    (elements ≠ [] → ∃ cs' bound, Restyled attr file made 0 (c :: cs) cs' bound ∧
      Rewrite.run attr file source l made =
        .ok ⟨Rewrite.importStatement ((made.forFile file).map (·.name))
            (importSpecifier (companionPath file)) '\'' true ++ String.ofList (script cs'),
          elements.length, (made.forFile file).map (·.name)⟩ ∧
      ∀ set, Applied attr file source l made set → l.Follows source set) := by
  intro source elements made
  refine ⟨?_, fun some_ => ?_⟩
  · simp only [source]
    rw [parse_of_untyped no_types, parse_script, Node.hasFault, nodesAt_faultless]
    rfl
  have named : ∀ d ∈ made.forFile file,
      (∃ n, d.name = componentName s.suffix file n) ∧ d.companion = companionPath file :=
    forFile_synthesizeFile fresh
  have words : ∀ d ∈ made.forFile file, IsWord d.name.toList := by
    intro d member
    obtain ⟨⟨n, name⟩, -⟩ := named d member
    rw [name]
    exact isWord_componentName word n
  have covers : ∀ e ∈ elements, ∃ d, made.find? file e.classes.value = some d := fun e member =>
    ((Component.synthesizeFile_covers s file elements components).1 e member).find?
  have owns : made.forFile file ≠ [] := by
    obtain ⟨e, member⟩ := List.exists_mem_of_ne_nil elements some_
    obtain ⟨d, found⟩ := covers e member
    rw [Collection.find?_eq] at found
    exact List.ne_nil_of_mem (List.mem_of_find?_eq_some found)
  have covered : ∀ e ∈ elementsIn attr file source none (nodesAt 0 (c :: cs)),
      ∃ d, made.find? file e.classes.value = some d := by
    intro e member
    obtain ⟨e', there, same⟩ := mem_scan_script no_types none member
    rw [← same]
    exact covers e' there
  obtain ⟨cs', bound, restyled⟩ := exists_restyled (standsAt_script (c :: cs)) none covered words
  obtain ⟨i, takes, specifier⟩ := exists_import owns words (fun d member => (named d member).2)
    plain
  have content : String.ofList (i.text ++ '\n' :: script cs') =
      Rewrite.importStatement ((made.forFile file).map (·.name))
        (importSpecifier (companionPath file)) '\'' true ++ String.ofList (script cs') := by
    rw [← String.toList_inj, String.toList_append, String.toList_ofList, String.toList_ofList,
      i.toList_importStatement (by rw [List.map_map]; exact takes.names) specifier.symm]
    simp
  have count : elements.length = bound.length := restyled.length_scan no_types
  refine ⟨cs', bound, restyled, ?_, fun set => restyled.follows no_types takes⟩
  rw [count, ← content]
  exact restyled.run no_types takes

end

def titleConstant : Constant where
  name := ['T', 'i', 't', 'l', 'e']
  tag := ['h', '1']
  attributes := [⟨['i', 'd'], ['t'], isWord_of_plain (by decide) (by decide), by decide, by decide⟩,
    ⟨['c', 'l', 'a', 's', 's'], ['b', 'i', 'g'], isWord_of_plain (by decide) (by decide), by decide,
      by decide⟩]
  isWord := isWord_of_plain (by decide) (by decide)
  unreserved := by decide
  tag_isWord := isWord_of_plain (by decide) (by decide)

example (s : Sheet.StyleTable) :
    let source := "const Title = <h1 id=\"t\" class=\"big\" />;\n"
    let elements := Markup.scan "class" ⟨"a.jsx"⟩ source (Language.jsx.parse source)
    let made := (Synthesizer.synthesizeFile ⟨s, "Style"⟩ ⟨"a.jsx"⟩ elements []).2
    (∃ r, Rewrite.run "class" ⟨"a.jsx"⟩ source .jsx made = .ok r) ∧
      ∀ set, Applied "class" ⟨"a.jsx"⟩ source .jsx made set → Language.jsx.Follows source set := by
  intro source elements made
  have text : String.ofList (script [titleConstant]) = source := by decide +kernel
  have name : componentName "Style" ⟨"a.jsx"⟩ 0 = "AStyle" := by decide +kernel
  have plain : (importSpecifier (companionPath ⟨"a.jsx"⟩)).toList.all (fun x =>
      decide (x ≠ '\'' ∧ x ≠ '\\' ∧ x ≠ '\n' ∧ x ≠ '\r')) = true := by decide +kernel
  have some_ : elements ≠ [] := by decide +kernel
  have fresh : Collection.forFile [] ⟨"a.jsx"⟩ = [] := rfl
  have ran := (run_script (s := ⟨s, "Style"⟩) (l := .jsx) "class" titleConstant [] (.inr rfl) fresh
    (by rw [name]; exact isWord_of_plain (by decide) (by decide))
    fun x member => of_decide_eq_true (List.all_eq_true.mp plain x member)).2
  rw [text] at ran
  obtain ⟨_, _, _, result, follows⟩ := ran some_
  exact ⟨⟨_, result⟩, follows⟩

end Restyle.Script
