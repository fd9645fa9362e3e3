import Mathlib.Data.List.Infix
import Restyle.Proofs.Component.Definition
import Restyle.Proofs.Component.References
import Restyle.Proofs.Migration.Outcome
/-!
Style files as modules. Their header imports `styled` and nothing else, and their constructors are
copies of the tags of elements, whose own imports stay in the file of the elements.
-/

namespace Restyle

open Component (Collection Styled Closed moduleNames tagNames)
open Sheet (StyleTable)

namespace Component

/-- A tag that is a component, or a member of an object. -/
structure NamesObject (tag : String) (object : List Char) : Prop where
  custom : Markup.isIntrinsicTag tag = false
  some_object : object ≠ []
  object_name : ∀ c ∈ object, Script.isNamePart c = true
  members : ∃ ms : List (List Char), (∀ m ∈ ms, ∀ c ∈ m, Script.isNamePart c = true) ∧
    tag.toList = object ++ ms.flatMap ('.' :: ·)

theorem NamesObject.tagNames {tag : String} {object : List Char} (h : NamesObject tag object) :
    tagNames tag = [String.ofList object] := by
  obtain ⟨ms, member_names, text⟩ := h.members
  exact tagNames_of_component h.custom h.some_object h.object_name member_names text

/-- A tag that is one name, of an element of the platform. -/
structure IsHost (tag : String) : Prop where
  intrinsic : Markup.isIntrinsicTag tag = true
  one_name : ∀ c ∈ tag.toList, Script.isNamePart c = true

theorem closed_of_hosts {owned : List Styled}
    (made : ∀ c ∈ owned, c.constructor = constructorFor c.tag) (hosts : ∀ c ∈ owned, IsHost c.tag) :
    Closed owned := by
  refine (closed_iff made).mpr fun c member x name => ?_
  rw [tagNames_of_host (hosts c member).intrinsic (hosts c member).one_name] at name
  exact absurd name List.not_mem_nil

end Component

namespace Migration

open Component (NamesObject IsHost closed_iff closed_of_hosts constructorFor)

variable {σ : Type} {m : Migration σ} {w w' : Workspace σ}

/-- The text of a style file with some components. -/
def moduleText (m : Migration σ) (owned : List Styled) : String :=
  (if m.config.clientDirective then "'use client'\n" else "")
    ++ "import styled from 'styled-components'\n"
    ++ String.join (owned.map fun c =>
      "\nexport const " ++ c.name ++ " = " ++ c.constructor ++ c.template)

theorem moduleText_eq (m : Migration σ) (owned : List Styled) :
    m.moduleText owned = m.header ++ String.join (owned.map fun c => "\n" ++ c.definition) := by
  have line : ∀ c : Styled, "\nexport const " ++ c.name ++ " = " ++ c.constructor ++ c.template
      = "\n" ++ c.definition := by
    intro c
    have start : "\nexport const " = "\n" ++ "export const " := rfl
    rw [c.definition_eq, start]
    simp only [String.append_assoc]
  unfold moduleText
  simp only [line]
  rfl

theorem Versions.texts {companion : Path} {text : String} {cs : List Styled} {texts : List String}
    (passes : m.formatter.Computes fun source _ _ => .ok source)
    (h : m.Versions companion text cs w texts w') :
    texts = cs.inits.tail.map fun some =>
      text ++ String.join (some.map fun c => "\n" ++ c.definition) := by
  induction h with
  | nil text w => rfl
  | @cons text text' c cs w w₁ w' texts first later ih =>
      obtain ⟨w₂, written, formatted, -⟩ := appendOne_ok first
      have grown : text' = text ++ ("\n" ++ c.definition) := by
        rw [← String.append_assoc]
        exact (Except.ok.inj (format_ok passes formatted).1).symm
      have start : cs.inits = [] :: cs.inits.tail := by cases cs <;> rfl
      rw [List.inits_cons, List.tail_cons, start, List.map_cons, List.map_cons, ih, grown,
        List.map_map]
      congr 1
      refine List.map_congr_left fun some _ => ?_
      rw [Function.comp_apply, List.map_cons, String.join_cons, String.append_assoc]

/-- A style file goes through the texts with its first components, then two, and so on. -/
theorem StyleFiles.texts {groups : List (Path × List Styled)} {files : List StyleFile}
    (passes : m.formatter.Computes fun source _ _ => .ok source)
    (h : m.StyleFiles groups w files w') :
    files = groups.map fun g => ⟨g.1, g.2.inits.tail.map m.moduleText⟩ := by
  induction h with
  | nil w => rfl
  | cons first later ih =>
      have texts := first.texts passes
      simp only [← moduleText_eq] at texts
      rw [List.map_cons, ← ih, texts]

theorem Revisions.constructors {table : StyleTable} {components components' : Collection}
    {rs : List Revision} (h : m.Revisions table components w rs components' w')
    (before : ∀ c ∈ components, c.constructor = constructorFor c.tag) :
    ∀ c ∈ components', c.constructor = constructorFor c.tag := by
  induction h with
  | nil components w => exact before
  | cons first later ih =>
      obtain ⟨drafted, w₁, written, made, rfl, -, -⟩ := first.finished
      obtain ⟨l, elements, -, -, synthesized, -⟩ := draft_eq_ok_iff.mp made
      refine ih fun c member => ?_
      have result := congrArg Prod.snd synthesized
      dsimp only at result
      rw [result] at member
      rcases Component.mem_synthesizeFile member with old | ⟨n, e, -, rfl⟩
      · exact before c old
      · rfl

/-- A run that succeeds with a formatter that changes nothing writes each style file of its
components once with each beginning of its group, behind a header that imports `styled` alone. Such
a text is closed if and only if the names that it takes from the tags are names of its components,
or `styled`. So it is closed if all tags are names of elements of the platform, and it is not closed
if there is a tag of a component that it does not bind, or of a member of such an object. -/
theorem styles_closed_iff {report : Report} (real : m.dryRun = false)
    (passes : m.formatter.Computes fun source _ _ => .ok source)
    (done : m.run w = (.ok report, w')) :
    ∃ (styles : Styles) (files : List Path) (w₁ w₂ : Workspace σ) (rs : List Revision)
      (components : Collection) (styleFiles : List StyleFile),
      m.prepare w = (.ok (styles, files), w₁) ∧
      m.Completes styles files w₁ rs components styleFiles w' ∧
      styleFiles
        = components.byCompanion.map (fun g => ⟨g.1, g.2.inits.tail.map m.moduleText⟩) ∧
      w₁.Journaled w₂ (rs.flatMap Revision.writes ++ styleFiles.flatMap StyleFile.writes) ∧
      (∃ written, m.persist styles.sheet styles.baseCss w₂ = (.ok written, w')) ∧
      ∀ g ∈ components.byCompanion, ∀ owned : List Styled, owned <+: g.2 →
        (Closed owned ↔ ∀ c ∈ owned, ∀ x ∈ tagNames c.tag, x ∈ moduleNames owned) ∧
        ((∀ c ∈ owned, IsHost c.tag) → Closed owned) ∧
        ∀ c ∈ owned, ∀ object, NamesObject c.tag object →
          String.ofList object ∉ moduleNames owned → ¬ Closed owned := by
  obtain ⟨styles, files, w₁, rs, components, styleFiles, prepared, completed, -⟩ := run_ok real done
  obtain ⟨w₂, w₃, written, revised, styled, persisted⟩ := completed.stages
  have first := revised.journaled real passes.quiet
  have second := styled.journaled real passes.quiet (revised.holds_groups real passes.quiet)
  have constructors := revised.constructors fun c none => absurd none List.not_mem_nil
  refine ⟨styles, files, w₁, w₃, rs, components, styleFiles, prepared, completed,
    styled.texts passes, first.trans second, ⟨written, persisted⟩, ?_⟩
  intro g group owned beginning
  have made : ∀ c ∈ owned, c.constructor = constructorFor c.tag := by
    intro c member
    have among := beginning.subset member
    rw [(Component.Collection.grouped_byCompanion components).owned g group] at among
    exact constructors c (List.mem_filter.mp among).1
  refine ⟨closed_iff made, closed_of_hosts made, ?_⟩
  intro c member object named unbound closed
  refine unbound ((closed_iff made).mp closed c member _ ?_)
  rw [named.tagNames]
  exact List.mem_singleton_self _

/-- The small project makes its one component, however its run is taken apart. -/
theorem small_components {w' : Workspace Unit} {rs : List Revision} {components : Collection}
    {styleFiles : List StyleFile}
    (h : small.Completes ⟨StyleTable.ofCss "", "", ⟨"/p/s.css"⟩⟩ [⟨"/p/src/A.jsx"⟩] smallStart rs
      components styleFiles w') : components = [smallComponent] := by
  obtain ⟨w₁, w₂, written, revised, -, -⟩ := h.stages
  have order := h.order
  cases revised with
  | nil => cases order
  | @cons _ _ _ _ _ _ r rs first later =>
      have file : r.file = ⟨"/p/src/A.jsx"⟩ := (List.cons.inj order).1
      obtain rfl := List.map_eq_nil_iff.mp (List.cons.inj order).2
      cases later
      obtain ⟨drafted, _, _, made, rfl, -, -⟩ := first.finished
      have read : smallTree.readText [] ⟨"/p/src/A.jsx"⟩ = .ok r.source := file ▸ first.read
      have source : smallSource = r.source := Except.ok.inj read
      rw [file, ← source] at made
      exact congrArg (·.2.1) (Except.ok.inj (made.symm.trans small_draft))

theorem styles_closed_iff_small :
    small.formatter.Computes (fun source _ _ => .ok source) ∧
    (∃ report, small.run smallStart = (.ok report, smallEnd)) ∧
    (∃ rs, small.Completes ⟨StyleTable.ofCss "", "", ⟨"/p/s.css"⟩⟩ [⟨"/p/src/A.jsx"⟩] smallStart
      rs [smallComponent] [⟨⟨"/p/src/A.style.jsx"⟩, [small.moduleText [smallComponent]]⟩]
      smallEnd) ∧
    smallEnd.tree.readText smallEnd.here ⟨"/p/src/A.style.jsx"⟩
      = .ok (small.moduleText [smallComponent]) ∧
    Closed [smallComponent] := by
  have passes : small.formatter.Computes fun source _ _ => .ok source := fun _ _ _ _ => rfl
  obtain ⟨report, done⟩ := small_run
  obtain ⟨styles, files, w₁, w₂, rs, components, styleFiles, prepared, completed, texts, -, -,
    closed⟩ := styles_closed_iff rfl passes done
  rw [small_prepare] at prepared
  cases prepared
  obtain rfl := small_components completed
  have hosts : ∀ c ∈ [smallComponent], IsHost c.tag :=
    List.forall_mem_singleton.mpr ⟨by decide, List.all_eq_true.mp (by decide)⟩
  have grouped : Collection.byCompanion [smallComponent]
      = [(⟨"/p/src/A.style.jsx"⟩, [smallComponent])] := rfl
  rw [grouped] at texts closed
  obtain rfl := texts
  refine ⟨passes, ⟨report, done⟩, ⟨rs, completed⟩, by decide, ?_⟩
  exact (closed _ List.mem_cons_self [smallComponent] (List.prefix_refl _)).2.1 hosts

def customSource : String := "import \x7b B \x7d from './B'\nx = <B className=\"p\" />\n"

def customRewritten : String :=
  "import \x7b AStyle \x7d from './A.style'\nimport \x7b B \x7d from './B'\nx = <AStyle />\n"

def customTree : FileTree :=
  smallTree.set ["p", "src", "A.jsx"] (.file (.text customSource) false)

def customStart : Workspace Unit := { tree := customTree, here := [], memory := () }

def customElements : List Markup.Element :=
  [⟨⟨"/p/src/A.jsx"⟩, 0, "B", ⟨29, 30⟩, none, ⟨"p", ⟨31, 44⟩, ⟨30, 44⟩⟩⟩]

def customComponent : Styled := { smallComponent with tag := "B", constructor := "styled(B)" }

def customEdits : List Edit :=
  [⟨⟨29, 30⟩, "AStyle", "open B -> AStyle", 0⟩, ⟨⟨30, 44⟩, "", "drop className", 0⟩]

def customSet : EditSet := ⟨smallImport :: customEdits⟩

theorem custom_stages :
    Rewrite.Staged "className" ⟨"/p/src/A.jsx"⟩ customSource .jsx [customComponent] customEdits
      smallImport customSet ∧
    (Markup.scanSource small.config.classAttribute ⟨"/p/src/A.jsx"⟩ customSource .jsx).toOption
      = some customElements ∧
    (⟨StyleTable.ofCss "", small.config.componentSuffix⟩ : Component.Synthesizer).synthesizeFile
      ⟨"/p/src/A.jsx"⟩ customElements [] = (⟨["AStyle"], 0, ["p"]⟩, [customComponent]) ∧
    (⟨customSet.apply customSource, (Markup.scan "className" ⟨"/p/src/A.jsx"⟩ customSource
        (Language.jsx.parse customSource)).length,
      (Collection.forFile [customComponent] ⟨"/p/src/A.jsx"⟩).map (·.name)⟩ : Rewritten)
        = ⟨customRewritten, 1, ["AStyle"]⟩ := by
  decide +kernel

theorem custom_draft : small.draft (StyleTable.ofCss "") [] ⟨"/p/src/A.jsx"⟩ customSource
    = .ok (⟨["AStyle"], 0, ["p"]⟩, [customComponent], ⟨customRewritten, 1, ["AStyle"]⟩) := by
  obtain ⟨staged, scanned, made, result⟩ := custom_stages
  have rewritten : Rewrite.run small.config.classAttribute ⟨"/p/src/A.jsx"⟩ customSource .jsx
      [customComponent] = .ok ⟨customRewritten, 1, ["AStyle"]⟩ := by
    rw [← result]
    exact Rewrite.run_of_staged staged
  rw [draft_eq_ok_iff]
  exact ⟨.jsx, customElements, rfl, ok_of_toOption scanned, made.symm, rewritten⟩

theorem custom_prepare : small.prepare customStart
    = (.ok (⟨StyleTable.ofCss "", "", ⟨"/p/s.css"⟩⟩, [⟨"/p/src/A.jsx"⟩]), customStart) := by
  have extracted : small.extractStyles customStart
      = (.ok ⟨StyleTable.ofCss "", "", ⟨"/p/s.css"⟩⟩, customStart) := rfl
  have targets : small.targets customStart = (.ok [⟨"/p/src/A.jsx"⟩], customStart) :=
    small_targets_of rfl rfl rfl
  exact (Task.bind_of_ok extracted _).trans ((Task.bind_of_ok targets _).trans rfl)

def customStyles : String := small.moduleText [customComponent]

def customRevised : Workspace Unit :=
  (small.persist ⟨"/p/src/A.jsx"⟩ customRewritten customStart).2

def customStyled : Workspace Unit :=
  (small.persist ⟨"/p/src/A.style.jsx"⟩ customStyles customRevised).2

def customEnd : Workspace Unit := (small.persist ⟨"/p/s.css"⟩ "" customStyled).2

theorem custom_completes : small.Completes ⟨StyleTable.ofCss "", "", ⟨"/p/s.css"⟩⟩
    [⟨"/p/src/A.jsx"⟩] customStart [⟨⟨"/p/src/A.jsx"⟩, customSource, customRewritten⟩]
    [customComponent] [⟨⟨"/p/src/A.style.jsx"⟩, [customStyles]⟩] customEnd := by
  have rewritten : small.persist ⟨"/p/src/A.jsx"⟩ customRewritten customStart
      = (.ok true, customRevised) := rfl
  have revised : small.Revises (StyleTable.ofCss "") [] customStart
      ⟨⟨"/p/src/A.jsx"⟩, customSource, customRewritten⟩ [customComponent] customRevised :=
    ⟨rfl, _, customStart, true, custom_draft, rfl, rfl,
      settle_of_changed (by decide) rewritten⟩
  have text : small.header ++ "\n" ++ customComponent.definition = customStyles := by
    decide
  have appended : small.appendOne ⟨"/p/src/A.style.jsx"⟩ small.header customComponent customRevised
      = (.ok customStyles, customStyled) := by
    unfold appendOne
    rw [text]
    rfl
  have grouped : Collection.byCompanion [customComponent]
      = [(⟨"/p/src/A.style.jsx"⟩, [customComponent])] := rfl
  refine ⟨rfl, customRevised, customStyled, true, .cons revised (.nil _ _), ?_, rfl⟩
  rw [grouped]
  exact .cons (.cons appended (.nil _ _)) (.nil _)

/-- A style file is no closed module in general. -/
theorem styles_not_closed : ¬ ∀ (m : Migration Unit) (w w₁ w' : Workspace Unit) (report : Report)
    (styles : Styles) (files : List Path) (rs : List Revision) (components : Collection)
    (styleFiles : List StyleFile), m.dryRun = false →
    m.formatter.Computes (fun source _ _ => .ok source) → m.run w = (.ok report, w') →
    m.prepare w = (.ok (styles, files), w₁) →
    m.Completes styles files w₁ rs components styleFiles w' →
    ∀ g ∈ components.byCompanion, Closed g.2 := by
  intro always
  obtain ⟨report, done⟩ := custom_completes.run custom_prepare
  have closed := always small customStart customStart customEnd report _ _ _ _ _ rfl
    (fun _ _ _ _ => rfl) done custom_prepare custom_completes
    (⟨"/p/src/A.style.jsx"⟩, [customComponent]) List.mem_cons_self
  exact absurd closed (by decide +kernel)

end Migration

end Restyle
