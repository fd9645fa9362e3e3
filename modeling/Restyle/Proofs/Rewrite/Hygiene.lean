import Restyle.Proofs.Rewrite.Exports
/-!
The names that a file imports, and the names that it has. The imported names are counted off from the
name of the file, whatever the file itself says. They begin with no small letter, but a file may have
them already.
-/

namespace Restyle

namespace Script

open Syntax (Node)

mutual
/-- The identifiers of a tree as they are written: what it imports and declares, what it refers to,
and the names in its tags. -/
def identifiersIn (source : String) : Node → List String
  | .mk k r s cs =>
    let n := Node.mk k r s cs
    (if n.is "identifier" || n.is "type_identifier" then [n.text source] else [])
      ++ identifiersInAll source cs

def identifiersInAll (source : String) : List Node → List String
  | [] => []
  | n :: ns => identifiersIn source n ++ identifiersInAll source ns
end

end Script

namespace Rewrite

open Component (Collection Styled Synthesizer componentName componentName_capital
  isPrefix_componentName componentName_injective synthesizeAll_records literals elementsOf)
open Markup (Element)
open Script (identifiersIn)

/-- None of the names is an identifier of the source. -/
def Hygienic (source : String) (tree : Syntax.Node) (names : List String) : Prop :=
  ∀ name ∈ names, name ∉ identifiersIn source tree

/-- After calls of one synthesizer a rewritten file imports the first names that are counted off from
its own name, one for each of its class texts. They are distinct and none begins with a small letter,
so that none is the name of an element of the platform. Nothing else is asked of them: the import is
hygienic just if the source has no such name, and it is if no identifier begins as they all do. -/
theorem imported_counted (s : Synthesizer) (calls : List (Path × List Element)) {attr : String}
    {file : Path} {source : String} {l : Language} {r : Rewritten}
    (ok : run attr file source l (s.synthesizeAll calls) = .ok r) :
    let count := (literals (elementsOf calls file)).eraseDups.length
    r.imported = (List.range count).map (componentName s.suffix file) ∧
    r.imported.Nodup ∧
    (∀ name ∈ r.imported, ∃ c cs, name.toList = c :: cs ∧ c.isLower = false) ∧
    (Hygienic source (l.parse source) r.imported ↔
      ∀ k < count, componentName s.suffix file k ∉ identifiersIn source (l.parse source)) ∧
    ((∀ x ∈ identifiersIn source (l.parse source),
        ¬ (componentName s.suffix file 0).toList <+: x.toList) →
      Hygienic source (l.parse source) r.imported) := by
  intro count
  have records := synthesizeAll_records s calls file
  have owned : ((s.synthesizeAll calls).forFile file).length = count := by
    rw [← List.length_map, records.texts]
  have names : r.imported = (List.range count).map (componentName s.suffix file) := by
    rw [imported_of_run ok, records.names, owned]
  have named : ∀ name ∈ r.imported, ∃ k < count, componentName s.suffix file k = name := by
    intro name member
    rw [names] at member
    obtain ⟨k, below, rfl⟩ := List.mem_map.mp member
    exact ⟨k, List.mem_range.mp below, rfl⟩
  refine ⟨names, ?_, ?_, ?_, ?_⟩
  · rw [imported_of_run ok]
    exact records.names_nodup
  · intro name member
    obtain ⟨k, -, rfl⟩ := named name member
    exact componentName_capital s.suffix file k
  · constructor
    · intro hygienic k below
      refine hygienic _ ?_
      rw [names]
      exact List.mem_map_of_mem (List.mem_range.mpr below)
    · intro absent name member
      obtain ⟨k, below, rfl⟩ := named name member
      exact absent k below
  · intro none_begins name member there
    obtain ⟨k, -, rfl⟩ := named name member
    exact none_begins _ there (isPrefix_componentName s.suffix file k)

theorem imported_counted_nested :
    (∃ r, run "className" ⟨"a.jsx"⟩ nestedSource .jsx
      ((⟨Sheet.StyleTable.empty, "Style"⟩ : Synthesizer).synthesizeAll nestedCalls) = .ok r ∧
      Hygienic nestedSource (Language.jsx.parse nestedSource) r.imported) := by
  have made : (⟨Sheet.StyleTable.empty, "Style"⟩ : Synthesizer).synthesizeAll nestedCalls
      = nestedComponents := by decide +kernel
  have ok := run_nested
  rw [← made] at ok
  obtain ⟨-, -, -, -, hygienic⟩ := imported_counted _ nestedCalls ok
  exact ⟨_, ok, hygienic (by decide +kernel)⟩

/-- A file that imports a name which its own component gets too. -/
def clashSource : String := "import \x7b AStyle \x7d from './b'\nx = <a className=\"p\" />\n"

def clashElements : List Element :=
  [⟨⟨"a.jsx"⟩, 0, "a", ⟨34, 35⟩, none, ⟨"p", ⟨36, 49⟩, ⟨35, 49⟩⟩⟩]

def clashComponents : Collection :=
  [⟨"AStyle", ⟨"a.jsx"⟩, ⟨"a.style.jsx"⟩, "p", "a", "styled.a", ""⟩]

def clashImport : Edit :=
  ⟨⟨0, 0⟩, "import \x7b AStyle \x7d from './a.style'\n", "import components", -1⟩

def clashEdits : List Edit :=
  [⟨⟨34, 35⟩, "AStyle", "open a -> AStyle", 0⟩, ⟨⟨35, 49⟩, "", "drop className", 0⟩]

def clashSet : EditSet := ⟨clashImport :: clashEdits⟩

theorem clash_stages :
    Staged "className" ⟨"a.jsx"⟩ clashSource .jsx clashComponents clashEdits clashImport clashSet ∧
    (Markup.scanSource "className" ⟨"a.jsx"⟩ clashSource .jsx).toOption = some clashElements ∧
    (Language.jsx.parse clashSource).hasFault = false ∧
    ((⟨Sheet.StyleTable.empty, "Style"⟩ : Synthesizer).synthesizeFile ⟨"a.jsx"⟩ clashElements []).2
      = clashComponents ∧
    "AStyle" ∈ (clashComponents.forFile ⟨"a.jsx"⟩).map (·.name) ∧
    "AStyle" ∈ identifiersIn clashSource (Language.jsx.parse clashSource) := by
  decide +kernel

/-- What is imported may be imported already. -/
theorem import_not_hygienic : ¬ ∀ (s : Synthesizer) (attr : String) (file : Path)
    (source : String) (l : Language) (elements : List Element) (r : Rewritten),
    Markup.scanSource attr file source l = .ok elements → (l.parse source).hasFault = false →
    run attr file source l (s.synthesizeFile file elements []).2 = .ok r →
    Hygienic source (l.parse source) r.imported := by
  intro always
  obtain ⟨staged, scanned, faultless, made, imported, there⟩ := clash_stages
  have result := run_of_staged staged
  rw [← made] at result imported
  exact always ⟨Sheet.StyleTable.empty, "Style"⟩ "className" ⟨"a.jsx"⟩ clashSource .jsx
    clashElements _ (ok_of_toOption scanned) faultless result "AStyle" imported there

end Rewrite

end Restyle
