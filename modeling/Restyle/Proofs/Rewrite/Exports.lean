import Restyle.Proofs.Component.Companion
import Restyle.Proofs.Component.Definition
import Restyle.Proofs.Rewrite.Content
/-!
What a file imports is what its companion exports. The imports are those of the components of the
file, the exports those of the group of a companion. Files with names have one companion only if they
are one file, so that the group has the components of one file.
-/

namespace Restyle

open Component (Collection Styled Synthesizer companionPath importSpecifier same_companionPath)
open Markup (Element)

namespace Component

namespace Collection

theorem perm_flatMap_addToGroup (c : Styled) (gs : List (Path × List Styled)) :
    ((addToGroup c gs).flatMap (·.2)).Perm (gs.flatMap (·.2) ++ [c]) := by
  rcases addToGroup_cases c gs with ⟨before, p, group, after, rfl, -, added⟩ | ⟨-, added⟩
  · rw [added]
    simp only [List.flatMap_append, List.flatMap_cons, List.append_assoc]
    exact (List.perm_append_comm.append_left group).append_left _
  · rw [added, List.flatMap_append, List.flatMap_singleton]

theorem perm_flatMap_byCompanion (cs : Collection) : ((byCompanion cs).flatMap (·.2)).Perm cs := by
  induction cs using List.reverseRecOn with
  | nil => exact List.Perm.nil
  | append_singleton cs c ih =>
      rw [byCompanion, List.foldl_append, List.foldl_cons, List.foldl_nil]
      exact (perm_flatMap_addToGroup c (byCompanion cs)).trans (ih.append_right [c])

def keys (gs : List (Path × List Styled)) : List (List Restyle.Component) :=
  gs.map fun g => g.1.components

theorem keys_addToGroup (c : Styled) (gs : List (Path × List Styled)) :
    keys (addToGroup c gs) = if (keys gs).contains c.companion.components then keys gs
      else keys gs ++ [c.companion.components] := by
  rcases addToGroup_cases c gs with ⟨before, p, group, after, rfl, same, added⟩ | ⟨other, added⟩
  · have there : p.components ∈ keys (before ++ (p, group) :: after) :=
      List.mem_map_of_mem (List.mem_append_right before List.mem_cons_self)
    rw [Path.same_iff.mp same] at there
    rw [if_pos (List.contains_iff_mem.mpr there), added]
    simp only [keys, List.map_append, List.map_cons]
  · have absent : ¬ (keys gs).contains c.companion.components = true := by
      rw [List.contains_iff_mem]
      intro there
      obtain ⟨g, member, key⟩ := List.mem_map.mp there
      have same : g.1.same c.companion = true := Path.same_iff.mpr key
      rw [other g member] at same
      cases same
    rw [if_neg absent, added]
    simp only [keys, List.map_append, List.map_cons, List.map_nil]

theorem keys_byCompanion (cs : Collection) :
    keys (byCompanion cs) = (cs.map fun c => c.companion.components).eraseDups := by
  induction cs using List.reverseRecOn with
  | nil => rfl
  | append_singleton cs c ih =>
      rw [byCompanion, List.foldl_append, List.foldl_cons, List.foldl_nil, List.map_append,
        List.map_singleton, OrderedTable.eraseDups_concat]
      change keys (addToGroup c (byCompanion cs)) = _
      rw [keys_addToGroup, ih]
      simp only [List.contains_iff_mem, List.mem_eraseDups]

variable {cs : Collection} {gs : List (Path × List Styled)}

theorem Grouped.unique (h : Grouped cs gs) {p : Path} {g k : Path × List Styled} (hg : g ∈ gs)
    (hk : k ∈ gs) (g_same : g.1.same p = true) (k_same : k.1.same p = true) : g = k := by
  have : Std.Symm fun g k : Path × List Styled => g.1.same k.1 = false :=
    ⟨fun g k apart => (Path.same_comm k.1 g.1).trans apart⟩
  by_contra different
  have other := (List.pairwise_map.mp h.apart).forall hg hk different
  rw [Path.same_congr k_same, g_same] at other
  cases other

theorem Grouped.mem_iff (h : Grouped cs gs) {c : Styled} (created : c ∈ cs)
    {g : Path × List Styled} (member : g ∈ gs) : c ∈ g.2 ↔ g.1.same c.companion = true := by
  rw [h.owned g member, List.mem_filter]
  exact and_iff_right created

/-- Groups that hold each component of a collection once: all with one companion in the order of their
creation, the groups in the order in which the companions first appear. -/
structure Partition (cs : Collection) (gs : List (Path × List Styled)) : Prop where
  complete : (gs.flatMap (·.2)).Perm cs
  once : ∀ c ∈ cs, ∃! g, g ∈ gs ∧ c ∈ g.2
  ordered : ∀ g ∈ gs, g.2 = cs.filter fun c => g.1.same c.companion
  firsts : keys gs = (cs.map fun c => c.companion.components).eraseDups

theorem partition_byCompanion (cs : Collection) : Partition cs (byCompanion cs) := by
  have grouped := grouped_byCompanion cs
  refine ⟨perm_flatMap_byCompanion cs, ?_, grouped.owned, keys_byCompanion cs⟩
  intro c created
  obtain ⟨p, key, same⟩ := grouped.whole c created
  obtain ⟨g, member, rfl⟩ := List.mem_map.mp key
  refine ⟨g, ⟨member, (grouped.mem_iff created member).mpr same⟩, ?_⟩
  rintro k ⟨among, holds⟩
  exact grouped.unique among member ((grouped.mem_iff created among).mp holds) same

def definedIn (cs : Collection) (companion : Path) : List Styled :=
  (((byCompanion cs).find? fun g => g.1.same companion).map (·.2)).getD []

theorem definedIn_eq (cs : Collection) (companion : Path) :
    cs.definedIn companion = cs.filter fun c => companion.same c.companion := by
  have grouped := grouped_byCompanion cs
  unfold definedIn
  cases found : (byCompanion cs).find? fun g => g.1.same companion with
  | some g =>
      have same : g.1.same companion = true := by simpa using List.find?_some found
      rw [Option.map_some, Option.getD_some, grouped.owned g (List.mem_of_find?_eq_some found)]
      refine List.filter_congr fun c _ => ?_
      rw [Path.same_comm, Path.same_congr same, Path.same_comm]
  | none =>
      rw [Option.map_none, Option.getD_none, eq_comm, List.filter_eq_nil_iff]
      intro c created same
      obtain ⟨p, key, named⟩ := grouped.whole c created
      obtain ⟨g, member, rfl⟩ := List.mem_map.mp key
      have none_same := List.find?_eq_none.mp found g member
      rw [Path.same_congr same, named] at none_same
      exact none_same rfl

end Collection

variable {s : Synthesizer} {calls : List (Path × List Element)}

theorem companion_of_mem_synthesizeAll {c : Styled} (made : c ∈ s.synthesizeAll calls) :
    c.companion = companionPath c.file ∧ ∃ call ∈ calls, c.file = call.1 := by
  obtain ⟨call, among, n, e, -, rfl⟩ := exists_call_of_mem_synthesizeAll made
  exact ⟨rfl, call, among, rfl⟩

theorem filter_companion_eq_forFile (named : ∀ call ∈ calls, call.1.fileName?.isSome = true)
    {file : Path} (name : file.fileName?.isSome = true) :
    (s.synthesizeAll calls).filter (fun c => (companionPath file).same c.companion)
      = (s.synthesizeAll calls).forFile file := by
  refine List.filter_congr fun c made => ?_
  obtain ⟨companion, call, among, own⟩ := companion_of_mem_synthesizeAll made
  rw [companion, same_companionPath name (own ▸ named call among)]
  exact Path.same_comm file c.file

end Component

namespace Rewrite

open Component.Collection (Partition partition_byCompanion grouped_byCompanion definedIn
  definedIn_eq)

theorem imported_of_run {attr : String} {file : Path} {source : String} {l : Language}
    {components : Collection} {r : Rewritten}
    (h : run attr file source l components = .ok r) :
    r.imported = (components.forFile file).map (·.name) := by
  by_cases owns : components.forFile file = []
  · rw [run_of_unowned owns] at h
    cases h
    rw [owns]
    rfl
  · obtain ⟨-, -, -, -, -, -, rfl⟩ := (run_eq_ok_iff owns).mp h
    rfl

/-- After calls of one synthesizer for files with names, the groups hold each component once, in the
order of creation and of first appearance. A group has the components of one file, which no other
file shares the companion of, and these have distinct names. So the names that a rewritten file
imports, by the statement that it holds, are those that the definitions in its companion export, one
after the other. -/
theorem imports_exported (s : Synthesizer) {calls : List (Path × List Element)}
    (named : ∀ call ∈ calls, call.1.fileName?.isSome = true) :
    Partition (s.synthesizeAll calls) (s.synthesizeAll calls).byCompanion ∧
    (∀ g ∈ (s.synthesizeAll calls).byCompanion,
      (g.2.map (·.name)).Nodup ∧
      ∃ call ∈ calls, g.2 = (s.synthesizeAll calls).forFile call.1 ∧
        ∀ file : Path, file.fileName?.isSome = true →
          g.1.same (companionPath file) = call.1.same file) ∧
    ∀ (attr : String) (file : Path) (source : String) (l : Language) (r : Rewritten),
      file.fileName?.isSome = true →
      run attr file source l (s.synthesizeAll calls) = .ok r →
      r.imported.Nodup ∧
      (∀ first, ((s.synthesizeAll calls).forFile file).head? = some first →
        (companionPath file).same first.companion = true ∧
        (importStatement r.imported (importSpecifier first.companion)
          (Script.quoteStyle source (l.parse source))
          (Script.usesSemicolons source (l.parse source))).toList <:+: r.content.toList) ∧
      List.Forall₂ (fun name c => c.definition
          = "export const " ++ name ++ " = " ++ c.constructor ++ c.template)
        r.imported ((s.synthesizeAll calls).definedIn (companionPath file)) := by
  have distinct : ∀ file, (((s.synthesizeAll calls).forFile file).map (·.name)).Nodup :=
    fun file => (Component.synthesizeAll_records s calls file).names_nodup
  refine ⟨partition_byCompanion _, ?_, ?_⟩
  · intro g member
    have grouped := grouped_byCompanion (s.synthesizeAll calls)
    obtain ⟨c, made, key⟩ := grouped.named g.1 (List.mem_map_of_mem member)
    obtain ⟨companion, call, among, own⟩ := Component.companion_of_mem_synthesizeAll made
    have key : g.1 = companionPath call.1 := by rw [key, companion, own]
    have group : g.2 = (s.synthesizeAll calls).forFile call.1 := by
      rw [grouped.owned g member, key]
      exact Component.filter_companion_eq_forFile named (named call among)
    refine ⟨group ▸ distinct call.1, call, among, group, ?_⟩
    intro file name
    rw [key, same_companionPath (named call among) name]
  · intro attr file source l r name ok
    refine ⟨imported_of_run ok ▸ distinct file, fun first owned => ⟨?_, import_in_content owned ok⟩,
      ?_⟩
    · have own := List.mem_of_head? owned
      rw [← Component.filter_companion_eq_forFile named name] at own
      exact (List.mem_filter.mp own).2
    · rw [imported_of_run ok, definedIn_eq, Component.filter_companion_eq_forFile named name,
        List.forall₂_map_left_iff, List.forall₂_same]
      exact fun c _ => c.definition_eq

def nestedCalls : List (Path × List Element) :=
  [(⟨"a.jsx"⟩, [⟨⟨"a.jsx"⟩, 0, "a", ⟨18, 19⟩, some ⟨57, 58⟩, ⟨"p", ⟨20, 33⟩, ⟨19, 33⟩⟩⟩]),
   (⟨"a"⟩, []),
   (⟨"a.jsx"⟩, [⟨⟨"a.jsx"⟩, 1, "b", ⟨37, 38⟩, none, ⟨"q", ⟨39, 52⟩, ⟨38, 52⟩⟩⟩])]

theorem imports_exported_nested :
    (∀ call ∈ nestedCalls, call.1.fileName?.isSome = true) ∧
    (∃ r, run "className" ⟨"a.jsx"⟩ nestedSource .jsx
      ((⟨Sheet.StyleTable.empty, "Style"⟩ : Synthesizer).synthesizeAll nestedCalls) = .ok r ∧
      r.imported = ["AStyle", "AStyle1"] ∧ r.imported.Nodup ∧
      (importStatement r.imported "./a.style" '\'' false).toList <:+: r.content.toList) ∧
    (Collection.definedIn nestedComponents (companionPath ⟨"a.jsx"⟩)).length = 2 := by
  have named : ∀ call ∈ nestedCalls, call.1.fileName?.isSome = true := by decide
  have made : (⟨Sheet.StyleTable.empty, "Style"⟩ : Synthesizer).synthesizeAll nestedCalls
      = nestedComponents := by decide +kernel
  obtain ⟨-, -, exported⟩ := imports_exported ⟨Sheet.StyleTable.empty, "Style"⟩ named
  rw [made] at exported ⊢
  obtain ⟨distinct, imports, defined⟩ := exported _ _ _ _ _ (by decide) run_nested
  have style : (importSpecifier (⟨"a.style.jsx"⟩ : Path) : String) = "./a.style" ∧
      Script.quoteStyle nestedSource (Language.jsx.parse nestedSource) = '\'' ∧
      Script.usesSemicolons nestedSource (Language.jsx.parse nestedSource) = false := by
    decide +kernel
  obtain ⟨-, shown⟩ := imports _ rfl
  rw [style.1, style.2.1, style.2.2] at shown
  exact ⟨named, ⟨_, run_nested, rfl, distinct, shown⟩, defined.length_eq.symm⟩

end Rewrite

end Restyle
