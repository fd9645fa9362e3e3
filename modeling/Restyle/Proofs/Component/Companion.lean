import Restyle.Component.Collection
import Restyle.Language
import Restyle.Proofs.Component.Synthesis
import Restyle.Proofs.FileTree.Overlay
import Restyle.Proofs.Path.Normal
/-!
The companion of a file stands in the directory of the file. Components with one companion make one
group, in the order of their creation.
-/

namespace Restyle

namespace Path

theorem components_of_fileName? {p : Path} {s : String} (h : p.fileName? = some s) :
    p.components = p.components.dropLast ++ [.name s] := by
  unfold fileName? at h
  split at h
  · rename_i c last
    cases h
    obtain ⟨cs, whole⟩ := List.getLast?_eq_some_iff.mp last
    rw [whole, List.dropLast_concat]
  · cases h

theorem isName_of_fileName? {p : Path} {s : String} (h : p.fileName? = some s) : IsName s := by
  unfold fileName? at h
  split at h
  · rename_i c last
    cases h
    have member : Component.name s ∈ p.components := List.mem_of_getLast? last
    rw [components_eq] at member
    rcases List.mem_append.mp member with head | named
    · rcases headComponents_cases p.head with h | h | h
      · rw [h] at head
        cases List.mem_singleton.mp head
      · rw [h] at head
        cases List.mem_singleton.mp head
      · rw [h] at head
        exact absurd head List.not_mem_nil
    · rcases isStep_of_mem_split named with parent | ⟨t, same, name⟩
      · cases parent
      · cases same
        exact name
  · cases h

theorem mem_of_mem_cutAtDot_fst {name : String} {c : Char} (h : c ∈ (cutAtDot name).1.toList) :
    c ∈ name.toList := by
  unfold cutAtDot at h
  dsimp only at h
  split at h
  · exact h
  · rw [String.toList_ofList, List.mem_reverse] at h
    exact List.mem_reverse.mp (List.mem_of_mem_drop (List.mem_of_mem_drop h))

theorem mem_of_mem_cutAtDot_snd {name e : String} {c : Char} (cut : (cutAtDot name).2 = some e)
    (h : c ∈ e.toList) : c ∈ name.toList := by
  unfold cutAtDot at cut
  dsimp only at cut
  split at cut
  · cases cut
  · cases cut
    rw [String.toList_ofList, List.mem_reverse] at h
    exact List.mem_reverse.mp ((List.takeWhile_sublist _).subset h)

theorem cutAtDot_eq_some {name stem e : String} (h : cutAtDot name = (stem, some e)) :
    name.toList = stem.toList ++ '.' :: e.toList ∧ '.' ∉ e.toList := by
  have split : name.toList.reverse.takeWhile (· != '.') ++ name.toList.reverse.dropWhile (· != '.')
      = name.toList.reverse := List.takeWhile_append_dropWhile
  have dotless : '.' ∉ name.toList.reverse.takeWhile (· != '.') := by
    intro dot
    have kept := List.all_eq_true.mp List.all_takeWhile _ dot
    simp at kept
  have stop := List.head_dropWhile_not (· != '.') (l := name.toList.reverse)
  unfold cutAtDot at h
  dsimp only at h
  generalize name.toList.reverse.takeWhile (· != '.') = after at *
  generalize name.toList.reverse.dropWhile (· != '.') = rest at *
  rw [← split, List.drop_left] at h
  cases rest with
  | nil => cases h
  | cons c cs =>
      have dot : c = '.' := by simpa using stop (List.cons_ne_nil c cs)
      rw [List.drop_one, List.tail_cons] at h
      split at h
      · cases h
      · cases h
        have whole : name.toList = (after ++ c :: cs).reverse := by
          rw [split, List.reverse_reverse]
        rw [whole, dot, String.toList_ofList, String.toList_ofList, List.mem_reverse]
        refine ⟨?_, dotless⟩
        rw [List.reverse_append, List.reverse_cons, List.append_assoc, List.singleton_append]

theorem cutAtDot_append {stem e : List Char} (some_stem : stem ≠ []) (dotless : '.' ∉ e) :
    cutAtDot (String.ofList (stem ++ '.' :: e)) = (String.ofList stem, some (String.ofList e)) := by
  have back : (String.ofList (stem ++ '.' :: e)).toList.reverse
      = e.reverse ++ '.' :: stem.reverse := by
    rw [String.toList_ofList, List.reverse_append, List.reverse_cons, List.append_assoc,
      List.singleton_append]
  have after : (e.reverse ++ '.' :: stem.reverse).takeWhile (· != '.') = e.reverse := by
    rw [List.takeWhile_append_of_pos, List.takeWhile_cons_of_neg, List.append_nil]
    · decide
    · intro c member
      exact bne_iff_ne.mpr fun dot => dotless (dot ▸ List.mem_reverse.mp member)
  unfold cutAtDot
  dsimp only
  rw [back, after, List.drop_left, List.drop_one, List.tail_cons,
    if_neg (by simpa using some_stem), List.reverse_reverse, List.reverse_reverse]

theorem stem_ne_nil_of_cutAtDot {name stem e : String} (h : cutAtDot name = (stem, some e)) :
    stem.toList ≠ [] := by
  unfold cutAtDot at h
  dsimp only at h
  split at h
  · cases h
  · rename_i rest
    cases h
    rw [String.toList_ofList]
    simpa using rest

theorem fst_cutAtDot_of_none {name : String} (h : (cutAtDot name).2 = none) :
    (cutAtDot name).1 = name := by
  unfold cutAtDot at h ⊢
  dsimp only at h ⊢
  split at h
  · rename_i rest
    rw [if_pos rest]
  · cases h

theorem cutAtDot_of_extension? {p : Path} {e : String} (h : p.extension? = some e) :
    ∃ s stem, p.fileName? = some s ∧ cutAtDot s = (stem, some e) := by
  rw [extension?, Option.bind_eq_some_iff] at h
  obtain ⟨s, name, extension⟩ := h
  exact ⟨s, _, name, Prod.ext rfl extension⟩

end Path

namespace Component

open Restyle.Path (IsName cutAtDot)

theorem isName_marked {stem : String} (rest : String) (stem_name : '/' ∉ stem.toList)
    (rest_name : '/' ∉ rest.toList) : IsName (stem ++ ".style" ++ rest) := by
  have text : (stem ++ ".style" ++ rest).toList
      = stem.toList ++ ['.', 's', 't', 'y', 'l', 'e'] ++ rest.toList := by
    rw [String.toList_append, String.toList_append]
    rfl
  have long : 6 ≤ (stem ++ ".style" ++ rest).toList.length := by
    rw [text, List.length_append, List.length_append]
    simp only [List.length_cons, List.length_nil]
    omega
  refine ⟨?_, ?_, ?_⟩
  · rw [text]
    simp [stem_name, rest_name]
  · cases idle : Path.isIdle (stem ++ ".style" ++ rest).toList with
    | false => rfl
    | true =>
        rcases Bool.or_eq_true_iff.mp idle with empty | dot
        · rw [List.isEmpty_iff.mp empty] at long
          exact absurd long (by decide)
        · rw [eq_of_beq dot] at long
          exact absurd long (by decide)
  · intro parent
    rw [parent] at long
    exact absurd long (by decide)

theorem stem?_getD {file : Path} {s : String} (h : file.fileName? = some s) :
    file.stem?.getD "" = (Path.cutAtDot s).1 := by
  rw [Path.stem?, h]
  rfl

def companionName (name : String) : String :=
  match cutAtDot name with
  | (stem, some e) => stem ++ ".style." ++ e
  | (stem, none) => stem ++ ".style"

theorem companionName_of_extension {name stem e : String} (cut : cutAtDot name = (stem, some e)) :
    companionName name = stem ++ ".style" ++ ("." ++ e) := by
  rw [companionName, cut]
  dsimp only
  rw [String.append_assoc, String.append_assoc]
  rfl

theorem companionName_of_plain {name stem : String} (cut : cutAtDot name = (stem, none)) :
    companionName name = stem ++ ".style" := by
  rw [companionName, cut]

theorem isName_companionName {name : String} (no_slash : '/' ∉ name.toList) :
    IsName (companionName name) := by
  have stem_name : '/' ∉ (cutAtDot name).1.toList := fun slash =>
    no_slash (Path.mem_of_mem_cutAtDot_fst slash)
  cases cut : cutAtDot name with
  | mk stem extension =>
      rw [cut] at stem_name
      cases extension with
      | some e =>
          have extension_name : '/' ∉ e.toList := fun slash =>
            no_slash (Path.mem_of_mem_cutAtDot_snd (congrArg Prod.snd cut) slash)
          rw [companionName_of_extension cut]
          exact isName_marked ("." ++ e) stem_name (by simp [extension_name])
      | none =>
          have proper := isName_marked "" stem_name (by simp)
          rw [String.append_empty] at proper
          rwa [companionName_of_plain cut]

theorem companionPath_eq {file : Path} {name : String} (h : file.fileName? = some name) :
    companionPath file = file.withFileName (companionName name) := by
  unfold companionPath companionName
  rw [stem?_getD h, Path.extension?, h, Option.bind_some]
  cases cutAtDot name with
  | mk stem extension =>
      cases extension with
      | some e => rfl
      | none => rfl

theorem components_companionPath {file : Path} {name : String} (h : file.fileName? = some name) :
    (companionPath file).components
      = file.components.dropLast ++ [.name (companionName name)] := by
  rw [companionPath_eq h]
  exact Path.components_withFileName h
    (isName_companionName (Path.isName_of_fileName? h).no_slash)

theorem holds_companionPath {t : FileTree} {here : Location} {file : Path} {s : String}
    (h : file.fileName? = some s) (holds : t.Holds here file) :
    t.Holds here (companionPath file) := by
  obtain ⟨d, walked, directory⟩ := holds
  refine ⟨d, ?_, directory⟩
  rw [components_companionPath h, List.dropLast_concat]
  exact walked

theorem eq_of_append_dot {before before' after after' : List Char}
    (same : before ++ '.' :: after = before' ++ '.' :: after') (none : '.' ∉ after)
    (none' : '.' ∉ after') : before = before' ∧ after = after' := by
  rcases List.append_eq_append_iff.mp same with ⟨between, rfl, rest⟩ | ⟨between, rfl, rest⟩
  · cases between with
    | nil => exact ⟨(List.append_nil before).symm, (List.cons.inj rest).2⟩
    | cons c cs =>
        rw [(List.cons.inj rest).2] at none
        exact absurd (List.mem_append_right cs List.mem_cons_self) none
  · cases between with
    | nil => exact ⟨List.append_nil before', (List.cons.inj rest).2.symm⟩
    | cons c cs =>
        rw [(List.cons.inj rest).2] at none'
        exact absurd (List.mem_append_right cs List.mem_cons_self) none'

theorem toList_companionName_of_extension {name stem e : String}
    (cut : cutAtDot name = (stem, some e)) :
    (companionName name).toList = (stem ++ ".style").toList ++ '.' :: e.toList := by
  have dotted : ("." ++ e).toList = '.' :: e.toList := String.toList_append
  rw [companionName_of_extension cut, String.toList_append, dotted]

theorem toList_companionName_of_plain {name stem : String} (cut : cutAtDot name = (stem, none)) :
    (companionName name).toList = name.toList ++ '.' :: "style".toList := by
  have stem_eq : stem = name := by
    rw [← Path.fst_cutAtDot_of_none (congrArg Prod.snd cut), cut]
  rw [companionName_of_plain cut, stem_eq, String.toList_append]
  rfl

/-- What stands before the last dot of a companion tells whether its file has an extension: if so, it
has a dot behind its first character itself. -/
theorem companionName_ne_of_plain {name name' stem stem' e : String}
    (cut : cutAtDot name = (stem, some e)) (plain : cutAtDot name' = (stem', none)) :
    companionName name ≠ companionName name' := by
  intro same
  have texts := congrArg String.toList same
  rw [toList_companionName_of_extension cut, toList_companionName_of_plain plain] at texts
  obtain ⟨front, -⟩ := eq_of_append_dot texts (Path.cutAtDot_eq_some cut).2 (by decide)
  have name_eq : name' = String.ofList (stem.toList ++ '.' :: "style".toList) := by
    apply String.toList_inj.mp
    rw [String.toList_ofList, ← front, String.toList_append]
    rfl
  rw [name_eq, Path.cutAtDot_append (Path.stem_ne_nil_of_cutAtDot cut) (by decide)] at plain
  cases plain

theorem companionName_injective : Function.Injective companionName := by
  intro name name' same
  have texts := congrArg String.toList same
  cases cut : cutAtDot name with
  | mk stem extension =>
    cases cut' : cutAtDot name' with
    | mk stem' extension' =>
      apply String.toList_inj.mp
      rcases extension with _ | e <;> rcases extension' with _ | e'
      · rw [toList_companionName_of_plain cut, toList_companionName_of_plain cut'] at texts
        exact List.append_cancel_right texts
      · exact absurd same.symm (companionName_ne_of_plain cut' cut)
      · exact absurd same (companionName_ne_of_plain cut cut')
      · obtain ⟨whole, dotless⟩ := Path.cutAtDot_eq_some cut
        obtain ⟨whole', dotless'⟩ := Path.cutAtDot_eq_some cut'
        rw [toList_companionName_of_extension cut, toList_companionName_of_extension cut'] at texts
        obtain ⟨stems, extensions⟩ := eq_of_append_dot texts dotless dotless'
        rw [String.toList_append, String.toList_append] at stems
        rw [whole, whole', List.append_cancel_right stems, extensions]

/-- A file is told by its companion. -/
theorem same_companionPath {p q : Path} (hp : p.fileName?.isSome = true)
    (hq : q.fileName?.isSome = true) :
    (companionPath p).same (companionPath q) = p.same q := by
  obtain ⟨s, name⟩ := Option.isSome_iff_exists.mp hp
  obtain ⟨s', name'⟩ := Option.isSome_iff_exists.mp hq
  rw [Bool.eq_iff_iff, Path.same_iff, Path.same_iff, components_companionPath name,
    components_companionPath name']
  rw [Path.components_of_fileName? name, Path.components_of_fileName? name',
    List.dropLast_concat, List.dropLast_concat]
  constructor
  · intro same
    obtain ⟨directory, last⟩ := List.append_inj' same rfl
    have names : companionName s = companionName s' := by
      injection (List.cons.inj last).1
    rw [directory, companionName_injective names]
  · intro same
    obtain ⟨directory, last⟩ := List.append_inj' same rfl
    have names : s = s' := by
      injection (List.cons.inj last).1
    rw [directory, names]

theorem place_of_components {here : Location} {p : Path} {parts : List Component} {s : String}
    (h : p.components = parts ++ [.name s]) :
    p.place here = parts.foldl stepFrom here ++ [s] := by
  rw [Path.place, h, List.foldl_append]
  rfl

/-- Files with names have one companion only if they are at one place. -/
theorem place_of_place_companionPath {here : Location} {p q : Path} {s s' : String}
    (hp : p.fileName? = some s) (hq : q.fileName? = some s')
    (same : (companionPath p).place here = (companionPath q).place here) :
    p.place here = q.place here := by
  rw [place_of_components (components_companionPath hp),
    place_of_components (components_companionPath hq)] at same
  obtain ⟨directory, last⟩ := List.append_inj' same rfl
  have names : s = s' := companionName_injective (List.cons.inj last).1
  rw [place_of_components (Path.components_of_fileName? hp),
    place_of_components (Path.components_of_fileName? hq), directory, names]

theorem companion_of_mem_synthesizeFile {s : Synthesizer} {file : Path} {es : List Markup.Element}
    {cs : Collection} {c : Styled} (h : c ∈ (s.synthesizeFile file es cs).2) :
    c ∈ cs ∨ c.companion = companionPath file := by
  rcases mem_synthesizeFile h with old | ⟨n, e, -, rfl⟩
  · exact .inl old
  · exact .inr rfl

namespace Collection

theorem addToGroup_cases (c : Styled) (gs : List (Path × List Styled)) :
    (∃ before p group after, gs = before ++ (p, group) :: after ∧ p.same c.companion = true ∧
      addToGroup c gs = before ++ (p, group ++ [c]) :: after) ∨
    (∀ g ∈ gs, g.1.same c.companion = false) ∧ addToGroup c gs = gs ++ [(c.companion, [c])] := by
  induction gs with
  | nil => exact .inr ⟨fun _ member => absurd member List.not_mem_nil, rfl⟩
  | cons g gs ih =>
      cases here : g.1.same c.companion with
      | true =>
          refine .inl ⟨[], g.1, g.2, gs, rfl, here, ?_⟩
          rw [addToGroup, if_pos here]
          rfl
      | false =>
          have later : addToGroup c (g :: gs) = g :: addToGroup c gs := by
            rw [addToGroup, if_neg (by rw [here]; exact Bool.false_ne_true)]
          rw [later]
          rcases ih with ⟨before, p, group, after, rfl, same, added⟩ | ⟨other, added⟩
          · exact .inl ⟨g :: before, p, group, after, rfl, same, by rw [added]; rfl⟩
          · refine .inr ⟨?_, by rw [added]; rfl⟩
            intro k member
            rcases List.mem_cons.mp member with rfl | member
            · exact here
            · exact other k member

/-- Groups of components: each of all those with its companion, and no two with one companion. -/
structure Grouped (cs : Collection) (gs : List (Path × List Styled)) : Prop where
  apart : (gs.map (·.1)).Pairwise fun p q => p.same q = false
  named : ∀ p ∈ gs.map (·.1), ∃ c ∈ cs, p = c.companion
  whole : ∀ c ∈ cs, ∃ p ∈ gs.map (·.1), p.same c.companion = true
  owned : ∀ g ∈ gs, g.2 = cs.filter fun c => g.1.same c.companion

theorem filter_concat_of_same {p : Path} {c : Styled} (same : p.same c.companion = true)
    (cs : Collection) : (cs ++ [c]).filter (fun d => p.same d.companion)
      = cs.filter (fun d => p.same d.companion) ++ [c] := by
  rw [List.filter_append]
  exact congrArg _ (List.filter_cons_of_pos same)

theorem filter_concat_of_other {p : Path} {c : Styled} (other : p.same c.companion = false)
    (cs : Collection) : (cs ++ [c]).filter (fun d => p.same d.companion)
      = cs.filter fun d => p.same d.companion := by
  have left_out : [c].filter (fun d => p.same d.companion) = [] :=
    List.filter_cons_of_neg (by rw [other]; exact Bool.false_ne_true)
  rw [List.filter_append, left_out, List.append_nil]

theorem Grouped.join {cs : Collection} {before after : List (Path × List Styled)} {p : Path}
    {group : List Styled} (h : Grouped cs (before ++ (p, group) :: after)) {c : Styled}
    (same : p.same c.companion = true) :
    Grouped (cs ++ [c]) (before ++ (p, group ++ [c]) :: after) := by
  have keys : (before ++ (p, group ++ [c]) :: after).map (·.1)
      = (before ++ (p, group) :: after).map (·.1) := by
    rw [List.map_append, List.map_append, List.map_cons, List.map_cons]
  have apart := h.apart
  rw [List.map_append, List.map_cons, List.pairwise_append, List.pairwise_cons] at apart
  obtain ⟨-, ⟨behind, -⟩, across⟩ := apart
  refine ⟨?_, ?_, ?_, ?_⟩
  · rw [keys]
    exact h.apart
  · rw [keys]
    intro q member
    obtain ⟨d, created, name⟩ := h.named q member
    exact ⟨d, List.mem_append_left _ created, name⟩
  · rw [keys]
    intro d member
    rcases List.mem_append.mp member with old | new
    · exact h.whole d old
    · rw [List.mem_singleton.mp new]
      exact ⟨p, List.mem_map_of_mem (List.mem_append_right _ List.mem_cons_self), same⟩
  · -- Only the group of the companion grows; the others have another one.
    intro g member
    rcases List.mem_append.mp member with first | rest
    · rw [h.owned g (List.mem_append_left _ first), filter_concat_of_other]
      rw [← Path.same_congr same]
      exact across g.1 (List.mem_map_of_mem first) p List.mem_cons_self
    rcases List.mem_cons.mp rest with rfl | last
    · have old : group = cs.filter fun d => p.same d.companion :=
        h.owned (p, group) (List.mem_append_right _ List.mem_cons_self)
      rw [filter_concat_of_same same, ← old]
    · rw [h.owned g (List.mem_append_right _ (List.mem_cons_of_mem _ last)),
        filter_concat_of_other]
      rw [← Path.same_congr same, Path.same_comm]
      exact behind g.1 (List.mem_map_of_mem last)

theorem Grouped.open {cs : Collection} {gs : List (Path × List Styled)} (h : Grouped cs gs)
    {c : Styled} (other : ∀ g ∈ gs, g.1.same c.companion = false) :
    Grouped (cs ++ [c]) (gs ++ [(c.companion, [c])]) := by
  have keys : (gs ++ [(c.companion, [c])]).map (·.1) = gs.map (·.1) ++ [c.companion] :=
    List.map_append
  have others : ∀ p ∈ gs.map (·.1), p.same c.companion = false := by
    intro p member
    obtain ⟨g, group, rfl⟩ := List.mem_map.mp member
    exact other g group
  have first : ∀ d ∈ cs, ¬ c.companion.same d.companion = true := by
    intro d created same
    obtain ⟨p, member, has⟩ := h.whole d created
    rw [← Path.same_congr same, others p member] at has
    cases has
  refine ⟨?_, ?_, ?_, ?_⟩
  · rw [keys, List.pairwise_append]
    refine ⟨h.apart, List.pairwise_singleton _ _, ?_⟩
    intro p member q new
    rw [List.mem_singleton.mp new]
    exact others p member
  · rw [keys]
    intro p member
    rcases List.mem_append.mp member with old | new
    · obtain ⟨d, created, name⟩ := h.named p old
      exact ⟨d, List.mem_append_left _ created, name⟩
    · rw [List.mem_singleton.mp new]
      exact ⟨c, List.mem_append_right _ List.mem_cons_self, rfl⟩
  · rw [keys]
    intro d member
    rcases List.mem_append.mp member with old | new
    · obtain ⟨p, key, has⟩ := h.whole d old
      exact ⟨p, List.mem_append_left _ key, has⟩
    · rw [List.mem_singleton.mp new]
      exact ⟨_, List.mem_append_right _ List.mem_cons_self, Path.same_refl _⟩
  · intro g member
    rcases List.mem_append.mp member with old | new
    · rw [filter_concat_of_other (other g old)]
      exact h.owned g old
    · rw [List.mem_singleton.mp new, filter_concat_of_same (Path.same_refl _),
        List.filter_eq_nil_iff.mpr first]
      rfl

theorem grouped_byCompanion (cs : Collection) : Grouped cs (byCompanion cs) := by
  induction cs using List.reverseRecOn with
  | nil =>
      exact ⟨List.Pairwise.nil, fun _ h => absurd h List.not_mem_nil,
        fun _ h => absurd h List.not_mem_nil, fun _ h => absurd h List.not_mem_nil⟩
  | append_singleton cs c ih =>
      rw [byCompanion, List.foldl_append, List.foldl_cons, List.foldl_nil]
      change Grouped (cs ++ [c]) (addToGroup c (byCompanion cs))
      rcases addToGroup_cases c (byCompanion cs) with
        ⟨before, p, group, after, grouped, same, added⟩ | ⟨other, added⟩
      · rw [grouped] at ih
        rw [added]
        exact ih.join same
      · rw [added]
        exact ih.open other

theorem addToGroup_append {c : Styled} {gs : List (Path × List Styled)}
    (other : ∀ g ∈ gs, g.1.same c.companion = false) (more : List (Path × List Styled)) :
    addToGroup c (gs ++ more) = gs ++ addToGroup c more := by
  induction gs with
  | nil => rfl
  | cons g gs ih =>
      have here : g.1.same c.companion = false := other g List.mem_cons_self
      rw [List.cons_append, addToGroup, if_neg (by rw [here]; exact Bool.false_ne_true)]
      rw [ih fun k member => other k (List.mem_cons_of_mem g member), List.cons_append]

/-- The group of components with one companion, if there are any. -/
def groupOf (companion : Path) (own : List Styled) : List (Path × List Styled) :=
  if own.isEmpty then [] else [(companion, own)]

theorem eq_of_mem_groupOf {companion : Path} {own : List Styled} {g : Path × List Styled}
    (h : g ∈ groupOf companion own) : g = (companion, own) := by
  unfold groupOf at h
  split at h
  · exact absurd h List.not_mem_nil
  · exact List.mem_singleton.mp h

theorem addToGroup_groupOf (c : Styled) (own : List Styled) :
    addToGroup c (groupOf c.companion own) = groupOf c.companion (own ++ [c]) := by
  cases own with
  | nil => rfl
  | cons d own =>
      change addToGroup c [(c.companion, d :: own)] = [(c.companion, d :: own ++ [c])]
      rw [addToGroup, if_pos (Path.same_refl _)]

theorem byCompanion_append {cs own : Collection} {companion : Path}
    (others : ∀ c ∈ cs, c.companion.same companion = false)
    (all : ∀ c ∈ own, c.companion = companion) :
    byCompanion (cs ++ own) = byCompanion cs ++ groupOf companion own := by
  induction own using List.reverseRecOn with
  | nil =>
      rw [List.append_nil]
      exact (List.append_nil _).symm
  | append_singleton own c ih =>
      have here : c.companion = companion := all c (List.mem_append_right _ List.mem_cons_self)
      have before : ∀ g ∈ byCompanion cs, g.1.same c.companion = false := by
        intro g member
        obtain ⟨d, created, name⟩ := (grouped_byCompanion cs).named g.1 (List.mem_map_of_mem member)
        rw [name, here]
        exact others d created
      rw [← List.append_assoc, byCompanion, List.foldl_append, List.foldl_cons, List.foldl_nil]
      change addToGroup c (byCompanion (cs ++ own)) = _
      rw [ih fun d member => all d (List.mem_append_left _ member), addToGroup_append before, ← here,
        addToGroup_groupOf]

theorem byCompanion_flatMap {α : Type} {companion : α → Path} {own : α → List Styled} {xs : List α}
    (all : ∀ x ∈ xs, ∀ c ∈ own x, c.companion = companion x)
    (apart : xs.Pairwise fun x y => (companion x).same (companion y) = false) :
    byCompanion (xs.flatMap own) = xs.flatMap fun x => groupOf (companion x) (own x) := by
  induction xs using List.reverseRecOn with
  | nil => rfl
  | append_singleton xs x ih =>
      obtain ⟨apart, -, last⟩ := List.pairwise_append.mp apart
      have others : ∀ c ∈ xs.flatMap own, c.companion.same (companion x) = false := by
        intro c member
        obtain ⟨y, among, owned⟩ := List.mem_flatMap.mp member
        rw [all y (List.mem_append_left _ among) c owned]
        exact last y among x List.mem_cons_self
      have here : ∀ c ∈ own x, c.companion = companion x :=
        all x (List.mem_append_right _ List.mem_cons_self)
      rw [List.flatMap_append, List.flatMap_append, List.flatMap_singleton, List.flatMap_singleton,
        byCompanion_append others here, ih (fun y among => all y (List.mem_append_left _ among)) apart]

end Collection

end Component

end Restyle
