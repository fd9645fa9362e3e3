import Restyle.Project
import Restyle.Proofs.Path.Components
/-!
Paths without dots. All paths that a project resolves go straight down from one place: the root of
the files or the working directory, the same for all of them.
-/

namespace Restyle.Path

/-- Components that go down from the root, or from the working directory, by names. -/
def Straight (rooted : Bool) (cs : List Component) : Prop :=
  ∃ names : List String, (∀ s ∈ names, IsName s) ∧
    cs = (if rooted then [.root] else []) ++ names.map .name

theorem Straight.nil : Straight false [] := ⟨[], fun _ h => absurd h List.not_mem_nil, rfl⟩

theorem Straight.root : Straight true [.root] := ⟨[], fun _ h => absurd h List.not_mem_nil, rfl⟩

theorem Straight.append {rooted : Bool} {cs : List Component} (h : Straight rooted cs)
    {names : List String} (new : ∀ s ∈ names, IsName s) :
    Straight rooted (cs ++ names.map .name) := by
  obtain ⟨old, proper, rfl⟩ := h
  refine ⟨old ++ names, ?_, by rw [List.map_append, List.append_assoc]⟩
  intro s member
  rcases List.mem_append.mp member with member | member
  · exact proper s member
  · exact new s member

theorem Straight.dropLast {rooted : Bool} {cs : List Component} (h : Straight rooted cs) :
    ∃ rooted', (rooted = false → rooted' = false) ∧ Straight rooted' cs.dropLast := by
  obtain ⟨names, proper, rfl⟩ := h
  rcases List.eq_nil_or_concat names with rfl | ⟨front, last, rfl⟩
  · refine ⟨false, fun _ => rfl, ?_⟩
    cases rooted <;> exact Straight.nil
  · refine ⟨rooted, id, front, ?_, ?_⟩
    · intro s member
      exact proper s (by rw [List.concat_eq_append]; exact List.mem_append_left _ member)
    · rw [List.concat_eq_append, List.map_append, ← List.append_assoc, List.map_singleton,
        List.dropLast_concat]

/-- A component to a parent or of a name. -/
def IsStep (c : Component) : Prop := c = .parent ∨ ∃ s, c = .name s ∧ IsName s

theorem isStep_of_mem_named {ss : List (List Char)} (h : ∀ s ∈ ss, '/' ∉ s) {c : Component}
    (member : c ∈ named ss) : IsStep c := by
  obtain ⟨s, hs, rfl⟩ := List.mem_map.mp member
  obtain ⟨inside, marked⟩ := List.mem_filter.mp hs
  unfold componentOf
  split
  · exact .inl rfl
  · rename_i no_parent
    refine .inr ⟨String.ofList s, rfl, ?_, ?_, ?_⟩
    · rw [String.toList_ofList]
      exact h s inside
    · rw [String.toList_ofList]
      simpa using marked
    · rw [String.toList_ofList]
      simpa using no_parent

theorem isStep_of_mem_split {t : List Char} {c : Component} (member : c ∈ named (split t)) :
    IsStep c :=
  isStep_of_mem_named (fun _ h => not_mem_of_mem_split h) member

theorem follow_append (passed cs ds : List Component) :
    follow passed (cs ++ ds) = follow (follow passed cs).reverse ds := by
  induction cs generalizing passed with
  | nil => rw [List.nil_append, follow, List.reverse_reverse]
  | cons c cs ih => cases c <;> exact ih _

theorem follow_straight {cs : List Component} (steps : ∀ c ∈ cs, IsStep c) {rooted : Bool}
    {passed : List Component} (h : Straight rooted passed.reverse) :
    ∃ rooted', (rooted = false → rooted' = false) ∧ Straight rooted' (follow passed cs) := by
  induction cs generalizing rooted passed with
  | nil => exact ⟨rooted, id, h⟩
  | cons c cs ih =>
      have later : ∀ d ∈ cs, IsStep d := fun d hd => steps d (List.mem_cons_of_mem c hd)
      rcases steps c List.mem_cons_self with rfl | ⟨s, rfl, name⟩
      · obtain ⟨rooted', unrooted, shorter⟩ := h.dropLast
        rw [List.dropLast_reverse] at shorter
        obtain ⟨rooted'', unrooted', straight⟩ := ih later shorter
        exact ⟨rooted'', fun no_root => unrooted' (unrooted no_root), straight⟩
      · apply ih later
        rw [List.reverse_cons]
        exact h.append fun t ht => by rw [List.mem_singleton.mp ht]; exact name

theorem headComponents_cases (h : List Char) :
    headComponents h = [.root] ∨ headComponents h = [.current] ∨ headComponents h = [] := by
  unfold headComponents
  split
  · exact .inl rfl
  · exact .inr (.inl rfl)
  · exact .inr (.inr rfl)

theorem follow_components (p : Path) : ∃ rooted, Straight rooted (follow [] p.components) := by
  have steps : ∀ c ∈ named p.segments, IsStep c := fun c member => isStep_of_mem_split member
  have here : Straight false ([] : List Component).reverse := Straight.nil
  rw [components_eq]
  rcases headComponents_cases p.head with head | head | head
  · rw [head]
    have root : Straight true [Component.root].reverse := Straight.root
    obtain ⟨rooted, -, straight⟩ := follow_straight steps root
    exact ⟨rooted, straight⟩
  · rw [head]
    obtain ⟨rooted, -, straight⟩ := follow_straight steps here
    exact ⟨rooted, straight⟩
  · rw [head]
    obtain ⟨rooted, -, straight⟩ := follow_straight steps here
    exact ⟨rooted, straight⟩

theorem components_ofComponents {rooted : Bool} {cs : List Component} (h : Straight rooted cs) :
    (ofComponents cs).components = cs := by
  obtain ⟨names, proper, rfl⟩ := h
  have start : (ofComponents (if rooted then [.root] else [])).components
      = if rooted then [.root] else [] := by
    cases rooted <;> rfl
  have pushed : ofComponents ((if rooted then [.root] else []) ++ names.map .name)
      = names.foldl (fun p s => p.push ⟨s⟩) (ofComponents (if rooted then [.root] else [])) := by
    rw [ofComponents, List.foldl_append, List.foldl_map]
    rfl
  rw [pushed, components_foldl_push proper, start]

theorem components_normalize (p : Path) : p.normalize.components = follow [] p.components := by
  obtain ⟨rooted, straight⟩ := follow_components p
  exact components_ofComponents straight

theorem isAbsolute_iff (p : Path) : p.isAbsolute = true ↔ headComponents p.head = [.root] := by
  have head_text : p.head = p.text.toList.take (headLength p.text.toList) := rfl
  rw [isAbsolute, head_text]
  rcases headLength_cases p.text.toList with ⟨r, h⟩ | h | ⟨r, h⟩ | h | ⟨c, r, h, slash, no_dot⟩
  · rw [h]
    exact ⟨fun _ => rfl, fun _ => rfl⟩
  · rw [h]
    exact ⟨fun h => absurd h (by decide), fun h => absurd h (by decide)⟩
  · rw [h]
    exact ⟨fun h => absurd h (by simp), fun h => absurd h (by simp [headComponents, headLength])⟩
  · rw [h]
    exact ⟨fun h => absurd h (by decide), fun h => absurd h (by decide)⟩
  · rw [h, headLength_of_ne slash no_dot]
    exact ⟨fun h => absurd h (by simp [slash]), fun h => absurd h (by simp [headComponents])⟩

theorem follow_relative {p : Path} (relative : p.isAbsolute = false) :
    ∃ cs, (∀ c ∈ cs, IsStep c) ∧ follow [] p.components = follow [] cs := by
  refine ⟨named p.segments, fun c member => isStep_of_mem_split member, ?_⟩
  rw [components_eq]
  rcases headComponents_cases p.head with head | head | head
  · rw [(isAbsolute_iff p).mpr head] at relative
    cases relative
  · rw [head]
    rfl
  · rw [head]
    rfl

theorem follow_push (p : Path) {q : Path} (relative : q.isAbsolute = false) :
    ∃ cs, (∀ c ∈ cs, IsStep c) ∧
      follow [] (p.push q).components = follow (follow [] p.components).reverse cs := by
  by_cases no_text : p.text.toList = []
  · rw [push_of_empty no_text, components_of_empty no_text]
    exact follow_relative relative
  · refine ⟨named (split q.text.toList), fun c member => isStep_of_mem_split member, ?_⟩
    rw [components_push no_text relative, follow_append]

end Restyle.Path

namespace Restyle.Project

open Restyle.Path (Straight)

/-- All paths that are resolved below a root go straight down from the same place. -/
theorem resolve_straight (root : Path) :
    ∃ rooted, ∀ p q, resolve root p = .ok q → Straight rooted q.components := by
  obtain ⟨rooted, from_root⟩ := Path.follow_components root
  refine ⟨rooted, ?_⟩
  intro p q resolved
  unfold resolve at resolved
  split at resolved
  · cases resolved
  rename_i relative
  dsimp only at resolved
  split at resolved
  · rename_i below
    cases resolved
    have from_root' : Straight rooted (Path.follow [] root.components).reverse.reverse := by
      rw [List.reverse_reverse]
      exact from_root
    obtain ⟨cs, steps, followed⟩ := Path.follow_push root (by simpa using relative)
    obtain ⟨rooted', unrooted, straight⟩ := Path.follow_straight steps from_root'
    rw [Path.components_normalize, followed]
    rw [Path.startsWith, Path.components_normalize, Path.components_normalize, followed,
      List.isPrefixOf_iff_prefix] at below
    cases rooted with
    | false => rwa [unrooted rfl] at straight
    | true =>
        -- The way begins with the root's own way, so with the root of the files.
        cases rooted' with
        | true => exact straight
        | false =>
            obtain ⟨names, -, way⟩ := straight
            obtain ⟨above, -, start⟩ := from_root
            obtain ⟨rest, whole⟩ := below
            rw [way, start] at whole
            cases names with
            | nil => cases whole
            | cons s names => cases (List.cons.inj whole).1
  · cases resolved

end Restyle.Project
