import Restyle.Proofs.Path.Places
/-!
Paths inside a project. Below an absolute root without steps to parents, a path is resolved exactly
if it is relative and leads, without going above the root of the files, to the root or below it; it
is resolved to the absolute path of that place, which is found again from how it is shown.
-/

namespace Restyle

namespace Path

open Component (stepFrom)

variable {p q root : Path} {l base rest names : Location}

def ofLocation (l : Location) : Path := ⟨String.ofList ('/' :: join (l.map String.toList))⟩

theorem toList_ofLocation (l : Location) :
    (ofLocation l).text.toList = '/' :: join (l.map String.toList) := String.toList_ofList

theorem join_concat {ss : List (List Char)} (some_segment : ss ≠ []) (s : List Char) :
    join (ss ++ [s]) = join ss ++ '/' :: s := by
  induction ss with
  | nil => exact absurd rfl some_segment
  | cons t ss ih =>
      cases ss with
      | nil => rfl
      | cons u us =>
          change t ++ '/' :: join (u :: us ++ [s]) = t ++ '/' :: join (u :: us) ++ '/' :: s
          rw [ih (List.cons_ne_nil u us), List.append_assoc]
          rfl

theorem IsName.ne_nil {s : String} (h : IsName s) : s.toList ≠ [] := by
  intro empty
  have marked := h.not_idle
  rw [empty] at marked
  cases marked

theorem IsName.getLast?_ne {s : String} (h : IsName s) (before : List Char) :
    (before ++ s.toList).getLast? ≠ some '/' := by
  cases last : s.toList.getLast? with
  | none => exact absurd (List.getLast?_eq_none_iff.mp last) h.ne_nil
  | some c =>
      rw [List.getLast?_append, last, Option.some_or, ne_eq, Option.some.injEq]
      rintro rfl
      exact h.no_slash (List.mem_of_getLast? last)

theorem push_ofLocation {s : String} (proper : ∀ t ∈ l, IsName t) (name : IsName s) :
    (ofLocation l).push ⟨s⟩ = ofLocation (l ++ [s]) := by
  suffices text : ((ofLocation l).push ⟨s⟩).text.toList = (ofLocation (l ++ [s])).text.toList from
    congrArg Path.mk (String.toList_injective text)
  rw [toList_ofLocation, List.map_append, List.map_singleton]
  rcases List.eq_nil_or_concat l with rfl | ⟨front, t, rfl⟩
  · exact toList_push_of_slash (p := ofLocation []) name.relative rfl
  · rw [List.concat_eq_append] at proper ⊢
    have some_text : (ofLocation (front ++ [t])).text.toList ≠ [] := by
      rw [toList_ofLocation]
      exact List.cons_ne_nil _ _
    have ends : ∃ before, (ofLocation (front ++ [t])).text.toList = before ++ t.toList := by
      rw [toList_ofLocation, List.map_append, List.map_singleton]
      by_cases first : front.map String.toList = []
      · exact ⟨['/'], by rw [first]; rfl⟩
      · refine ⟨'/' :: join (front.map String.toList) ++ ['/'], ?_⟩
        rw [join_concat first, List.append_assoc]
        rfl
    obtain ⟨before, text⟩ := ends
    have last_name : IsName t := proper t List.mem_concat_self
    have no_slash : (ofLocation (front ++ [t])).text.toList.getLast? ≠ some '/' := by
      rw [text]
      exact last_name.getLast?_ne before
    rw [toList_push_of_other name.relative some_text no_slash, toList_ofLocation, join_concat]
    · rfl
    · simp

theorem ofComponents_root (proper : ∀ s ∈ l, IsName s) :
    ofComponents (.root :: l.map .name) = ofLocation l := by
  induction l using List.reverseRecOn with
  | nil => rfl
  | append_singleton l s ih =>
      have front : ∀ t ∈ l, IsName t := fun t member => proper t (List.mem_append_left _ member)
      have name : IsName s := proper s List.mem_concat_self
      have step := ih front
      unfold ofComponents at step ⊢
      rw [List.map_append, ← List.cons_append, List.foldl_append, step]
      exact push_ofLocation front name

theorem named_join (proper : ∀ s ∈ names, IsName s) :
    named (split (join (names.map String.toList))) = names.map .name := by
  have one_by_one : named (names.map String.toList) = names.map .name := by
    induction names with
    | nil => rfl
    | cons s names ih =>
        have name : IsName s := proper s List.mem_cons_self
        have first : named [s.toList] = [.name s] := by
          rw [← split_of_not_mem name.no_slash, named_split_name name]
        have later := ih fun t member => proper t (List.mem_cons_of_mem s member)
        rw [List.map_cons, ← List.singleton_append, named_append, first, later]
        rfl
  cases names with
  | nil => rfl
  | cons s names =>
      have some_segment : (s :: names).map String.toList ≠ [] := List.cons_ne_nil _ _
      rw [split_join some_segment, one_by_one]
      intro t member
      obtain ⟨u, among, rfl⟩ := List.mem_map.mp member
      exact (proper u among).no_slash

theorem components_ofLocation (l : Location) :
    (ofLocation l).components = .root :: named (split (join (l.map String.toList))) := by
  rw [components_of_text (toList_ofLocation l)]
  rfl

theorem segment_ofLocation (proper : ∀ s ∈ l, IsName s) {t : List Char}
    (member : t ∈ split (ofLocation l).text.toList) : t ≠ ['.'] ∧ t ≠ ['.', '.'] := by
  have of_empty : ∀ u : List Char, u = [] → u ≠ ['.'] ∧ u ≠ ['.', '.'] := by
    rintro u rfl
    exact ⟨nofun, nofun⟩
  rw [toList_ofLocation, split_slash] at member
  rcases List.mem_cons.mp member with first | later
  · exact of_empty t first
  by_cases nothing : l = []
  · subst nothing
    exact of_empty t (List.mem_singleton.mp later)
  · have no_slash : ∀ u ∈ l.map String.toList, '/' ∉ u := by
      intro u among
      obtain ⟨s, name, rfl⟩ := List.mem_map.mp among
      exact (proper s name).no_slash
    rw [split_join (fun empty => nothing (List.map_eq_nil_iff.mp empty)) no_slash] at later
    obtain ⟨s, among, rfl⟩ := List.mem_map.mp later
    have name := proper s among
    refine ⟨fun dot => ?_, name.not_parent⟩
    have marked := name.not_idle
    rw [dot] at marked
    cases marked

theorem names_of_steps {cs : List Component} (steps : ∀ c ∈ cs, IsStep c)
    (no_parent : Component.parent ∉ cs) :
    ∃ names : List String, (∀ s ∈ names, IsName s) ∧ cs = names.map .name := by
  induction cs with
  | nil => exact ⟨[], fun _ h => absurd h List.not_mem_nil, rfl⟩
  | cons c cs ih =>
      rw [List.mem_cons, not_or] at no_parent
      have later : ∀ d ∈ cs, IsStep d := fun d hd => steps d (List.mem_cons_of_mem c hd)
      obtain ⟨names, proper, rfl⟩ := ih later no_parent.2
      rcases steps c List.mem_cons_self with rfl | ⟨s, rfl, name⟩
      · exact absurd rfl no_parent.1
      · refine ⟨s :: names, ?_, rfl⟩
        intro t member
        rcases List.mem_cons.mp member with rfl | later
        · exact name
        · exact proper t later

theorem components_of_plain (absolute : root.isAbsolute = true)
    (no_parent : Component.parent ∉ root.components) :
    (∀ s ∈ root.place [], IsName s) ∧ root.components = .root :: (root.place []).map .name := by
  obtain ⟨t, parts⟩ := components_of_absolute absolute
  rw [parts, List.mem_cons, not_or] at no_parent
  obtain ⟨names, proper, named⟩ :=
    names_of_steps (fun c member => isStep_of_mem_split member) no_parent.2
  rw [named] at parts
  have place : root.place [] = names := place_of_straight true [] parts
  rw [place]
  exact ⟨proper, parts⟩

theorem follow_map_name (passed : List Component) (names : List String) :
    follow passed (names.map .name) = passed.reverse ++ names.map .name := by
  induction names generalizing passed with
  | nil => exact (List.append_nil _).symm
  | cons s names ih =>
      change follow (.name s :: passed) (names.map .name) = _
      rw [ih, List.reverse_cons, List.append_assoc]
      rfl

theorem follow_root_names (names : List String) :
    follow [] (.root :: names.map .name) = .root :: names.map .name :=
  follow_map_name [.root] names

/-- Where a relative path leads below a root, the root of the files is kept unless the path goes
above it. -/
theorem components_normalize_push (absolute : root.isAbsolute = true)
    (no_parent : Component.parent ∉ root.components) (relative : p.isAbsolute = false) :
    (root.push p).normalize.components
      = (if p.NeverAboveRoot (root.place []) then [.root] else [])
        ++ (p.place (root.place [])).map .name := by
  obtain ⟨proper, parts⟩ := components_of_plain absolute no_parent
  have some_text : root.text.toList ≠ [] := by
    intro empty
    rw [isAbsolute, empty] at absolute
    cases absolute
  have from_root : (follow [] root.components).reverse
      = ((root.place []).map Component.name).reverse ++ [.root] := by
    rw [parts, follow_root_names, List.reverse_cons]
  rw [components_normalize, components_push some_text relative, follow_append, from_root,
    follow_root (root_not_mem_named _), place_of_relative relative]
  simp only [neverAboveRoot_of_relative relative]

theorem Straight.isName {rooted : Bool} {cs : List Component} (h : Straight rooted cs) {s : String}
    (member : .name s ∈ cs) : IsName s := by
  obtain ⟨names, proper, rfl⟩ := h
  rcases List.mem_append.mp member with head | later
  · cases rooted with
    | false => exact absurd head List.not_mem_nil
    | true => cases List.mem_singleton.mp head
  · obtain ⟨t, among, same⟩ := List.mem_map.mp later
    cases same
    exact proper s among

theorem normalize_push_eq (absolute : root.isAbsolute = true)
    (no_parent : Component.parent ∉ root.components) (relative : p.isAbsolute = false)
    (inside : p.NeverAboveRoot (root.place [])) :
    (∀ s ∈ p.place (root.place []), IsName s) ∧
      (root.push p).normalize = ofLocation (p.place (root.place [])) := by
  have parts := components_normalize_push absolute no_parent relative
  rw [if_pos inside, components_normalize] at parts
  have proper : ∀ s ∈ p.place (root.place []), IsName s := by
    intro s member
    obtain ⟨rooted, straight⟩ := follow_components (root.push p)
    rw [parts] at straight
    exact straight.isName (List.mem_append_right _ (List.mem_map_of_mem member))
  refine ⟨proper, ?_⟩
  rw [normalize, parts]
  exact ofComponents_root proper

theorem startsWith_normalize_push_iff (absolute : root.isAbsolute = true)
    (no_parent : Component.parent ∉ root.components) (relative : p.isAbsolute = false) :
    (root.push p).normalize.startsWith root.normalize = true
      ↔ p.NeverAboveRoot (root.place []) ∧ root.place [] <+: p.place (root.place []) := by
  have root_parts : root.normalize.components = .root :: (root.place []).map .name := by
    rw [components_normalize, (components_of_plain absolute no_parent).2, follow_root_names]
  rw [startsWith, root_parts, components_normalize_push absolute no_parent relative,
    List.isPrefixOf_iff_prefix]
  split
  · rename_i inside
    rw [List.singleton_append, List.cons_prefix_cons]
    refine ⟨fun h => ⟨inside, ?_⟩, fun h => ⟨rfl, h.2.map _⟩⟩
    exact (List.prefix_map_iff_of_injective fun _ _ => Component.name.inj).mp h.2
  · rename_i outside
    refine ⟨fun h => ?_, fun h => absurd h.1 outside⟩
    obtain ⟨later, whole⟩ := h
    have first : Component.root ∈ (p.place (root.place [])).map Component.name := by
      rw [List.nil_append] at whole
      rw [← whole]
      exact List.mem_cons_self
    obtain ⟨s, -, same⟩ := List.mem_map.mp first
    cases same

theorem dropNames_append {ss : List (List Char)} (marked : ∀ s ∈ ss, isIdle s = false)
    (ts : List (List Char)) : dropNames ss.length (ss ++ ts) = ts.dropWhile isIdle := by
  induction ss with
  | nil => rw [List.length_nil, dropNames, List.nil_append]
  | cons s ss ih =>
      rw [List.length_cons, List.cons_append, dropNames, marked s List.mem_cons_self,
        if_neg Bool.false_ne_true]
      exact ih fun t member => marked t (List.mem_cons_of_mem s member)

theorem dropWhile_of_marked {ts : List (List Char)} (marked : ∀ s ∈ ts, isIdle s = false) :
    ts.dropWhile isIdle = ts := by
  cases ts with
  | nil => rfl
  | cons s ts =>
      rw [List.dropWhile_cons, marked s List.mem_cons_self, if_neg Bool.false_ne_true]

theorem segments_behind (proper : ∀ s ∈ base ++ rest, IsName s) :
    dropIdle (dropNames base.length (split (join ((base ++ rest).map String.toList))))
      = rest.map String.toList := by
  have marked : ∀ l : Location, (∀ s ∈ l, IsName s) →
      ∀ t ∈ l.map String.toList, isIdle t = false := by
    intro l names t member
    obtain ⟨s, among, rfl⟩ := List.mem_map.mp member
    exact (names s among).not_idle
  have front := marked base fun s member => proper s (List.mem_append_left _ member)
  have back := marked rest fun s member => proper s (List.mem_append_right _ member)
  by_cases nothing : base ++ rest = []
  · obtain ⟨rfl, rfl⟩ := List.append_eq_nil_iff.mp nothing
    rfl
  · have no_slash : ∀ t ∈ (base ++ rest).map String.toList, '/' ∉ t := by
      intro t member
      obtain ⟨s, among, rfl⟩ := List.mem_map.mp member
      exact (proper s among).no_slash
    have some_segment : (base ++ rest).map String.toList ≠ [] :=
      fun empty => nothing (List.map_eq_nil_iff.mp empty)
    have dropped := dropNames_append front (rest.map String.toList)
    rw [List.length_map] at dropped
    rw [split_join some_segment no_slash, List.map_append, dropped, dropWhile_of_marked back,
      dropIdle, dropWhile_of_marked fun t member => back t (List.mem_reverse.mp member),
      List.reverse_reverse]

theorem relativeTo?_ofLocation (absolute : root.isAbsolute = true)
    (no_parent : Component.parent ∉ root.components)
    (proper : ∀ s ∈ root.place [] ++ rest, IsName s) :
    (ofLocation (root.place [] ++ rest)).relativeTo? root
      = some ⟨String.ofList (join (rest.map String.toList))⟩ := by
  have root_parts := (components_of_plain absolute no_parent).2
  have below : (ofLocation (root.place [] ++ rest)).startsWith root = true := by
    rw [startsWith, root_parts, components_ofLocation, named_join proper, List.map_append,
      ← List.cons_append, List.isPrefixOf_iff_prefix]
    exact List.prefix_append _ _
  have head : (ofLocation (root.place [] ++ rest)).head = ['/'] := by
    rw [Path.head, toList_ofLocation]
    rfl
  have segments : (ofLocation (root.place [] ++ rest)).segments
      = split (join ((root.place [] ++ rest).map String.toList)) := by
    rw [Path.segments, toList_ofLocation]
    rfl
  have names : root.components.length - ['/'].length = (root.place []).length := by
    rw [root_parts, List.length_cons, List.length_map]
    rfl
  have some_component : root.components.isEmpty = false := by
    rw [root_parts]
    rfl
  unfold relativeTo?
  rw [below, some_component, head, names, segments]
  simp only [Bool.not_true, Bool.false_eq_true, if_false, segments_behind proper]

theorem isAbsolute_join (proper : ∀ s ∈ names, IsName s) :
    (⟨String.ofList (join (names.map String.toList))⟩ : Path).isAbsolute = false := by
  rw [isAbsolute, String.toList_ofList]
  cases names with
  | nil => rfl
  | cons s names =>
      have name : IsName s := proper s List.mem_cons_self
      obtain ⟨c, t, text⟩ := List.exists_cons_of_ne_nil name.ne_nil
      obtain ⟨more, start⟩ := join_cons c t (names.map String.toList)
      have first : c ≠ '/' := by
        rintro rfl
        exact name.no_slash (text ▸ List.mem_cons_self)
      rw [List.map_cons, text, start, List.head?_cons, beq_eq_false_iff_ne, ne_eq,
        Option.some.injEq]
      exact first

end Path

namespace Component

theorem neverAboveRoot_names (here : Location) (names : List String) :
    NeverAboveRoot here (names.map .name) := by
  induction names generalizing here with
  | nil => trivial
  | cons s names ih => exact neverAboveRoot_name_iff.mpr (ih _)

end Component

namespace Project

open Restyle.Path (IsName)

variable {root p q : Path}

theorem resolve_eq_ok_iff (absolute : root.isAbsolute = true)
    (no_parent : Component.parent ∉ root.components) :
    resolve root p = .ok q ↔
      p.isAbsolute = false ∧ p.NeverAboveRoot (root.place []) ∧
        root.place [] <+: p.place (root.place []) ∧ q = .ofLocation (p.place (root.place [])) := by
  unfold resolve
  cases relative : p.isAbsolute with
  | true =>
      rw [if_pos rfl]
      exact ⟨nofun, fun h => absurd h.1 (Ne.symm Bool.false_ne_true)⟩
  | false =>
      have below := Path.startsWith_normalize_push_iff absolute no_parent relative
      rw [if_neg Bool.false_ne_true]
      dsimp only
      split
      · rename_i starts
        obtain ⟨inside, led⟩ := below.mp starts
        rw [(Path.normalize_push_eq absolute no_parent relative inside).2, Except.ok.injEq]
        exact ⟨fun h => ⟨rfl, inside, led, h.symm⟩, fun h => h.2.2.2.symm⟩
      · rename_i elsewhere
        exact ⟨nofun, fun h => absurd (below.mpr ⟨h.2.1, h.2.2.1⟩) elsewhere⟩

/-- A resolved path is found again from how it is shown. -/
theorem resolve_shown (absolute : root.isAbsolute = true)
    (no_parent : Component.parent ∉ root.components) (h : resolve root p = .ok q) :
    resolve root (shown root q) = .ok q := by
  obtain ⟨relative, inside, ⟨rest, led⟩, rfl⟩ := (resolve_eq_ok_iff absolute no_parent).mp h
  have proper := (Path.normalize_push_eq absolute no_parent relative inside).1
  rw [← led] at proper ⊢
  have behind : ∀ s ∈ rest, IsName s := fun s member => proper s (List.mem_append_right _ member)
  have plain := Path.isAbsolute_join behind
  have steps : Path.named (Path.split (⟨String.ofList (Path.join (rest.map String.toList))⟩
      : Path).text.toList) = rest.map .name := by
    rw [String.toList_ofList]
    exact Path.named_join behind
  have place : (⟨String.ofList (Path.join (rest.map String.toList))⟩ : Path).place (root.place [])
      = root.place [] ++ rest := by
    rw [Path.place_of_relative plain, steps, Component.foldl_stepFrom_names]
  rw [shown, Path.relativeTo?_ofLocation absolute no_parent proper, Option.getD_some,
    resolve_eq_ok_iff absolute no_parent, place]
  refine ⟨plain, ?_, List.prefix_append _ _, rfl⟩
  rw [Path.neverAboveRoot_of_relative plain, steps]
  exact Component.neverAboveRoot_names _ rest

/-- Below an absolute root without steps to parents, a path is resolved exactly if it is relative
and leads from the root, without going above the root of the files, to the root or below it. It is
resolved to the absolute path of that place, in which no segment is a dot or two, and which is found
again from how it is shown. -/
theorem resolve_leads (absolute : root.isAbsolute = true)
    (no_parent : Component.parent ∉ root.components) (p : Path) :
    ((∃ q, resolve root p = .ok q) ↔
      p.isAbsolute = false ∧ p.NeverAboveRoot (root.place []) ∧
        root.place [] <+: p.place (root.place [])) ∧
    ∀ q, resolve root p = .ok q →
      (∀ here, q.place here = p.place (root.place [])) ∧
      q.isAbsolute = true ∧
      (∀ s ∈ Path.split q.text.toList, s ≠ ['.'] ∧ s ≠ ['.', '.']) ∧
      root.components <+: q.components ∧
      resolve root (shown root q) = .ok q := by
  refine ⟨?_, ?_⟩
  · simp only [resolve_eq_ok_iff absolute no_parent]
    exact ⟨fun ⟨_, relative, inside, led, _⟩ => ⟨relative, inside, led⟩,
      fun ⟨relative, inside, led⟩ => ⟨_, relative, inside, led, rfl⟩⟩
  · intro q resolved
    obtain ⟨relative, inside, led, rfl⟩ := (resolve_eq_ok_iff absolute no_parent).mp resolved
    have proper := (Path.normalize_push_eq absolute no_parent relative inside).1
    have parts : (Path.ofLocation (p.place (root.place []))).components
        = .root :: (p.place (root.place [])).map .name := by
      rw [Path.components_ofLocation, Path.named_join proper]
    refine ⟨?_, ?_, ?_, ?_, resolve_shown absolute no_parent resolved⟩
    · intro here
      exact Path.place_of_straight true here parts
    · rw [← Path.root_mem_components_iff, parts]
      exact List.mem_cons_self
    · exact fun s member => Path.segment_ofLocation proper member
    · rw [parts, (Path.components_of_plain absolute no_parent).2, List.cons_prefix_cons]
      exact ⟨rfl, led.map _⟩

theorem resolve_leads_detour :
    (⟨"/a/b"⟩ : Path).isAbsolute = true ∧ Component.parent ∉ (⟨"/a/b"⟩ : Path).components ∧
    (∃ q, resolve ⟨"/a/b"⟩ ⟨"../b/./c/../d"⟩ = .ok q ∧ q.place [] = ["a", "b", "d"] ∧
      resolve ⟨"/a/b"⟩ (shown ⟨"/a/b"⟩ q) = .ok q) ∧
    ¬ ∃ q, resolve ⟨"/a/b"⟩ ⟨"../../../a/b"⟩ = .ok q := by
  have absolute : (⟨"/a/b"⟩ : Path).isAbsolute = true := by decide
  have no_parent : Component.parent ∉ (⟨"/a/b"⟩ : Path).components := by decide
  obtain ⟨found, leads⟩ := resolve_leads absolute no_parent ⟨"../b/./c/../d"⟩
  obtain ⟨q, resolved⟩ := found.mpr (by decide)
  obtain ⟨place, -, -, -, again⟩ := leads q resolved
  refine ⟨absolute, no_parent, ⟨q, resolved, ?_, again⟩, ?_⟩
  · rw [place]
    decide
  · -- The way back comes too late.
    rw [(resolve_leads absolute no_parent ⟨"../../../a/b"⟩).1]
    decide

end Project

end Restyle
