import Restyle.Proofs.FileTree.Overlay
import Restyle.Proofs.Path.Normal
/-!
Where paths lead. A path without dots leads to the place of the path that it was made from, seen
from anywhere, exactly when each step to a parent takes back a name that stands before it; what any
other path becomes lies below the place that the path is seen from. Below one root, paths that go
straight down are for one place only if they are the same.
-/

namespace Restyle

/-- No step to a parent is taken from the root of the files. -/
def Component.NeverAboveRoot : Location → List Component → Prop
  | _, [] => True
  | here, c :: cs => (c = .parent → here ≠ []) ∧ NeverAboveRoot (c.stepFrom here) cs

/-- Followed from a place, a path never goes above the root of the files. -/
def Path.NeverAboveRoot (here : Location) (p : Path) : Prop :=
  Component.NeverAboveRoot here p.components

/-- Each step to a parent takes back a name that stands before it. -/
def Path.Cancels (p : Path) : Prop := p.NeverAboveRoot []

namespace Component

instance decidableNeverAboveRoot :
    (here : Location) → (cs : List Component) → Decidable (NeverAboveRoot here cs)
  | _, [] => inferInstanceAs (Decidable True)
  | here, c :: cs =>
    have := decidableNeverAboveRoot (c.stepFrom here) cs
    inferInstanceAs (Decidable ((c = .parent → here ≠ []) ∧ _))

instance (here : Location) (p : Path) : Decidable (p.NeverAboveRoot here) :=
  decidableNeverAboveRoot here p.components

instance (p : Path) : Decidable p.Cancels := decidableNeverAboveRoot [] p.components

variable {here l : Location} {cs : List Component}

theorem neverAboveRoot_cons_iff {c : Component} (other : c ≠ .parent) :
    NeverAboveRoot l (c :: cs) ↔ NeverAboveRoot (c.stepFrom l) cs :=
  ⟨And.right, fun later => ⟨fun parent => absurd parent other, later⟩⟩

theorem neverAboveRoot_root_iff : NeverAboveRoot l (.root :: cs) ↔ NeverAboveRoot [] cs :=
  neverAboveRoot_cons_iff (by simp)

theorem neverAboveRoot_current_iff : NeverAboveRoot l (.current :: cs) ↔ NeverAboveRoot l cs :=
  neverAboveRoot_cons_iff (by simp)

theorem neverAboveRoot_name_iff {s : String} :
    NeverAboveRoot l (.name s :: cs) ↔ NeverAboveRoot (l ++ [s]) cs :=
  neverAboveRoot_cons_iff (by simp)

theorem neverAboveRoot_parent_iff :
    NeverAboveRoot l (.parent :: cs) ↔ l ≠ [] ∧ NeverAboveRoot l.dropLast cs :=
  ⟨fun h => ⟨h.1 rfl, h.2⟩, fun h => ⟨fun _ => h.1, h.2⟩⟩

/-- Seen from higher up, a place is nearer than it would be behind all the names on the way. -/
theorem length_foldl_stepFrom_le (no_root : .root ∉ cs) (here l : Location) :
    (cs.foldl stepFrom (here ++ l)).length ≤ here.length + (cs.foldl stepFrom l).length := by
  induction cs generalizing here l with
  | nil => exact Nat.le_of_eq List.length_append
  | cons c cs ih =>
      rw [List.mem_cons, not_or] at no_root
      cases c with
      | root => exact absurd rfl no_root.1
      | current => exact ih no_root.2 here l
      | name s =>
          have step := ih no_root.2 here (l ++ [s])
          rwa [← List.append_assoc] at step
      | parent =>
          change (cs.foldl stepFrom (here ++ l).dropLast).length
            ≤ here.length + (cs.foldl stepFrom l.dropLast).length
          rcases List.eq_nil_or_concat l with rfl | ⟨front, s, rfl⟩
          · have step := ih no_root.2 here.dropLast []
            rw [List.append_nil, List.length_dropLast] at step
            rw [List.append_nil, List.dropLast_nil]
            omega
          · rw [List.concat_eq_append, ← List.append_assoc, List.dropLast_concat,
              List.dropLast_concat]
            exact ih no_root.2 here front

theorem foldl_stepFrom_append (no_root : .root ∉ cs) (inside : NeverAboveRoot l cs) :
    cs.foldl stepFrom (here ++ l) = here ++ cs.foldl stepFrom l := by
  induction cs generalizing l with
  | nil => rfl
  | cons c cs ih =>
      rw [List.mem_cons, not_or] at no_root
      obtain ⟨up, later⟩ := inside
      cases c with
      | root => exact absurd rfl no_root.1
      | current => exact ih no_root.2 later
      | name s =>
          have step := ih no_root.2 later
          rwa [stepFrom, ← List.append_assoc] at step
      | parent =>
          have step := ih no_root.2 later
          rw [stepFrom] at step
          rw [List.foldl_cons, List.foldl_cons, stepFrom, stepFrom,
            List.dropLast_append_of_ne_nil (up rfl), step]

/-- A step to a parent that no name stands before takes one name of the place that it is seen from,
if there is any. -/
theorem length_foldl_stepFrom_lt (no_root : .root ∉ cs) (outside : ¬ NeverAboveRoot l cs)
    (deep : here ≠ []) :
    (cs.foldl stepFrom (here ++ l)).length < here.length + (cs.foldl stepFrom l).length := by
  induction cs generalizing l with
  | nil => exact absurd trivial outside
  | cons c cs ih =>
      rw [List.mem_cons, not_or] at no_root
      cases c with
      | root => exact absurd rfl no_root.1
      | current =>
          rw [neverAboveRoot_current_iff] at outside
          exact ih no_root.2 outside
      | name s =>
          rw [neverAboveRoot_name_iff] at outside
          have step := ih no_root.2 outside
          rwa [← List.append_assoc] at step
      | parent =>
          change (cs.foldl stepFrom (here ++ l).dropLast).length
            < here.length + (cs.foldl stepFrom l.dropLast).length
          by_cases top : l = []
          · subst top
            have above := length_foldl_stepFrom_le no_root.2 here.dropLast []
            have some_name := List.length_pos_iff.mpr deep
            rw [List.append_nil, List.length_dropLast] at above
            rw [List.append_nil, List.dropLast_nil]
            omega
          · rw [List.dropLast_append_of_ne_nil top]
            rw [neverAboveRoot_parent_iff, not_and] at outside
            exact ih no_root.2 (outside top)

end Component

namespace Path

open Component (stepFrom)

variable {p q : Path} {here l : Location} {cs : List Component}

theorem root_not_mem_named (t : List Char) : Component.root ∉ named (split t) := by
  intro member
  rcases isStep_of_mem_split member with parent | ⟨s, name, -⟩
  · cases parent
  · cases name

theorem components_of_absolute (absolute : p.isAbsolute = true) :
    ∃ t : List Char, p.components = .root :: named (split t) := by
  refine ⟨p.text.toList.drop (headLength p.text.toList), ?_⟩
  rw [components_eq, (isAbsolute_iff p).mp absolute]
  rfl

theorem components_of_relative (relative : p.isAbsolute = false) :
    p.components = named (split p.text.toList)
      ∨ p.components = .current :: named (split p.text.toList) := by
  rcases headLength_cases p.text.toList with ⟨r, h⟩ | h | ⟨r, h⟩ | h | ⟨c, r, h, slash, no_dot⟩
  · have absolute : p.isAbsolute = true := by
      rw [isAbsolute, h]
      rfl
    rw [absolute] at relative
    cases relative
  · rw [components_of_text h, h]
    exact .inr rfl
  · right
    have dot : split ('.' :: '/' :: r) = ['.'] :: split r := split_append ['.'] r
    rw [components_of_text h, h, dot, named_of_idle rfl]
    rfl
  · rw [components_of_text h, h]
    exact .inl rfl
  · rw [components_of_text h, h, headLength_of_ne slash no_dot]
    exact .inl rfl

theorem root_not_mem_of_relative (relative : p.isAbsolute = false) :
    Component.root ∉ p.components := by
  have later := root_not_mem_named p.text.toList
  rcases components_of_relative relative with parts | parts
  · rwa [parts]
  · rw [parts]
    exact List.not_mem_cons_of_ne_of_not_mem nofun later

theorem root_mem_components_iff : Component.root ∈ p.components ↔ p.isAbsolute = true := by
  cases absolute : p.isAbsolute with
  | true =>
      obtain ⟨t, parts⟩ := components_of_absolute absolute
      rw [parts]
      exact iff_of_true List.mem_cons_self rfl
  | false => exact iff_of_false (root_not_mem_of_relative absolute) Bool.false_ne_true

theorem place_of_absolute (absolute : p.isAbsolute = true) (here : Location) :
    p.place here = p.place [] := by
  obtain ⟨t, parts⟩ := components_of_absolute absolute
  rw [place, place, parts]
  rfl

theorem place_of_relative (relative : p.isAbsolute = false) (here : Location) :
    p.place here = (named (split p.text.toList)).foldl stepFrom here := by
  rcases components_of_relative relative with parts | parts
  · rw [place, parts]
  · rw [place, parts]
    rfl

theorem neverAboveRoot_of_relative (relative : p.isAbsolute = false) (here : Location) :
    p.NeverAboveRoot here
      ↔ Component.NeverAboveRoot here (named (split p.text.toList)) := by
  rcases components_of_relative relative with parts | parts
  · rw [NeverAboveRoot, parts]
  · rw [NeverAboveRoot, parts]
    exact Component.neverAboveRoot_current_iff

theorem place_of_straight (rooted : Bool) {names : List String} (here : Location)
    (h : p.components = (if rooted then [.root] else []) ++ names.map .name) :
    p.place here = (if rooted then [] else here) ++ names := by
  rw [place, h, List.foldl_append, Component.foldl_stepFrom_names]
  cases rooted <;> rfl

theorem same_of_place {rooted : Bool} (hp : Straight rooted p.components)
    (hq : Straight rooted q.components) (one : p.place here = q.place here) :
    p.components = q.components := by
  obtain ⟨names, -, pn⟩ := hp
  obtain ⟨others, -, qn⟩ := hq
  rw [place_of_straight rooted here pn, place_of_straight rooted here qn] at one
  rw [pn, qn, List.append_cancel_left one]

theorem tail_passed (l : Location) :
    (l.map Component.name).reverse.tail = (l.dropLast.map Component.name).reverse := by
  rw [List.tail_reverse, List.map_dropLast]

theorem follow_names (no_root : .root ∉ cs) (l : Location) :
    follow (l.map .name).reverse cs = (cs.foldl stepFrom l).map .name := by
  induction cs generalizing l with
  | nil => exact List.reverse_reverse _
  | cons c cs ih =>
      rw [List.mem_cons, not_or] at no_root
      cases c with
      | root => exact absurd rfl no_root.1
      | current => exact ih no_root.2 l
      | name s =>
          have step := ih no_root.2 (l ++ [s])
          rwa [List.map_append, List.map_singleton, List.reverse_concat] at step
      | parent =>
          rw [follow, tail_passed]
          exact ih no_root.2 l.dropLast

/-- Behind the root of the files they do so, too, but the root is lost with the first step to a
parent that is taken from there. -/
theorem follow_root (no_root : .root ∉ cs) (l : Location) :
    follow ((l.map Component.name).reverse ++ [.root]) cs
      = (if Component.NeverAboveRoot l cs then [.root] else [])
        ++ (cs.foldl stepFrom l).map .name := by
  induction cs generalizing l with
  | nil =>
      have inside : Component.NeverAboveRoot l [] := trivial
      rw [follow, List.reverse_append, List.reverse_reverse, if_pos inside]
      rfl
  | cons c cs ih =>
      rw [List.mem_cons, not_or] at no_root
      cases c with
      | root => exact absurd rfl no_root.1
      | current =>
          rw [follow, ih no_root.2, List.foldl_cons, stepFrom]
          simp only [Component.neverAboveRoot_current_iff]
      | name s =>
          have step := ih no_root.2 (l ++ [s])
          rw [List.map_append, List.map_singleton, List.reverse_concat] at step
          rw [List.foldl_cons, stepFrom]
          simp only [Component.neverAboveRoot_name_iff]
          exact step
      | parent =>
          rcases List.eq_nil_or_concat l with rfl | ⟨front, s, rfl⟩
          · -- The root itself is taken back.
            have above : ¬ Component.NeverAboveRoot [] (.parent :: cs) := fun inside =>
              (Component.neverAboveRoot_parent_iff.mp inside).1 rfl
            rw [if_neg above]
            exact follow_names no_root.2 []
          · have steps : Component.NeverAboveRoot (front ++ [s]) (.parent :: cs)
                ↔ Component.NeverAboveRoot front cs := by
              rw [Component.neverAboveRoot_parent_iff, List.dropLast_concat]
              exact and_iff_right (List.concat_ne_nil s front)
            rw [List.concat_eq_append, List.foldl_cons, stepFrom, List.dropLast_concat]
            simp only [steps]
            rw [List.map_append, List.map_singleton, List.reverse_concat]
            exact ih no_root.2 front

theorem components_normalize_eq (p : Path) :
    p.normalize.components
      = (if p.isAbsolute = true ∧ p.Cancels then [.root] else []) ++ (p.place []).map .name := by
  rw [components_normalize]
  cases absolute : p.isAbsolute with
  | true =>
      obtain ⟨t, parts⟩ := components_of_absolute absolute
      have cancels : p.Cancels ↔ Component.NeverAboveRoot [] (named (split t)) := by
        rw [Cancels, NeverAboveRoot, parts]
        exact Component.neverAboveRoot_root_iff
      have followed := follow_root (root_not_mem_named t) []
      simp only [true_and, cancels]
      rw [place, parts]
      exact followed
  | false =>
      simp only [Bool.false_eq_true, false_and, if_false, List.nil_append]
      exact follow_names (root_not_mem_of_relative absolute) []

theorem place_normalize_of_rooted (absolute : p.isAbsolute = true) (cancels : p.Cancels)
    (here : Location) : p.normalize.place here = p.place [] := by
  have parts := components_normalize_eq p
  rw [if_pos ⟨absolute, cancels⟩] at parts
  exact place_of_straight true here parts

theorem place_normalize_of_unrooted (unrooted : ¬ (p.isAbsolute = true ∧ p.Cancels))
    (here : Location) : p.normalize.place here = here ++ p.place [] := by
  have parts := components_normalize_eq p
  rw [if_neg unrooted] at parts
  exact place_of_straight false here parts

theorem place_normalize_eq_iff (p : Path) (here : Location) :
    p.normalize.place here = p.place here ↔ here = [] ∨ p.Cancels := by
  cases absolute : p.isAbsolute with
  | true =>
      rw [place_of_absolute absolute here]
      by_cases cancels : p.Cancels
      · exact iff_of_true (place_normalize_of_rooted absolute cancels here) (.inr cancels)
      · rw [place_normalize_of_unrooted (fun h => cancels h.2), List.append_left_eq_self]
        exact ⟨.inl, fun h => h.resolve_right cancels⟩
  | false =>
      have no_root := root_not_mem_of_relative absolute
      have unrooted : ¬ (p.isAbsolute = true ∧ p.Cancels) := by
        rw [absolute]
        exact fun h => absurd h.1 Bool.false_ne_true
      rw [place_normalize_of_unrooted unrooted]
      have from_here : p.place here = p.components.foldl stepFrom (here ++ []) := by
        rw [List.append_nil, place]
      by_cases cancels : p.Cancels
      · refine iff_of_true ?_ (.inr cancels)
        rw [from_here, Component.foldl_stepFrom_append no_root cancels, place]
      · refine ⟨fun one => .inl ?_, ?_⟩
        · -- Seen from below the root, a name of the place is lost.
          by_contra deep
          have nearer := Component.length_foldl_stepFrom_lt no_root cancels deep
          rw [← from_here, ← one, List.length_append] at nearer
          exact absurd nearer (Nat.lt_irrefl _)
        · rintro (rfl | h)
          · rfl
          · exact absurd h cancels

/-- Seen from anywhere below the root of the files, a path without dots leads to the place of the
path that it was made from exactly when each step to a parent takes back a name that stands before
it; and exactly then an absolute path stays one. No step to a parent is kept. -/
theorem normalize_keeps_place_iff (p : Path) :
    (∀ here, here ≠ [] → (p.normalize.place here = p.place here ↔ p.Cancels)) ∧
    (p.normalize.isAbsolute = true ↔ p.isAbsolute = true ∧ p.Cancels) ∧
    Component.parent ∉ p.normalize.components := by
  refine ⟨?_, ?_, ?_⟩
  · intro here deep
    rw [place_normalize_eq_iff]
    exact ⟨fun h => h.resolve_left deep, .inr⟩
  · rw [← root_mem_components_iff, components_normalize_eq]
    split
    · rename_i rooted
      exact iff_of_true (List.mem_append_left _ List.mem_cons_self) rooted
    · rename_i unrooted
      refine iff_of_false ?_ unrooted
      simp
  · rw [components_normalize_eq]
    split <;> simp

/-- A step to a parent that no name stands before is lost, and with it the place and the root. -/
theorem normalize_moves :
    (¬ ∀ p : Path, ∃ n, ∀ here : Location, n ≤ here.length →
      p.normalize.place here = p.place here) ∧
    ¬ ∀ p : Path, p.isAbsolute = true → p.normalize.isAbsolute = true := by
  refine ⟨?_, ?_⟩
  · intro keeps
    obtain ⟨n, same⟩ := keeps ⟨"../a"⟩
    have deep := congrArg List.length
      (same (List.replicate (n + 1) "d") (by rw [List.length_replicate]; exact Nat.le_succ n))
    have normal : (⟨"../a"⟩ : Path).normalize = ⟨"a"⟩ := by decide
    have steps : (⟨"../a"⟩ : Path).components = [.parent, .name "a"] := by decide
    have step : (⟨"a"⟩ : Path).components = [.name "a"] := by decide
    rw [normal, place, place, steps, step] at deep
    simp [stepFrom] at deep
  · intro stays
    exact absurd (stays ⟨"/.."⟩ (by decide)) (by decide)

end Path

end Restyle
