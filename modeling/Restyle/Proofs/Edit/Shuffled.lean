import Restyle.Proofs.Edit.Forward
/-!
Edits given in another order. What a set is sorted and checked by are the ranges and the priorities
of its edits, and these stand in the same order however the edits were given. So the same edits are
accepted or refused in every order, and refused for the same ranges; and two orders make the same
set exactly if the insertions of one place and priority come in the same order in both.
-/

namespace Restyle

/-- What the order of edits sees of an edit: its range and its priority. -/
def Edit.bare (e : Edit) : Edit := ⟨e.span, "", "", e.priority⟩

@[simp] theorem Edit.span_bare (e : Edit) : e.bare.span = e.span := rfl

@[simp] theorem Edit.priority_bare (e : Edit) : e.bare.priority = e.priority := rfl

namespace EditConflict

inductive Kind where
  | overlapping | outOfBounds | splitsCharacter
deriving DecidableEq, Repr

def kind : EditConflict → Kind
  | overlapping _ _ => .overlapping
  | outOfBounds _ _ => .outOfBounds
  | splitsCharacter _ _ => .splitsCharacter

/-- A conflict without the texts and labels of its edits. -/
def bare : EditConflict → EditConflict
  | overlapping a b => overlapping a.bare b.bare
  | outOfBounds e n => outOfBounds e.bare n
  | splitsCharacter e offset => splitsCharacter e.bare offset

@[simp] theorem kind_bare (c : EditConflict) : c.bare.kind = c.kind := by
  cases c <;> rfl

end EditConflict

namespace Edit

/-- Two edits insert at one offset with one priority. -/
def Tied (a b : Edit) : Prop :=
  a.isInsertion = true ∧ b.isInsertion = true ∧ a.span.start = b.span.start ∧
    a.priority = b.priority

variable {edits edits' : List Edit}

/-- Edits that the order does not tell apart have one range and one priority. -/
theorem bare_eq_of_le {a b : Edit} (ab : a.le b = true) (ba : b.le a = true) : a.bare = b.bare := by
  rw [le_iff] at ab ba
  obtain ⟨⟨start, stop⟩, text, label, priority⟩ := a
  obtain ⟨⟨start', stop'⟩, text', label', priority'⟩ := b
  dsimp only at ab ba
  obtain rfl : start = start' := by omega
  obtain rfl : stop = stop' := by omega
  obtain rfl : priority = priority' := by omega
  rfl

theorem le_of_bare_eq {a b : Edit} (same : a.bare = b.bare) : a.le b = true := by
  calc a.le b = a.bare.le b.bare := rfl
    _ = b.bare.le b.bare := by rw [same]
    _ = true := le_iff.mpr (.inr ⟨rfl, .inr ⟨rfl, Int.le_refl _⟩⟩)

theorem bare_eq_of_insertsAt {a b : Edit} {n : Nat} {p : Int}
    (ha : (a.insertsAt n && a.priority == p) = true)
    (hb : (b.insertsAt n && b.priority == p) = true) : a.bare = b.bare := by
  rw [Bool.and_eq_true, insertsAt_iff, beq_iff_eq] at ha hb
  apply bare_eq_of_le
  · rw [le_iff]
    omega
  · rw [le_iff]
    omega

theorem bare_mergeSort_of_perm (perm : edits.Perm edits') :
    (edits.mergeSort le).map bare = (edits'.mergeSort le).map bare := by
  have sorted : ∀ es : List Edit,
      ((es.mergeSort le).map bare).Pairwise fun a b => a.le b = true := by
    intro es
    rw [List.pairwise_map]
    exact List.pairwise_mergeSort le_trans le_total es
  have same : (edits.mergeSort le).Perm (edits'.mergeSort le) :=
    ((List.mergeSort_perm edits le).trans perm).trans (List.mergeSort_perm edits' le).symm
  refine (same.map bare).eq_of_pairwise ?_ (sorted edits) (sorted edits')
  intro a b ha hb ab ba
  obtain ⟨a, -, rfl⟩ := List.mem_map.mp ha
  obtain ⟨b, -, rfl⟩ := List.mem_map.mp hb
  exact bare_eq_of_le ab ba

/-- Two lists are the same if their ranges and priorities are, and the edits of each range and
priority come in the same order in both. -/
theorem eq_of_bare_eq {es es' : List Edit} (same : es.map bare = es'.map bare)
    (classes : ∀ k, es.filter (fun e => e.bare == k) = es'.filter fun e => e.bare == k) :
    es = es' := by
  induction es generalizing es' with
  | nil => exact (List.map_eq_nil_iff.mp same.symm).symm
  | cons e es ih =>
      cases es' with
      | nil => cases same
      | cons e' es' =>
          rw [List.map_cons, List.map_cons, List.cons.injEq] at same
          obtain ⟨first, later⟩ := same
          have own := classes e'.bare
          simp only [List.filter_cons, first, beq_self_eq_true, if_true, List.cons.injEq] at own
          obtain ⟨rfl, rest⟩ := own
          rw [ih later]
          intro k
          by_cases here : (e.bare == k) = true
          · rw [← beq_iff_eq.mp here, rest]
          · simpa only [List.filter_cons, if_neg here] using classes k

end Edit

namespace EditSet

variable {edits edits' : List Edit} {source : String}

theorem misplaced?_bare (source : List Char) (e : Edit) :
    (misplaced? source e).map EditConflict.bare = misplaced? source e.bare := by
  rw [misplaced?, apply_ite (Option.map EditConflict.bare),
    apply_ite (Option.map EditConflict.bare), apply_ite (Option.map EditConflict.bare)]
  rfl

theorem overlap?_bare (es : List Edit) :
    (overlap? es).map EditConflict.bare = overlap? (es.map Edit.bare) := by
  induction es with
  | nil => rfl
  | cons a es ih =>
      cases es with
      | nil => rfl
      | cons b es =>
          have conditions : overlap? ((a :: b :: es).map Edit.bare) =
              if a.isInsertion && b.isInsertion && a.span.start == b.span.start then
                overlap? ((b :: es).map Edit.bare)
              else if b.span.start < a.span.stop then some (.overlapping a.bare b.bare)
              else overlap? ((b :: es).map Edit.bare) := rfl
          rw [conditions, overlap?, ← ih, apply_ite (Option.map EditConflict.bare),
            apply_ite (Option.map EditConflict.bare)]
          rfl

/-- Why edits in their order are refused. -/
def refused? (source : List Char) (es : List Edit) : Option EditConflict :=
  (es.findSome? (misplaced? source)).or (overlap? es)

theorem ofList_eq (edits : List Edit) (source : String) :
    ofList edits source =
      match refused? source.toList (edits.mergeSort Edit.le) with
      | some c => .error c
      | none => .ok ⟨edits.mergeSort Edit.le⟩ := by
  rw [ofList, refused?]
  cases (edits.mergeSort Edit.le).findSome? (misplaced? source.toList) with
  | some c => rfl
  | none => cases overlap? (edits.mergeSort Edit.le) <;> rfl

/-- Why edits are refused can be told from their ranges and priorities, but for texts and labels. -/
theorem refused?_bare (source : List Char) (es : List Edit) :
    (refused? source es).map EditConflict.bare = refused? source (es.map Edit.bare) := by
  have misplaced : (es.findSome? (misplaced? source)).map EditConflict.bare =
      (es.map Edit.bare).findSome? (misplaced? source) := by
    rw [List.map_findSome?, List.findSome?_map]
    exact congrArg (List.findSome? · es) (funext (misplaced?_bare source))
  rw [refused?, refused?, Option.map_or, misplaced, overlap?_bare]

theorem ofList_cases_of_perm (perm : edits.Perm edits') (source : String) :
    (ofList edits source = .ok ⟨edits.mergeSort Edit.le⟩ ∧
      ofList edits' source = .ok ⟨edits'.mergeSort Edit.le⟩) ∨
    ∃ c c', ofList edits source = .error c ∧ ofList edits' source = .error c' ∧
      c.bare = c'.bare := by
  have same : (refused? source.toList (edits.mergeSort Edit.le)).map EditConflict.bare =
      (refused? source.toList (edits'.mergeSort Edit.le)).map EditConflict.bare := by
    rw [refused?_bare, refused?_bare, Edit.bare_mergeSort_of_perm perm]
  rw [ofList_eq, ofList_eq]
  cases first : refused? source.toList (edits.mergeSort Edit.le) with
  | none =>
      cases second : refused? source.toList (edits'.mergeSort Edit.le) with
      | none => exact .inl ⟨rfl, rfl⟩
      | some c' =>
          rw [first, second] at same
          cases same
  | some c =>
      cases second : refused? source.toList (edits'.mergeSort Edit.le) with
      | none =>
          rw [first, second] at same
          cases same
      | some c' =>
          rw [first, second] at same
          exact .inr ⟨c, c', rfl, rfl, Option.some.inj same⟩

/-- The insertions of one offset and priority, as they were given. -/
def tiedAt (n : Nat) (p : Int) (edits : List Edit) : List Edit :=
  edits.filter fun e => e.insertsAt n && e.priority == p

theorem filter_bare_mergeSort (edits : List Edit) (k : Edit) :
    (edits.mergeSort Edit.le).filter (fun e => e.bare == k) =
      edits.filter fun e => e.bare == k := by
  apply filter_mergeSort
  intro a b ha hb
  exact Edit.le_of_bare_eq ((beq_iff_eq.mp ha).trans (beq_iff_eq.mp hb).symm)

/-- Of the edits in one order, the insertions at an offset with a priority are those with one range
and priority. -/
theorem filter_bare_of_insertion {k : Edit} (insertion : k.span.start = k.span.stop)
    (es : List Edit) : (es.filter fun e => e.bare == k) =
      (tiedAt k.span.start k.priority es).filter fun e => e.bare == k := by
  rw [tiedAt, List.filter_filter]
  refine List.filter_congr fun e _ => ?_
  by_cases same : e.bare = k
  · subst same
    have inserts : e.insertsAt e.span.start = true := Edit.insertsAt_iff.mpr ⟨rfl, insertion.symm⟩
    simp [inserts]
  · simp [same]

theorem eq_of_perm_of_extended {es es' : List Edit} {k : Edit}
    (extended : k.span.start < k.span.stop) (own : ∀ e ∈ es, e.bare = k)
    (apart : es.Pairwise fun a b => a.span.stop ≤ b.span.start) (perm : es.Perm es') :
    es = es' := by
  cases es with
  | nil => exact perm.nil_eq
  | cons a es =>
      cases es with
      | nil => exact (List.perm_singleton.mp perm.symm).symm
      | cons b es =>
          have first := own a List.mem_cons_self
          have second := own b (List.mem_cons_of_mem a List.mem_cons_self)
          have before := (List.pairwise_cons.mp apart).1 b List.mem_cons_self
          rw [← Edit.span_bare a, ← Edit.span_bare b, first, second] at before
          omega

/-- The edits of one range and priority come in the same order if they are insertions that do, and
there is one of them at most if they are not. -/
theorem filter_bare_eq (k : Edit) (perm : edits.Perm edits')
    (accepted : ofList edits source = .ok ⟨edits.mergeSort Edit.le⟩)
    (tied : ∀ n p, tiedAt n p edits = tiedAt n p edits') :
    edits.filter (fun e => e.bare == k) = edits'.filter fun e => e.bare == k := by
  obtain ⟨-, fits, apart⟩ := ofList_eq_ok_iff.mp accepted
  have own : ∀ e ∈ edits.filter fun e => e.bare == k, e.bare = k := fun e member =>
    beq_iff_eq.mp (List.mem_filter.mp member).2
  have same := perm.filter fun e => e.bare == k
  replace apart := apart.filter fun e => e.bare == k
  rw [filter_bare_mergeSort] at apart
  rcases Nat.lt_trichotomy k.span.start k.span.stop with extended | insertion | backwards
  · exact eq_of_perm_of_extended extended own apart same
  · rw [filter_bare_of_insertion insertion edits, tied,
      ← filter_bare_of_insertion insertion edits']
  · have none_there : edits.filter (fun e => e.bare == k) = [] := by
      rw [List.eq_nil_iff_forall_not_mem]
      intro e member
      have place := (fits e ((List.mergeSort_perm edits Edit.le).mem_iff.mpr
        (List.mem_filter.mp member).1)).ordered
      rw [← Edit.span_bare, own e member] at place
      omega
    rw [none_there] at same ⊢
    exact same.nil_eq

/-- Accepted in two orders, edits make the same set exactly if the insertions of each offset and
priority come in the same order in both. -/
theorem mergeSort_eq_iff_of_perm (perm : edits.Perm edits')
    (accepted : ofList edits source = .ok ⟨edits.mergeSort Edit.le⟩) :
    edits.mergeSort Edit.le = edits'.mergeSort Edit.le ↔
      ∀ n p, tiedAt n p edits = tiedAt n p edits' := by
  constructor
  · intro same n p
    have sorted : ∀ es : List Edit, tiedAt n p es = tiedAt n p (es.mergeSort Edit.le) := by
      intro es
      refine (filter_mergeSort fun a b ha hb => ?_).symm
      exact Edit.le_of_bare_eq (Edit.bare_eq_of_insertsAt ha hb)
    rw [sorted edits, sorted edits', same]
  · intro tied
    apply Edit.eq_of_bare_eq (Edit.bare_mergeSort_of_perm perm)
    intro k
    rw [filter_bare_mergeSort, filter_bare_mergeSort]
    exact filter_bare_eq k perm accepted tied

/-- Where no two insertions have one offset and one priority, nothing hangs on their order. -/
theorem tiedAt_eq_of_perm (perm : edits.Perm edits')
    (single : edits.Pairwise fun a b => ¬ Edit.Tied a b) (n : Nat) (p : Int) :
    tiedAt n p edits = tiedAt n p edits' := by
  have same : (tiedAt n p edits).Perm (tiedAt n p edits') := perm.filter _
  have untied : (tiedAt n p edits).Pairwise fun a b => ¬ Edit.Tied a b := single.filter _
  have own : ∀ e ∈ tiedAt n p edits, e.isInsertion = true ∧ e.span.start = n ∧ e.priority = p := by
    intro e member
    simpa [Edit.insertsAt, and_assoc] using (List.mem_filter.mp member).2
  cases all : tiedAt n p edits with
  | nil =>
      rw [all] at same
      exact same.nil_eq
  | cons a es =>
      rw [all] at same untied own
      cases es with
      | nil => exact (List.perm_singleton.mp same.symm).symm
      | cons b es =>
          obtain ⟨inserts, start, priority⟩ := own a List.mem_cons_self
          obtain ⟨inserts', start', priority'⟩ := own b (List.mem_cons_of_mem a List.mem_cons_self)
          exact absurd ⟨inserts, inserts', start.trans start'.symm, priority.trans priority'.symm⟩
            ((List.pairwise_cons.mp untied).1 b List.mem_cons_self)

/-- Edits in two orders are both accepted or both refused. If accepted, they make the same set
exactly if the insertions of each offset and priority come in the same order, and so the same text
where no two insertions have one offset and one priority. If refused, the conflicts are of one kind
and differ in the texts and labels of the named edits only. -/
theorem ofList_of_perm (perm : edits.Perm edits') (source : String) :
    (∃ s s', ofList edits source = .ok s ∧ ofList edits' source = .ok s' ∧
      (s = s' ↔ ∀ n p, tiedAt n p edits = tiedAt n p edits') ∧
      ((edits.Pairwise fun a b => ¬ Edit.Tied a b) → s.apply source = s'.apply source)) ∨
    ∃ c c', ofList edits source = .error c ∧ ofList edits' source = .error c' ∧
      c.kind = c'.kind ∧ c.bare = c'.bare := by
  rcases ofList_cases_of_perm perm source with ⟨accepted, accepted'⟩ | ⟨c, c', error, error', same⟩
  · have sets := mergeSort_eq_iff_of_perm perm accepted
    refine .inl ⟨_, _, accepted, accepted', ?_, ?_⟩
    · rw [EditSet.mk.injEq]
      exact sets
    · intro single
      rw [sets.mpr (tiedAt_eq_of_perm perm single)]
  · refine .inr ⟨c, c', error, error', ?_, same⟩
    rw [← EditConflict.kind_bare c, same, EditConflict.kind_bare]

/-- Insertions of two priorities at the end of a replacement and before a deletion, front to back
and back to front. -/
def seamEdits : List Edit :=
  [Edit.replace ⟨0, 2⟩ "x" "letter", Edit.insert 2 "b" "second",
    (Edit.insert 2 "a" "first").withPriority (-1), Edit.delete ⟨2, 3⟩ "blank"]

theorem ofList_of_perm_seam :
    seamEdits.Perm seamEdits.reverse ∧ (seamEdits.Pairwise fun a b => ¬ Edit.Tied a b) ∧
    ∃ s s', ofList seamEdits "é h" = .ok s ∧ ofList seamEdits.reverse "é h" = .ok s' ∧
      s.apply "é h" = s'.apply "é h" := by
  have perm : seamEdits.Perm seamEdits.reverse := (List.reverse_perm seamEdits).symm
  have single : seamEdits.Pairwise fun a b => ¬ Edit.Tied a b := by
    unfold Edit.Tied
    decide
  refine ⟨perm, single, ?_⟩
  rcases ofList_of_perm perm "é h" with ⟨s, s', accepted, accepted', -, texts⟩ | ⟨c, _, refused, -⟩
  · exact ⟨s, s', accepted, accepted', texts single⟩
  · have sorted : seamEdits.mergeSort Edit.le =
        [Edit.replace ⟨0, 2⟩ "x" "letter", (Edit.insert 2 "a" "first").withPriority (-1),
          Edit.insert 2 "b" "second", Edit.delete ⟨2, 3⟩ "blank"] := by
      simp [seamEdits, List.mergeSort, List.MergeSort.Internal.splitInTwo, Edit.le, Edit.delete,
        Edit.insert, Edit.replace, Edit.withPriority]
    rw [ofList, sorted] at refused
    cases refused

end EditSet

end Restyle
