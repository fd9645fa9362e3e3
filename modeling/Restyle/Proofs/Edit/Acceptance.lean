import Mathlib.Data.List.Perm.Subperm
import Restyle.Proofs.Edit.Forward
/-!
Which edits go together with a source, and what is said of edits that do not. Only neighbours in the
order of their places are compared, yet a list of edits is accepted exactly if any two of them are
apart. Of edits that do not stand in the source the foremost is named, and of those that do, two
that overlap.
-/

namespace Restyle

open Text (byteLength byteLength_append)

structure Edit.Inside (source : List Char) (e : Edit) : Prop where
  ordered : e.span.start ≤ e.span.stop
  bounded : e.span.stop ≤ byteLength source
  start : Text.isBoundary e.span.start source = true
  stop : Text.isBoundary e.span.stop source = true

/-- What is wrong with the place of an edit: its range goes backwards or past the end of the source,
or else its first end that splits a character. -/
inductive Edit.Misplaced (source : List Char) (e : Edit) : EditConflict → Prop
  | outside : e.span.stop < e.span.start ∨ byteLength source < e.span.stop →
      Misplaced source e (.outOfBounds e (byteLength source))
  | start : e.span.start ≤ e.span.stop → e.span.stop ≤ byteLength source →
      Text.isBoundary e.span.start source = false →
      Misplaced source e (.splitsCharacter e e.span.start)
  | stop : e.span.start ≤ e.span.stop → e.span.stop ≤ byteLength source →
      Text.isBoundary e.span.start source = true → Text.isBoundary e.span.stop source = false →
      Misplaced source e (.splitsCharacter e e.span.stop)

/-- The foremost edit with a property: none with this property comes before it in the order of
edits, and of those that the order does not tell apart from it, it was given first. -/
structure Edit.Foremost (P : Edit → Prop) (edits : List Edit) (e : Edit) : Prop where
  holds : P e
  first : ∃ before after, edits = before ++ e :: after ∧
    (∀ d ∈ before, P d → d.le e = false) ∧ ∀ d ∈ after, P d → e.le d = true

/-- Two edits of a list overlap: neither ends before the other begins. -/
def Edit.Overlap (edits : List Edit) (a b : Edit) : Prop :=
  [a, b].Subperm edits ∧ ¬ a.span.Apart b.span

section

variable {source : List Char} {e : Edit}

theorem Edit.fits_iff_inside : e.Fits source ↔ e.Inside source := by
  constructor
  · intro h
    obtain ⟨before, after, rfl, bytes⟩ := Text.isBoundary_iff.mp h.stop
    refine ⟨h.ordered, ?_, h.start, h.stop⟩
    rw [← bytes, byteLength_append]
    exact Nat.le_add_right _ _
  · intro h
    exact ⟨h.ordered, h.start, h.stop⟩

theorem EditSet.misplaced?_eq_some_iff {c : EditConflict} :
    misplaced? source e = some c ↔ e.Misplaced source c := by
  constructor
  · intro h
    simp only [misplaced?] at h
    split at h
    · rename_i outside
      cases h
      rw [Bool.or_eq_true, decide_eq_true_eq, decide_eq_true_eq] at outside
      exact .outside outside
    · rename_i within
      simp only [Bool.or_eq_true, decide_eq_true_eq, not_or, Nat.not_lt] at within
      split at h
      · rename_i start
        cases h
        exact .start within.1 within.2 (by simpa using start)
      · rename_i start
        split at h
        · rename_i stop
          cases h
          exact .stop within.1 within.2 (by simpa using start) (by simpa using stop)
        · cases h
  · intro h
    cases h with
    | outside outside => simp [misplaced?, outside]
    | start ordered bounded start =>
        simp [misplaced?, Nat.not_lt.mpr ordered, Nat.not_lt.mpr bounded, start]
    | stop ordered bounded start stop =>
        simp [misplaced?, Nat.not_lt.mpr ordered, Nat.not_lt.mpr bounded, start, stop]

end

namespace EditSet

variable {edits : List Edit} {source : String}

/-- What the sorted list holds first with a property is the foremost edit with it, since sorting
leaves edits of one place and priority in the order in which they were given. -/
theorem foremost_of_sorted {P : Edit → Prop} {e : Edit} {earlier later : List Edit}
    (sorted : edits.mergeSort Edit.le = earlier ++ e :: later) (holds : P e)
    (first : ∀ d ∈ earlier, ¬ P d) : Edit.Foremost P edits e := by
  classical
  have perm : (edits.mergeSort Edit.le).Perm edits := List.mergeSort_perm edits Edit.le
  have behind : ∀ d ∈ edits, P d → e.le d = true := by
    intro d member has
    have order := List.pairwise_mergeSort Edit.le_trans Edit.le_total edits
    rw [← perm.mem_iff, sorted] at member
    rw [sorted] at order
    rcases List.mem_append.mp member with before | rest
    · exact absurd has (first d before)
    · rcases List.mem_cons.mp rest with rfl | after
      · exact Edit.le_iff.mpr (.inr ⟨rfl, .inr ⟨rfl, Int.le_refl _⟩⟩)
      · exact (List.pairwise_cons.mp (List.pairwise_append.mp order).2.1).1 d after
  -- The edits that the order does not tell apart from `e` stand in both lists in the same order.
  let tied : Edit → Bool := fun d => d.le e && e.le d && decide (P d)
  have kept : edits.filter tied = e :: later.filter tied := by
    rw [← filter_mergeSort (p := tied), sorted, List.filter_append]
    · have none_before : earlier.filter tied = [] := by
        rw [List.filter_eq_nil_iff]
        intro d member
        simp [tied, first d member]
      have own : tied e = true := by
        simp [tied, holds, Edit.le_iff]
      rw [none_before, List.nil_append, List.filter_cons_of_pos own]
    · intro a b ha hb
      simp only [tied, Bool.and_eq_true] at ha hb
      exact Edit.le_trans a e b ha.1.1 hb.1.2
  obtain ⟨before, after, parts, none_tied, -, -⟩ := List.filter_eq_cons_iff.mp kept
  refine ⟨holds, before, after, parts, ?_, ?_⟩
  · intro d member has
    have weak := behind d (parts ▸ List.mem_append_left _ member) has
    have untied := none_tied d member
    simpa [tied, weak, has] using untied
  · intro d member has
    exact behind d (parts ▸ List.mem_append_right _ (List.mem_cons_of_mem e member)) has

theorem exists_of_overlap?_eq_some {es : List Edit} {c : EditConflict}
    (sorted : es.Pairwise fun a b => a.le b = true)
    (ordered : ∀ e ∈ es, e.span.start ≤ e.span.stop) (h : overlap? es = some c) :
    ∃ a b, c = .overlapping a b ∧ Edit.Overlap es a b := by
  induction es with
  | nil => cases h
  | cons a es ih =>
      have later : overlap? es = some c → ∃ a b, c = .overlapping a b ∧ Edit.Overlap es a b :=
        ih (List.pairwise_cons.mp sorted).2
          fun e member => ordered e (List.mem_cons_of_mem a member)
      have widen : ∀ {a' b' : Edit}, Edit.Overlap es a' b' → Edit.Overlap (a :: es) a' b' :=
        fun both => ⟨both.1.trans (List.sublist_cons_self a es).subperm, both.2⟩
      cases es with
      | nil => cases h
      | cons b es =>
          simp only [overlap?] at h
          split at h
          · obtain ⟨a', b', rfl, both⟩ := later h
            exact ⟨a', b', rfl, widen both⟩
          · split at h
            · rename_i crossing
              cases h
              refine ⟨a, b, rfl, (List.Sublist.cons_cons a (List.Sublist.cons_cons b
                (List.nil_sublist es))).subperm, ?_⟩
              have := (List.pairwise_cons.mp sorted).1 b List.mem_cons_self
              have := Edit.le_iff.mp this
              have := ordered b (List.mem_cons_of_mem a List.mem_cons_self)
              unfold Span.Apart
              omega
            · obtain ⟨a', b', rfl, both⟩ := later h
              exact ⟨a', b', rfl, widen both⟩

theorem findSome?_eq_none_iff :
    (edits.mergeSort Edit.le).findSome? (misplaced? source.toList) = none ↔
      ∀ e ∈ edits, e.Inside source.toList := by
  rw [List.findSome?_eq_none_iff]
  refine forall_congr' fun e => ?_
  rw [(List.mergeSort_perm edits Edit.le).mem_iff, misplaced?_eq_none_iff, Edit.fits_iff_inside]

/-- A list of edits is accepted for a source exactly if each edit stands in it between its
characters and any two of them are apart, neighbours or not. If some edit does not stand in the
source, the foremost of these is named with what is wrong with its place; if all do, but two are not
apart, two edits of the list that overlap are named. -/
theorem ofList_answers (edits : List Edit) (source : String) :
    ((∃ s, ofList edits source = .ok s) ↔
      (∀ e ∈ edits, e.Inside source.toList) ∧
        edits.Pairwise fun a b => a.span.Apart b.span) ∧
    ((∃ e ∈ edits, ¬ e.Inside source.toList) → ∃ e c,
      Edit.Foremost (fun d => ¬ d.Inside source.toList) edits e ∧
        e.Misplaced source.toList c ∧ ofList edits source = .error c) ∧
    ((∀ e ∈ edits, e.Inside source.toList) →
      ¬ (edits.Pairwise fun a b => a.span.Apart b.span) →
      ∃ a b, Edit.Overlap edits a b ∧ ofList edits source = .error (.overlapping a b)) := by
  have accepted : (∃ s, ofList edits source = .ok s) ↔
      (∀ e ∈ edits, e.Inside source.toList) ∧
        edits.Pairwise fun a b => a.span.Apart b.span := by
    simp only [exists_ofList_iff, ← Edit.fits_iff, Edit.fits_iff_inside]
  refine ⟨accepted, ?_, ?_⟩
  · rintro ⟨d, member, misplaced⟩
    cases found : (edits.mergeSort Edit.le).findSome? (misplaced? source.toList) with
    | none => exact absurd (findSome?_eq_none_iff.mp found d member) misplaced
    | some c =>
        obtain ⟨earlier, e, later, sorted, own, before⟩ := List.findSome?_eq_some_iff.mp found
        have stands : ∀ {d : Edit}, misplaced? source.toList d = none ↔ d.Inside source.toList :=
          misplaced?_eq_none_iff.trans Edit.fits_iff_inside
        have outside : ¬ e.Inside source.toList := by
          rw [← stands, own]
          nofun
        refine ⟨e, c, ?_, misplaced?_eq_some_iff.mp own, ?_⟩
        · apply foremost_of_sorted sorted outside
          intro d member
          exact not_not.mpr (stands.mp (before d member))
        · rw [ofList]
          simp only [found]
  · intro inside not_apart
    have found := findSome?_eq_none_iff.mpr inside
    cases crossing : overlap? (edits.mergeSort Edit.le) with
    | none =>
        have answer : ofList edits source = .ok ⟨edits.mergeSort Edit.le⟩ := by
          rw [ofList]
          simp only [found, crossing]
        exact absurd (accepted.mp ⟨_, answer⟩).2 not_apart
    | some c =>
        have perm := List.mergeSort_perm edits Edit.le
        obtain ⟨a, b, rfl, both, overlap⟩ := exists_of_overlap?_eq_some
          (List.pairwise_mergeSort Edit.le_trans Edit.le_total edits)
          (fun e member => (inside e (perm.mem_iff.mp member)).ordered) crossing
        refine ⟨a, b, ⟨both.trans perm.subperm, overlap⟩, ?_⟩
        rw [ofList]
        simp only [found, crossing]

/-- Edits of a text of two characters, two bytes and one: two at one place that split the first
character, behind an edit past the end; and a replacement of the whole text around an insertion. -/
def splitEdits : List Edit :=
  [Edit.delete ⟨2, 9⟩ "past", Edit.insert 1 "a" "second", Edit.insert 1 "b" "third",
    (Edit.insert 1 "c" "first").withPriority (-1)]

def nestedEdits : List Edit :=
  [Edit.insert 2 "a" "inner", Edit.replace ⟨0, 3⟩ "b" "outer"]

theorem ofList_answers_split :
    ((∃ e ∈ splitEdits, ¬ e.Inside "éx".toList) ∧ ∃ e c,
      Edit.Foremost (fun d => ¬ d.Inside "éx".toList) splitEdits e ∧
        e.Misplaced "éx".toList c ∧ ofList splitEdits "éx" = .error c) ∧
    (∀ e ∈ nestedEdits, e.Inside "éx".toList) ∧
    ¬ (nestedEdits.Pairwise fun a b => a.span.Apart b.span) ∧
    ∃ a b, Edit.Overlap nestedEdits a b ∧
      ofList nestedEdits "éx" = .error (.overlapping a b) := by
  have misplaced : ∃ e ∈ splitEdits, ¬ e.Inside "éx".toList :=
    ⟨_, List.mem_cons_self, fun inside => absurd inside.bounded (by decide)⟩
  have inside : ∀ e ∈ nestedEdits, e.Inside "éx".toList := by
    intro e member
    rcases List.mem_cons.mp member with rfl | member
    · exact ⟨by decide, by decide, by decide, by decide⟩
    · rw [List.mem_singleton.mp member]
      exact ⟨by decide, by decide, by decide, by decide⟩
  have crossing : ¬ (nestedEdits.Pairwise fun a b => a.span.Apart b.span) := by
    intro apart
    have both := (List.pairwise_cons.mp apart).1 _ List.mem_cons_self
    revert both
    unfold Span.Apart
    decide
  exact ⟨⟨misplaced, (ofList_answers splitEdits "éx").2.1 misplaced⟩, inside, crossing,
    (ofList_answers nestedEdits "éx").2.2 inside crossing⟩

example : ofList splitEdits "éx" =
    .error (.splitsCharacter ((Edit.insert 1 "c" "first").withPriority (-1)) 1) := by
  have sorted : splitEdits.mergeSort Edit.le =
      [(Edit.insert 1 "c" "first").withPriority (-1), Edit.insert 1 "a" "second",
        Edit.insert 1 "b" "third", Edit.delete ⟨2, 9⟩ "past"] := by
    simp [splitEdits, List.mergeSort, List.MergeSort.Internal.splitInTwo, Edit.le, Edit.delete,
      Edit.insert, Edit.replace, Edit.withPriority]
  rw [ofList, sorted]
  rfl

end EditSet

end Restyle
