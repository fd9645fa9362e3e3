import Restyle.Proofs.Edit.Splice
/-!
The result of a set of edits, read off the source from front to back. The edits of a set stand in
the order of their places, insertions at one place by priority and then as they were given. Although
the last edit is applied first, each finds its range in the text as it is by then, and the result is
what one copies from the source on the way from edit to edit.
-/

namespace Restyle

open Text (byteLength byteLength_append)

/-- The text that a source from byte `n` on becomes: the source is copied up to the start of each
edit, the text of the edit follows, and copying goes on at its end. -/
def EditSet.forward (source : List Char) : Nat → List Edit → List Char
  | n, [] => Text.slice ⟨n, byteLength source⟩ source
  | n, e :: es =>
    Text.slice ⟨n, e.span.start⟩ source ++ e.replacement.toList ++ forward source e.span.stop es

/-- Whether an edit inserts a text at an offset. -/
def Edit.insertsAt (n : Nat) (e : Edit) : Bool := e.isInsertion && e.span.start == n

theorem Edit.insertsAt_iff {n : Nat} {e : Edit} :
    e.insertsAt n = true ↔ e.span.start = n ∧ e.span.stop = n := by
  simp only [Edit.insertsAt, Edit.isInsertion, Bool.and_eq_true, beq_iff_eq]
  omega

/-- Edits in the order of their places: none begins before the one in front of it ends, and of the
insertions at one offset the one of lower priority comes first, those of one priority as they were
given. -/
structure Edit.Arranged (given ordered : List Edit) : Prop where
  complete : ordered.Perm given
  apart : ordered.Pairwise fun a b => a.span.stop ≤ b.span.start
  byPriority : ∀ n, (ordered.filter (Edit.insertsAt n)).Pairwise fun a b => a.priority ≤ b.priority
  asGiven : ∀ n p, ordered.filter (fun e => e.insertsAt n && e.priority == p)
    = given.filter fun e => e.insertsAt n && e.priority == p

namespace EditSet

/-- Sorting leaves edits that the order does not tell apart as they were. -/
theorem filter_mergeSort {edits : List Edit} {p : Edit → Bool}
    (tied : ∀ a b, p a = true → p b = true → a.le b = true) :
    (edits.mergeSort Edit.le).filter p = edits.filter p := by
  have ordered : (edits.filter p).Pairwise fun a b => a.le b = true :=
    List.pairwise_of_forall_mem_list fun a ha b hb =>
      tied a b (List.mem_filter.mp ha).2 (List.mem_filter.mp hb).2
  have kept : (edits.filter p).Sublist (edits.mergeSort Edit.le) :=
    List.sublist_mergeSort Edit.le_trans Edit.le_total ordered List.filter_sublist
  have inside : (edits.filter p).Sublist ((edits.mergeSort Edit.le).filter p) := by
    simpa only [List.filter_filter, Bool.and_self] using kept.filter p
  have as_many : (edits.filter p).length = ((edits.mergeSort Edit.le).filter p).length :=
    ((List.mergeSort_perm edits Edit.le).filter p).length_eq.symm
  exact (inside.eq_of_length as_many).symm

theorem arranged_of_accepted {edits : List Edit} {source : String} {s : EditSet}
    (accepted : ofList edits source = .ok s) : Edit.Arranged edits s.edits where
  complete := ofList_perm accepted
  apart := (ofList_eq_ok_iff.mp accepted).2.2
  byPriority n := by
    refine ((ofList_sorted accepted).filter _).imp_of_mem ?_
    intro a b ha hb le
    obtain ⟨start, stop⟩ := Edit.insertsAt_iff.mp (List.mem_filter.mp ha).2
    obtain ⟨start', stop'⟩ := Edit.insertsAt_iff.mp (List.mem_filter.mp hb).2
    have := Edit.le_iff.mp le
    omega
  asGiven n p := by
    rw [(ofList_eq_ok_iff.mp accepted).1]
    apply filter_mergeSort
    intro a b ha hb
    rw [Bool.and_eq_true, Edit.insertsAt_iff, beq_iff_eq] at ha hb
    rw [Edit.le_iff]
    omega

/-- Changes that splice a text are met one after the other on the way through it. -/
theorem forward_of_spliced {source before old new : List Char} {es : List Edit}
    (h : Spliced (byteLength before) (es.map Edit.change) old new) (cut : source = before ++ old) :
    forward source (byteLength before) es = new := by
  induction es generalizing before old new with
  | nil =>
      cases h
      have parts : source = before ++ (old ++ []) := by rw [cut, List.append_nil]
      refine Text.slice_eq parts rfl ?_
      rw [cut, byteLength_append]
  | cons e es ih =>
      rw [List.map_cons] at h
      cases h with
      | @change _ _ _ kept gone tail new start stop later =>
          rw [Edit.change_span] at start stop later
          have upto : byteLength (before ++ (kept ++ gone)) = e.span.stop := by
            rw [byteLength_append, byteLength_append, stop, start, Nat.add_assoc]
          rw [← upto] at later
          have behind := ih later (by rw [cut, List.append_assoc, List.append_assoc])
          have copied : Text.slice ⟨byteLength before, e.span.start⟩ source = kept :=
            Text.slice_eq cut rfl start
          rw [forward, copied, ← upto, behind, Edit.change_text, List.append_assoc]

theorem applied?_stands {source : List Char} {e : Edit} {es : List Edit}
    (fits : ∀ d ∈ e :: es, d.Fits source)
    (apart : (e :: es).Pairwise fun a b => a.span.stop ≤ b.span.start) :
    ∃ text, applied? ⟨es⟩ source = some text ∧ e.span.Stands text := by
  obtain ⟨later, apart⟩ := List.pairwise_cons.mp apart
  have here := fits e List.mem_cons_self
  obtain ⟨upto, old, tail, cut, start, stop⟩ := here.parts
  have bytes : byteLength (upto ++ old) = e.span.stop := by
    rw [byteLength_append, start, stop]
  obtain ⟨new, applied, -⟩ := applied?_spliced
    (fun d member => fits d (List.mem_cons_of_mem e member)) apart (upto ++ old) tail
    (by rw [cut, List.append_assoc]) (fun d member => bytes ▸ later d member)
  refine ⟨_, applied, here.ordered, ?_, ?_⟩
  · exact Text.isBoundary_iff.mpr ⟨upto, old ++ new, List.append_assoc _ _ _, start⟩
  · exact Text.isBoundary_iff.mpr ⟨upto ++ old, new, rfl, bytes⟩

/-- A set that is accepted for a source has its edits in the order of their places; applied from the
last to the first, each edit finds its range at whole characters of the text so far; and the result
is the source copied from front to back with the edits put in on the way. -/
theorem apply_eq_forward {edits : List Edit} {source : String} {s : EditSet}
    (accepted : ofList edits source = .ok s) :
    Edit.Arranged edits s.edits ∧
    (∀ before e after, s.edits = before ++ e :: after →
      ∃ text, applied? ⟨after⟩ source.toList = some text ∧ e.span.Stands text) ∧
    s.applied? source.toList = some (forward source.toList 0 s.edits) ∧
    s.apply source = String.ofList (forward source.toList 0 s.edits) := by
  obtain ⟨-, fits, apart⟩ := ofList_eq_ok_iff.mp accepted
  obtain ⟨new, applied, spliced⟩ := applied?_spliced fits apart [] source.toList
    (List.nil_append _).symm (fun e _ => Nat.zero_le _)
  have result : forward source.toList 0 s.edits = new :=
    forward_of_spliced spliced (List.nil_append _).symm
  have applied : s.applied? source.toList = some (forward source.toList 0 s.edits) := by
    rw [result]
    exact applied
  refine ⟨arranged_of_accepted accepted, ?_, applied, ?_⟩
  · intro before e after split
    rw [split] at fits apart
    refine applied?_stands (fun d member => fits d (List.mem_append_right before member)) ?_
    exact (List.pairwise_append.mp apart).2.1
  · rw [apply, applied]

/-- Touching edits of a text with a character of two bytes, three of them insertions at one
place. -/
def touchingEdits : List Edit :=
  [Edit.delete ⟨2, 3⟩ "blank", Edit.insert 2 "b" "second", Edit.insert 2 "c" "third",
    (Edit.insert 2 "a" "first").withPriority (-1), Edit.replace ⟨0, 2⟩ "→x" "letter"]

def touchingSet : EditSet :=
  ⟨[Edit.replace ⟨0, 2⟩ "→x" "letter", (Edit.insert 2 "a" "first").withPriority (-1),
    Edit.insert 2 "b" "second", Edit.insert 2 "c" "third", Edit.delete ⟨2, 3⟩ "blank"]⟩

theorem touchingEdits_sorted : touchingEdits.mergeSort Edit.le = touchingSet.edits := by
  simp [touchingEdits, touchingSet, List.mergeSort, List.MergeSort.Internal.splitInTwo, Edit.le,
    Edit.delete, Edit.insert, Edit.replace, Edit.withPriority]

theorem apply_eq_forward_touching :
    ofList touchingEdits "é h" = .ok touchingSet ∧ Edit.Arranged touchingEdits touchingSet.edits ∧
    touchingSet.applied? "é h".toList = some (forward "é h".toList 0 touchingSet.edits) ∧
    touchingSet.apply "é h" = "→xabch" := by
  have accepted : ofList touchingEdits "é h" = .ok touchingSet := by
    rw [ofList, touchingEdits_sorted]
    rfl
  obtain ⟨arranged, -, applied, result⟩ := apply_eq_forward accepted
  refine ⟨accepted, arranged, applied, ?_⟩
  rw [result]
  decide +kernel

end EditSet

end Restyle
