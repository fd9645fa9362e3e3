import Mathlib.Data.List.Pairwise
import Restyle.Edit
import Restyle.Proofs.Text.Cut
/-!
What an accepted set of edits does to its source. The set is applied from the last edit to the
first, yet the result is what one reading of the source from front to back gives: each edit puts its
text in the place of its range, and what stands between two ranges is kept.
-/

namespace Restyle

open Text (byteLength byteLength_append byteLength_eq_zero)

/-- A change of a text: the bytes of a span give way to a text. -/
structure Change where
  span : Span
  text : String
deriving DecidableEq, Repr

/-- What an edit changes. Its label and its priority leave no trace in the result. -/
def Edit.change (e : Edit) : Change := ⟨e.span, e.replacement⟩

@[simp] theorem Edit.change_span (e : Edit) : e.change.span = e.span := rfl

@[simp] theorem Edit.change_text (e : Edit) : e.change.text = e.replacement := rfl

/-- `Spliced n cs old new`: the text `old` begins at byte `n` of a source, and the changes `cs`,
first to last, turn it into `new`. -/
inductive Spliced : Nat → List Change → List Char → List Char → Prop
  | rest (n : Nat) (text : List Char) : Spliced n [] text text
  | change {n : Nat} {c : Change} {cs : List Change} {kept old tail new : List Char} :
      c.span.start = n + byteLength kept → c.span.stop = c.span.start + byteLength old →
      Spliced c.span.stop cs tail new →
      Spliced n (c :: cs) (kept ++ (old ++ tail)) (kept ++ (c.text.toList ++ new))

/-- The source and the changes leave no choice in the result. -/
theorem Spliced.unique {n : Nat} {cs : List Change} {old new new' : List Char}
    (h : Spliced n cs old new) (h' : Spliced n cs old new') : new = new' := by
  generalize same : old = old' at h'
  induction h generalizing old' new' with
  | rest n text => cases h'; exact same
  | @change n c cs kept gone tail new start stop _ ih =>
      cases h' with
      | @change _ _ _ kept' gone' tail' new'' start' stop' later =>
          obtain ⟨rfl, behind⟩ := Text.eq_of_append_eq same (by omega)
          obtain ⟨rfl, rfl⟩ := Text.eq_of_append_eq behind (by omega)
          rw [ih _ rfl later]

theorem Spliced.apart {n : Nat} {cs : List Change} {old new : List Char}
    (h : Spliced n cs old new) : cs.Pairwise fun a b => a.span.stop ≤ b.span.start := by
  suffices all : (∀ c ∈ cs, n ≤ c.span.start ∧ c.span.start ≤ c.span.stop) ∧
      cs.Pairwise fun a b => a.span.stop ≤ b.span.start from all.2
  induction h with
  | rest n text => exact ⟨fun c member => absurd member List.not_mem_nil, List.Pairwise.nil⟩
  | @change n c cs kept gone tail new start stop _ ih =>
      obtain ⟨behind, apart⟩ := ih
      refine ⟨?_, List.pairwise_cons.mpr ⟨fun d member => (behind d member).1, apart⟩⟩
      intro d member
      rcases List.mem_cons.mp member with rfl | later
      · omega
      · have := behind d later
        omega

theorem Spliced.shows {n : Nat} {cs : List Change} {old new : List Char}
    (h : Spliced n cs old new) {c : Change} (member : c ∈ cs) : c.text.toList <:+: new := by
  induction h with
  | rest n text => cases member
  | @change n d cs kept gone tail new start stop _ ih =>
      rcases List.mem_cons.mp member with rfl | later
      · exact ⟨kept, new, List.append_assoc _ _ _⟩
      · exact (ih later).trans
          ((List.suffix_append _ _).isInfix.trans (List.suffix_append _ _).isInfix)

/-- What stands in front of all changes stays as it is. -/
theorem Spliced.keeps {n : Nat} {cs : List Change} {front rest new : List Char}
    (h : Spliced n cs (front ++ rest) new)
    (behind : ∀ c ∈ cs, n + byteLength front ≤ c.span.start) :
    ∃ tail, new = front ++ tail ∧ Spliced (n + byteLength front) cs rest tail := by
  generalize same : front ++ rest = old at h
  cases h with
  | rest n text =>
      subst same
      exact ⟨rest, rfl, .rest _ rest⟩
  | @change n c cs kept gone after new start stop later =>
      have first := behind c List.mem_cons_self
      obtain ⟨more, rfl, rfl⟩ := Text.eq_append_of_append_eq same (by omega)
      rw [byteLength_append] at start
      refine ⟨more ++ (c.text.toList ++ new), List.append_assoc _ _ _, .change ?_ stop later⟩
      rw [start, Nat.add_assoc]

/-- What stands in front of a spliced text may be read with it. -/
theorem Spliced.front {n : Nat} {cs : List Change} {front old new : List Char}
    (h : Spliced (n + byteLength front) cs old new) :
    Spliced n cs (front ++ old) (front ++ new) := by
  cases h with
  | rest => exact .rest n _
  | @change _ c cs kept gone tail new start stop later =>
      rw [← List.append_assoc, ← List.append_assoc front]
      refine .change ?_ stop later
      rw [start, byteLength_append, Nat.add_assoc]

theorem Spliced.stands {n : Nat} {cs : List Change} {before old new : List Char}
    (h : Spliced n cs old new) (place : byteLength before = n) :
    ∀ c ∈ cs, c.span.Stands (before ++ old) := by
  induction h generalizing before with
  | rest => exact fun c member => absurd member List.not_mem_nil
  | @change n c cs kept gone tail new start stop _ ih =>
      have upto : byteLength (before ++ kept) = c.span.start := by
        rw [byteLength_append, place, start]
      have behind : byteLength (before ++ (kept ++ gone)) = c.span.stop := by
        rw [← List.append_assoc, byteLength_append, upto, stop]
      refine List.forall_mem_cons.mpr ⟨⟨by omega, ?_, ?_⟩, ?_⟩
      · exact Text.isBoundary_iff.mpr ⟨before ++ kept, gone ++ tail, by simp, upto⟩
      · exact Text.isBoundary_iff.mpr ⟨before ++ (kept ++ gone), tail, by simp, behind⟩
      · have rest := ih behind
        rwa [List.append_assoc, List.append_assoc] at rest

/-- An edit stands at whole characters of a source. -/
structure Edit.Fits (source : List Char) (e : Edit) : Prop where
  ordered : e.span.start ≤ e.span.stop
  start : Text.isBoundary e.span.start source = true
  stop : Text.isBoundary e.span.stop source = true

theorem Edit.fits_iff {source : List Char} {e : Edit} : e.Fits source ↔ e.span.Stands source :=
  ⟨fun h => ⟨h.ordered, h.start, h.stop⟩, fun h => ⟨h.ordered, h.start, h.stop⟩⟩

theorem Edit.Fits.parts {source : List Char} {e : Edit} (h : e.Fits source) :
    ∃ before old after, source = before ++ (old ++ after) ∧ byteLength before = e.span.start ∧
      e.span.stop = e.span.start + byteLength old := by
  obtain ⟨before, behind, rfl, hb⟩ := Text.isBoundary_iff.mp h.start
  obtain ⟨upto, after, same, hu⟩ := Text.isBoundary_iff.mp h.stop
  have fewer : byteLength before ≤ byteLength upto := by
    rw [hb, hu]
    exact h.ordered
  obtain ⟨old, rfl, rfl⟩ := Text.eq_append_of_append_eq same fewer
  refine ⟨before, old, after, rfl, hb, ?_⟩
  rw [← hu, byteLength_append, hb]

namespace EditSet

theorem misplaced?_eq_none_iff {source : List Char} {e : Edit} :
    misplaced? source e = none ↔ e.Fits source := by
  constructor
  · intro h
    simp only [misplaced?] at h
    split at h
    · cases h
    · split at h
      · cases h
      · split at h
        · cases h
        · rename_i range start stop
          simp only [Bool.or_eq_true, decide_eq_true_eq, not_or, Nat.not_lt] at range
          exact ⟨range.1, by simpa using start, by simpa using stop⟩
  · intro h
    obtain ⟨before, old, after, rfl, hb, hs⟩ := h.parts
    have range : ¬ (decide (e.span.stop < e.span.start) ||
        decide (byteLength (before ++ (old ++ after)) < e.span.stop)) = true := by
      simp only [Bool.or_eq_true, decide_eq_true_eq, not_or, Nat.not_lt, byteLength_append]
      omega
    simp only [misplaced?, if_neg range, h.start, h.stop, Bool.not_true, Bool.false_eq_true,
      if_false]

theorem overlap?_cons_cons_eq_none_iff {a b : Edit} {es : List Edit} :
    overlap? (a :: b :: es) = none ↔
      a.span.stop ≤ b.span.start ∧ overlap? (b :: es) = none := by
  simp only [overlap?]
  split
  · rename_i together
    simp only [Edit.isInsertion, Bool.and_eq_true, beq_iff_eq] at together
    have := together.1.1
    have := together.2
    refine ⟨fun h => ⟨?_, h⟩, fun h => h.2⟩
    omega
  · split
    · rename_i crossing
      constructor
      · intro h; cases h
      · intro h; exact absurd h.1 (Nat.not_le.mpr crossing)
    · rename_i apart
      exact ⟨fun h => ⟨Nat.not_lt.mp apart, h⟩, fun h => h.2⟩

/-- No two neighbours overlap exactly when no two edits do. -/
theorem overlap?_eq_none_iff {es : List Edit} (ordered : ∀ e ∈ es, e.span.start ≤ e.span.stop) :
    overlap? es = none ↔ es.Pairwise fun a b => a.span.stop ≤ b.span.start := by
  induction es with
  | nil => simp only [overlap?, List.Pairwise.nil]
  | cons a es ih =>
      have later := ih fun e member => ordered e (List.mem_cons_of_mem a member)
      cases es with
      | nil => simp only [overlap?, List.pairwise_singleton]
      | cons b es =>
          rw [overlap?_cons_cons_eq_none_iff, later, List.pairwise_cons (a := a)]
          refine and_congr_left fun apart => ?_
          constructor
          · intro first e member
            rcases List.mem_cons.mp member with rfl | behind
            · exact first
            · have := ordered b (List.mem_cons_of_mem a List.mem_cons_self)
              have := (List.pairwise_cons.mp apart).1 e behind
              omega
          · intro all
            exact all b List.mem_cons_self

/-- A set is accepted exactly when each edit fits and, once sorted, each ends before the next
begins. -/
theorem ofList_eq_ok_iff {edits : List Edit} {source : String} {s : EditSet} :
    ofList edits source = .ok s ↔ s.edits = edits.mergeSort Edit.le ∧
      (∀ e ∈ s.edits, e.Fits source.toList) ∧
      s.edits.Pairwise fun a b => a.span.stop ≤ b.span.start := by
  have fits : (edits.mergeSort Edit.le).findSome? (misplaced? source.toList) = none ↔
      ∀ e ∈ edits.mergeSort Edit.le, e.Fits source.toList := by
    simp only [List.findSome?_eq_none_iff, misplaced?_eq_none_iff]
  constructor
  · intro h
    dsimp only [ofList] at h
    split at h
    · cases h
    · cases h
    · rename_i placed apart
      cases h
      have all := fits.mp placed
      exact ⟨rfl, all, (overlap?_eq_none_iff fun e member => (all e member).ordered).mp apart⟩
  · rintro ⟨sorted, all, apart⟩
    obtain ⟨es⟩ := s
    cases sorted
    have placed := fits.mpr all
    have clear := (overlap?_eq_none_iff fun e member => (all e member).ordered).mpr apart
    simp only [ofList, placed, clear]

theorem splice?_append {e : Edit} {before old after : List Char}
    (start : byteLength before = e.span.start)
    (stop : e.span.stop = e.span.start + byteLength old) :
    e.splice? (before ++ (old ++ after)) = some (before ++ (e.replacement.toList ++ after)) := by
  have length : e.span.length = byteLength old := by
    simp only [Span.length]
    omega
  simp only [Edit.splice?, ← start, length, Text.splitAtByte?_append, Option.bind_eq_bind,
    Option.bind_some, Option.pure_def, List.append_assoc]

/-- The edits behind a cut of the source leave what stands before it, and splice what stands behind
it. -/
theorem applied?_spliced {source : List Char} {es : List Edit} (fits : ∀ e ∈ es, e.Fits source)
    (apart : es.Pairwise fun a b => a.span.stop ≤ b.span.start) (before after : List Char)
    (cut : source = before ++ after) (behind : ∀ e ∈ es, byteLength before ≤ e.span.start) :
    ∃ new, applied? ⟨es⟩ source = some (before ++ new) ∧
      Spliced (byteLength before) (es.map Edit.change) after new := by
  induction es generalizing before after with
  | nil => exact ⟨after, congrArg some cut, .rest _ after⟩
  | cons e es ih =>
      obtain ⟨later, apart⟩ := List.pairwise_cons.mp apart
      obtain ⟨upto, old, tail, same, start, stop⟩ := (fits e List.mem_cons_self).parts
      have first := behind e List.mem_cons_self
      -- The edits after `e` leave the source as it is up to the end of `e`.
      obtain ⟨new, applied, spliced⟩ := ih (fun d member => fits d (List.mem_cons_of_mem e member))
        apart (upto ++ old) tail
        (by rw [same, List.append_assoc])
        (by intro d member
            have := later d member
            rw [byteLength_append]
            omega)
      obtain ⟨kept, rfl, rfl⟩ :=
        Text.eq_append_of_append_eq (cut.symm.trans same) (by omega)
      refine ⟨kept ++ (e.replacement.toList ++ new), ?_, ?_⟩
      · have step : applied? ⟨e :: es⟩ source = (applied? ⟨es⟩ source).bind e.splice? := rfl
        rw [step, applied, Option.bind_some, List.append_assoc (before ++ kept),
          splice?_append start stop, List.append_assoc]
      · refine .change ?_ stop ?_
        · rw [Edit.change_span, ← start, byteLength_append]
        · rwa [byteLength_append, start, ← stop] at spliced

/-- An accepted set finds the range of each edit, and its result is the source spliced. -/
theorem apply_spliced {edits : List Edit} {source : String} {s : EditSet}
    (accepted : ofList edits source = .ok s) :
    Spliced 0 (s.edits.map Edit.change) source.toList (s.apply source).toList := by
  obtain ⟨-, fits, apart⟩ := ofList_eq_ok_iff.mp accepted
  obtain ⟨new, applied, spliced⟩ := applied?_spliced fits apart [] source.toList
    (List.nil_append _).symm (fun e _ => Nat.zero_le _)
  have result : (s.apply source).toList = new := by
    simp only [apply, applied, List.nil_append, String.toList_ofList]
  rw [result]
  exact spliced

end EditSet

theorem Edit.le_iff {a b : Edit} : a.le b = true ↔ a.span.start < b.span.start ∨
    a.span.start = b.span.start ∧ (a.span.stop < b.span.stop ∨
      a.span.stop = b.span.stop ∧ a.priority ≤ b.priority) := by
  simp only [Edit.le, Bool.or_eq_true, Bool.and_eq_true, decide_eq_true_eq, beq_iff_eq]

theorem Edit.le_trans (a b c : Edit) (h : a.le b = true) (h' : b.le c = true) :
    a.le c = true := by
  rw [Edit.le_iff] at h h' ⊢
  omega

theorem Edit.le_total (a b : Edit) : (a.le b || b.le a) = true := by
  rw [Bool.or_eq_true, Edit.le_iff, Edit.le_iff]
  omega

theorem Edit.mergeSort_eq {edits ordered : List Edit} (perm : edits.Perm ordered)
    (strict : ordered.Pairwise fun a b => b.le a = false) : edits.mergeSort Edit.le = ordered := by
  have same : (edits.mergeSort Edit.le).Perm ordered :=
    (List.mergeSort_perm edits Edit.le).trans perm
  have weak : ordered.Pairwise fun a b => a.le b = true := strict.imp fun {a b} h => by
    simpa only [h, Bool.or_false] using Edit.le_total a b
  have apart : ordered.Pairwise fun a b => a.le b = true → b.le a = true → a = b :=
    strict.imp fun h _ h' => absurd h' (Bool.eq_false_iff.mp h)
  have symmetric : Std.Symm fun a b : Edit => a.le b = true → b.le a = true → a = b :=
    ⟨fun _ _ h ba ab => (h ab ba).symm⟩
  refine same.eq_of_pairwise ?_ (List.pairwise_mergeSort Edit.le_trans Edit.le_total edits) weak
  intro a b ha hb
  exact apart.forall_of_forall (fun _ _ _ _ => rfl) (same.mem_iff.mp ha) hb

/-- Edits that splice a source are accepted in every order, with the spliced text as their
result. -/
theorem EditSet.ofList_of_spliced {edits ordered : List Edit} {source : String} {new : List Char}
    (perm : edits.Perm ordered) (strict : ordered.Pairwise fun a b => b.le a = false)
    (spliced : Spliced 0 (ordered.map Edit.change) source.toList new) :
    ofList edits source = .ok ⟨ordered⟩ ∧
      (⟨ordered⟩ : EditSet).apply source = String.ofList new := by
  have fits : ∀ e ∈ ordered, e.Fits source.toList := fun e member =>
    Edit.fits_iff.mpr (@Spliced.stands _ _ [] _ _ spliced rfl _ (List.mem_map_of_mem member))
  have accepted : ofList edits source = .ok ⟨ordered⟩ :=
    ofList_eq_ok_iff.mpr
      ⟨(Edit.mergeSort_eq perm strict).symm, fits, List.pairwise_map.mp spliced.apart⟩
  refine ⟨accepted, ?_⟩
  rw [← String.toList_inj, (apply_spliced accepted).unique spliced, String.toList_ofList]

theorem EditSet.ofList_sorted {edits : List Edit} {source : String} {s : EditSet}
    (accepted : ofList edits source = .ok s) : s.edits.Pairwise fun a b => a.le b = true := by
  rw [(ofList_eq_ok_iff.mp accepted).1]
  exact List.pairwise_mergeSort Edit.le_trans Edit.le_total edits

theorem EditSet.ofList_perm {edits : List Edit} {source : String} {s : EditSet}
    (accepted : ofList edits source = .ok s) : s.edits.Perm edits := by
  rw [(ofList_eq_ok_iff.mp accepted).1]
  exact List.mergeSort_perm edits Edit.le

/-- Edits go together with a source exactly when each stands between its characters and any two of
them lie apart, whatever their order. -/
theorem EditSet.exists_ofList_iff {edits : List Edit} {source : String} :
    (∃ s, ofList edits source = .ok s) ↔ (∀ e ∈ edits, e.span.Stands source.toList) ∧
      edits.Pairwise fun a b => a.span.Apart b.span := by
  have perm : (edits.mergeSort Edit.le).Perm edits := List.mergeSort_perm edits Edit.le
  have symmetric : ∀ {a b : Edit}, a.span.Apart b.span → b.span.Apart a.span := Span.Apart.symm
  constructor
  · rintro ⟨s, accepted⟩
    obtain ⟨sorted, fits, apart⟩ := ofList_eq_ok_iff.mp accepted
    rw [sorted] at fits apart
    exact ⟨fun e member => Edit.fits_iff.mp (fits e (perm.mem_iff.mpr member)),
      (perm.pairwise_iff symmetric).mp (apart.imp .inl)⟩
  · rintro ⟨stands, apart⟩
    have fits : ∀ e ∈ edits.mergeSort Edit.le, e.Fits source.toList := fun e member =>
      Edit.fits_iff.mpr (stands e (perm.mem_iff.mp member))
    refine ⟨⟨edits.mergeSort Edit.le⟩, ofList_eq_ok_iff.mpr ⟨rfl, fits, ?_⟩⟩
    have sorted := List.pairwise_mergeSort Edit.le_trans Edit.le_total edits
    refine (sorted.and ((perm.pairwise_iff symmetric).mpr apart)).imp_of_mem ?_
    -- Of two edits that lie apart, the one that begins first ends first, or both are empty.
    rintro a b ha hb ⟨le, before | behind⟩
    · exact before
    · have := (fits a ha).ordered
      have := (fits b hb).ordered
      have := Edit.le_iff.mp le
      omega

end Restyle
