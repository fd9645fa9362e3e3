import Restyle.Rewrite
import Restyle.Proofs.Edit.Splice
/-!
When rewriting a file succeeds and what it then gives. Each stage is opened here once: the edits of
the elements, their set together with the import, and the check of the result.
-/

namespace Restyle

open Component (Collection Styled)
open Markup (Element)

section Except

variable {ε ε' α β : Type}

theorem bind_eq_ok_iff {x : Except ε α} {f : α → Except ε β} {b : β} :
    x >>= f = .ok b ↔ ∃ a, x = .ok a ∧ f a = .ok b := by
  cases x with
  | error e =>
      constructor
      · intro h; cases h
      · rintro ⟨a, h, -⟩; cases h
  | ok a =>
      constructor
      · intro h; exact ⟨a, rfl, h⟩
      · rintro ⟨a', h, h'⟩; cases h; exact h'

theorem mapError_ok (f : ε → ε') (a : α) : (Except.ok a : Except ε α).mapError f = .ok a := rfl

theorem mapError_eq_ok_iff {f : ε → ε'} {x : Except ε α} {a : α} :
    x.mapError f = .ok a ↔ x = .ok a := by
  cases x with
  | error e =>
      constructor
      · intro h; cases h
      · intro h; cases h
  | ok b =>
      constructor
      · intro h; cases h; rfl
      · intro h; cases h; rfl

theorem ok_of_toOption {x : Except ε α} {a : α} (h : x.toOption = some a) : x = .ok a := by
  cases x with
  | error e => cases h
  | ok b => cases h; rfl

end Except

theorem Markup.scanSource_eq_ok_iff {attr : String} {file : Path} {source : String} {l : Language}
    {es : List Element} : scanSource attr file source l = .ok es ↔
      l.hasMarkup = true ∧ es = scan attr file source (l.parse source) := by
  unfold scanSource
  split
  · rename_i markup
    rw [Except.ok.injEq]
    exact ⟨fun same => ⟨markup, same.symm⟩, fun h => h.2.symm⟩
  · rename_i none
    exact ⟨nofun, fun h => absurd h.1 none⟩

namespace Rewrite

/-- The edits of elements exist exactly when each element finds its component, and then they are
those of the elements one after the other. -/
theorem editsFor_eq_ok_iff {attr : String} {file : Path} {components : Collection}
    {es : List Element} {edits : List Edit} :
    editsFor attr file components es = .ok edits ↔
      ∃ bound : List (Element × Styled), bound.map Prod.fst = es ∧
        (∀ p ∈ bound, components.find? file p.1.classes.value = some p.2) ∧
        edits = bound.flatMap fun p => elementEdits attr p.1 p.2 := by
  induction es generalizing edits with
  | nil =>
      constructor
      · intro h
        cases h
        exact ⟨[], rfl, fun p member => absurd member List.not_mem_nil, rfl⟩
      · rintro ⟨bound, none_bound, -, rfl⟩
        have : bound = [] := List.map_eq_nil_iff.mp none_bound
        subst this
        rfl
  | cons e es ih =>
      constructor
      · intro h
        simp only [editsFor] at h
        cases found : components.find? file e.classes.value with
        | none => simp only [found, reduceCtorEq] at h
        | some c =>
            cases rest : editsFor attr file components es with
            | error err => simp only [found, rest, reduceCtorEq] at h
            | ok later =>
                simp only [found, rest, Except.ok.injEq] at h
                obtain ⟨bound, rfl, finds, rfl⟩ := ih.mp rest
                refine ⟨(e, c) :: bound, rfl, ?_, h.symm⟩
                intro p member
                rcases List.mem_cons.mp member with rfl | member
                · exact found
                · exact finds p member
      · rintro ⟨bound, scanned, finds, rfl⟩
        cases bound with
        | nil => cases scanned
        | cons p bound =>
            obtain ⟨rfl, rfl⟩ := List.cons.inj scanned
            have found := finds p List.mem_cons_self
            have rest := ih.mpr
              ⟨bound, rfl, fun q member => finds q (List.mem_cons_of_mem p member), rfl⟩
            simp only [editsFor, found, rest, List.flatMap_cons]

theorem run_of_owned {components : Collection} {file : Path}
    (owns : components.forFile file ≠ []) (attr source : String) (l : Language) :
    run attr file source l components =
      if l.hasMarkup = true then
        match editsFor attr file components (Markup.scan attr file source (l.parse source)) with
        | .error e => .error e
        | .ok edits =>
          match EditSet.ofList
              (edits ++ [importEdit source (l.parse source) (components.forFile file)]) source with
          | .error c => .error (.conflict c)
          | .ok set =>
            match verify l (Syntax.faults (l.parse source) source.toList).length
                (set.apply source) with
            | .error e => .error e
            | .ok () => .ok ⟨set.apply source,
                (Markup.scan attr file source (l.parse source)).length,
                (components.forFile file).map (·.name)⟩
      else .error (.noMarkup file l (components.forFile file).length) := by
  have some_owned : (components.forFile file).isEmpty = false := List.isEmpty_eq_false_iff.mpr owns
  unfold run
  simp only [some_owned, Bool.false_eq_true, if_false]
  cases l.hasMarkup with
  | false => rfl
  | true =>
      simp only [Bool.not_true, Bool.false_eq_true, if_false, if_true]
      cases editsFor attr file components (Markup.scan attr file source (l.parse source)) with
      | error e => rfl
      | ok edits =>
          simp only [bind, Except.bind]
          cases EditSet.ofList
              (edits ++ [importEdit source (l.parse source) (components.forFile file)]) source with
          | error c => rfl
          | ok set =>
              simp only [mapError_ok]
              cases verify l (Syntax.faults (l.parse source) source.toList).length
                  (set.apply source) with
              | error e => rfl
              | ok done => rfl

theorem run_of_unowned {components : Collection} {file : Path}
    (owns : components.forFile file = []) (attr source : String) (l : Language) :
    run attr file source l components = .ok ⟨source, 0, []⟩ := by
  unfold run
  rw [owns]
  rfl

/-- Rewriting a file that has components succeeds exactly when its language has markup, its edits
exist and go together, and the result has no more faults than the source. -/
theorem run_eq_ok_iff {attr : String} {file : Path} {source : String} {l : Language}
    {components : Collection} (owns : components.forFile file ≠ []) {r : Rewritten} :
    run attr file source l components = .ok r ↔
      l.hasMarkup = true ∧ ∃ edits set,
        editsFor attr file components (Markup.scan attr file source (l.parse source)) = .ok edits ∧
        EditSet.ofList (edits ++ [importEdit source (l.parse source) (components.forFile file)])
          source = .ok set ∧
        verify l (Syntax.faults (l.parse source) source.toList).length (set.apply source) =
          .ok () ∧
        r = ⟨set.apply source, (Markup.scan attr file source (l.parse source)).length,
          (components.forFile file).map (·.name)⟩ := by
  have some_owned : (components.forFile file).isEmpty = false := List.isEmpty_eq_false_iff.mpr owns
  unfold run
  simp only [some_owned, Bool.false_eq_true, if_false]
  cases l.hasMarkup with
  | false =>
      constructor
      · intro h; cases h
      · rintro ⟨h, -⟩; cases h
  | true =>
      simp only [Bool.not_true, Bool.false_eq_true, if_false, bind_eq_ok_iff, mapError_eq_ok_iff,
        true_and]
      constructor
      · rintro ⟨edits, made, set, accepted, ⟨⟩, verified, h⟩
        cases h
        exact ⟨edits, set, made, accepted, verified, rfl⟩
      · rintro ⟨edits, set, made, accepted, verified, rfl⟩
        exact ⟨edits, made, set, accepted, (), verified, rfl⟩

/-- What rewriting a file comes to, stage by stage: the edits of its elements, that of the import, and
all of them in order. -/
def Staged (attr : String) (file : Path) (source : String) (l : Language)
    (components : Collection) (edits : List Edit) (i : Edit) (s : EditSet) : Prop :=
  (components.forFile file ≠ [] ∧ l.hasMarkup = true) ∧
  (editsFor attr file components (Markup.scan attr file source (l.parse source))).toOption =
    some edits ∧
  importEdit source (l.parse source) (components.forFile file) = i ∧
  ((edits ++ [i]).Perm s.edits ∧ s.edits.Pairwise fun a b => b.le a = false) ∧
  (s.edits.all (fun e => (EditSet.misplaced? source.toList e).isNone) = true ∧
    s.edits.Pairwise fun a b => a.span.stop ≤ b.span.start) ∧
  (verify l (Syntax.faults (l.parse source) source.toList).length
    (s.apply source)).toOption = some ()

section

variable {attr : String} {file : Path} {source : String} {l : Language} {components : Collection}
  {edits : List Edit} {i : Edit} {s : EditSet}

instance : Decidable (Staged attr file source l components edits i s) :=
  inferInstanceAs (Decidable (_ ∧ _))

theorem Staged.owns (h : Staged attr file source l components edits i s) :
    components.forFile file ≠ [] := h.1.1

theorem Staged.imports (h : Staged attr file source l components edits i s) :
    importEdit source (l.parse source) (components.forFile file) = i := h.2.2.1

theorem Staged.accepted (h : Staged attr file source l components edits i s) :
    EditSet.ofList (edits ++ [importEdit source (l.parse source) (components.forFile file)])
      source = .ok s := by
  obtain ⟨-, -, imports, ⟨perm, strict⟩, ⟨placed, apart⟩, -⟩ := h
  have sorted : (edits ++ [i]).mergeSort Edit.le = s.edits := Edit.mergeSort_eq perm strict
  have fits : ∀ e ∈ s.edits, e.Fits source.toList := fun e member =>
    EditSet.misplaced?_eq_none_iff.mp
      (Option.isNone_iff_eq_none.mp (List.all_eq_true.mp placed e member))
  rw [imports]
  exact EditSet.ofList_eq_ok_iff.mpr ⟨sorted.symm, fits, apart⟩

theorem run_of_staged (h : Staged attr file source l components edits i s) :
    run attr file source l components = .ok ⟨s.apply source,
      (Markup.scan attr file source (l.parse source)).length,
      (components.forFile file).map (·.name)⟩ := by
  have accepted := h.accepted
  obtain ⟨⟨owns, markup⟩, made, -, -, -, verified⟩ := h
  exact (run_eq_ok_iff owns).mpr
    ⟨markup, edits, s, ok_of_toOption made, accepted, ok_of_toOption verified, rfl⟩

end

end Rewrite

end Restyle
