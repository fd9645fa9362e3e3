import Restyle.Component.Collection
import Restyle.Proofs.Component.Naming
import Restyle.Proofs.OrderedTable
/-!
What the synthesizer records. However the files are interleaved and however often a file comes back,
the components of a file are those that all its elements so far call for: one for each class text,
in order of first appearance, made for the first element that has it.
-/

namespace Restyle.Component

open Markup (Element)
open Sheet (StyleTable ResolvedStyle)

namespace Collection

theorem forFile_congr {f g : Path} (h : f.same g = true) (cs : Collection) :
    cs.forFile f = cs.forFile g := by
  unfold forFile isOf
  exact List.filter_congr fun c _ => Path.same_congr h c.file

theorem forFile_append (cs more : Collection) (file : Path) :
    forFile (cs ++ more) file = cs.forFile file ++ forFile more file :=
  List.filter_append ..

theorem forFile_singleton_of_same {c : Styled} {file : Path} (h : c.file.same file = true) :
    forFile [c] file = [c] :=
  List.filter_cons_of_pos h

theorem forFile_singleton_of_other {c : Styled} {file : Path} (h : c.file.same file = false) :
    forFile [c] file = [] :=
  List.filter_cons_of_neg (by rw [isOf, h]; exact Bool.false_ne_true)

theorem find?_eq (cs : Collection) (file : Path) (classNames : String) :
    cs.find? file classNames = (cs.forFile file).find? fun c => c.classNames == classNames := by
  simp only [find?, forFile, List.find?_filter, Bool.decide_and, Bool.decide_eq_true]

theorem find?_isSome_iff {cs : Collection} {file : Path} {classNames : String} :
    (cs.find? file classNames).isSome = true ↔
      classNames ∈ (cs.forFile file).map (·.classNames) := by
  rw [find?_eq, List.find?_isSome, List.mem_map]
  simp only [beq_iff_eq]

end Collection

def literals (es : List Element) : List String := es.map (·.classes.value)

def firstWith? (es : List Element) (literal : String) : Option Element :=
  es.find? (·.classes.value == literal)

/-- The tokens of a class text that a table does not know. -/
def unresolved (t : StyleTable) (classNames : String) : List String :=
  ((Text.words classNames.toList).map String.ofList).filter fun token => (t.lookup token).isEmpty

theorem literals_concat (es : List Element) (e : Element) :
    literals (es ++ [e]) = literals es ++ [e.classes.value] := by
  simp only [literals, List.map_append, List.map_cons, List.map_nil]

theorem firstWith?_eq_none_iff {es : List Element} {literal : String} :
    firstWith? es literal = none ↔ literal ∉ literals es := by
  simp [firstWith?, literals]

theorem firstWith?_mem {es : List Element} {literal : String} {first : Element}
    (h : firstWith? es literal = some first) : first ∈ es ∧ first.classes.value = literal := by
  rw [firstWith?] at h
  have same := List.find?_some h
  exact ⟨List.mem_of_find?_eq_some h, eq_of_beq same⟩

theorem firstWith?_append_of_some {es : List Element} {literal : String} {first : Element}
    (h : firstWith? es literal = some first) (more : List Element) :
    firstWith? (es ++ more) literal = some first := by
  rw [firstWith?, List.find?_append, ← firstWith?, h, Option.some_or]

theorem firstWith?_concat_of_new {es : List Element} {e : Element}
    (new : e.classes.value ∉ literals es) :
    firstWith? (es ++ [e]) e.classes.value = some e := by
  rw [firstWith?, List.find?_append, ← firstWith?, firstWith?_eq_none_iff.mpr new, Option.none_or]
  simp only [List.find?_cons, beq_self_eq_true]

/-- The components `owned` of a file are what the elements `es` call for. -/
structure Records (s : Synthesizer) (file : Path) (es : List Element) (owned : List Styled) :
    Prop where
  texts : owned.map (·.classNames) = (literals es).eraseDups
  made : ∀ k c, owned[k]? = some c →
    ∃ e, firstWith? es c.classNames = some e ∧ c = (s.make c.file k e).1
  kept : ∀ c ∈ owned, c.file.same file = true

variable {s : Synthesizer} {file : Path}

@[simp] theorem make_file (s : Synthesizer) (file : Path) (n : Nat) (e : Element) :
    (s.make file n e).1.file = file := rfl

theorem Records.nil : Records s file [] [] where
  texts := rfl
  made := fun _ _ h => by cases h
  kept := fun _ h => by cases h

theorem Records.congr {g : Path} {es : List Element} {owned : List Styled}
    (h : Records s file es owned) (same : file.same g = true) : Records s g es owned where
  texts := h.texts
  made := h.made
  kept := fun c member => (Path.same_congr same c.file).symm.trans (h.kept c member)

theorem Records.reuse {es : List Element} {owned : List Styled} (h : Records s file es owned)
    {e : Element} (there : e.classes.value ∈ literals es) : Records s file (es ++ [e]) owned where
  texts := by
    rw [h.texts, literals_concat, OrderedTable.eraseDups_concat,
      if_pos (List.contains_iff_mem.mpr there)]
  made := by
    intro k c at_
    obtain ⟨first, found, same⟩ := h.made k c at_
    exact ⟨first, firstWith?_append_of_some found [e], same⟩
  kept := h.kept

theorem Records.create {es : List Element} {owned : List Styled} (h : Records s file es owned)
    {e : Element} (new : e.classes.value ∉ literals es) :
    Records s file (es ++ [e]) (owned ++ [(s.make file owned.length e).1]) where
  texts := by
    rw [literals_concat, OrderedTable.eraseDups_concat,
      if_neg fun there => new (List.contains_iff_mem.mp there), ← h.texts, List.map_append]
    rfl
  made := by
    intro k c at_
    rcases Nat.lt_or_ge k owned.length with before | behind
    · rw [List.getElem?_append_left before] at at_
      obtain ⟨first, found, same⟩ := h.made k c at_
      exact ⟨first, firstWith?_append_of_some found [e], same⟩
    · rw [List.getElem?_append_right behind, List.getElem?_singleton] at at_
      split at at_
      · rename_i last
        obtain rfl : k = owned.length := by omega
        cases at_
        exact ⟨e, firstWith?_concat_of_new new, rfl⟩
      · cases at_
  kept := by
    intro c member
    rcases List.mem_append.mp member with old | new
    · exact h.kept c old
    · rw [List.mem_singleton.mp new]
      exact Path.same_refl file

theorem Records.mem_texts_iff {es : List Element} {owned : List Styled}
    (h : Records s file es owned) {literal : String} :
    literal ∈ owned.map (·.classNames) ↔ literal ∈ literals es := by
  rw [h.texts, List.mem_eraseDups]

theorem step_cases (s : Synthesizer) (file : Path) (outcome : FileSynthesis) (cs : Collection)
    (e : Element) :
    e.classes.value ∈ (cs.forFile file).map (·.classNames) ∧
      s.step file (outcome, cs) e = ({ outcome with reused := outcome.reused + 1 }, cs) ∨
    e.classes.value ∉ (cs.forFile file).map (·.classNames) ∧
      ∃ c, c = (s.make file (cs.forFile file).length e).1 ∧
        s.step file (outcome, cs) e =
          ({ outcome with
              created := outcome.created ++ [c.name]
              droppedTokens := outcome.droppedTokens ++ unresolved s.table c.classNames },
            cs ++ [c]) := by
  by_cases there : e.classes.value ∈ (cs.forFile file).map (·.classNames)
  · refine .inl ⟨there, ?_⟩
    simp only [Synthesizer.step, if_pos (Collection.find?_isSome_iff.mpr there)]
  · refine .inr ⟨there, _, rfl, ?_⟩
    have missing : ¬ (cs.find? file e.classes.value).isSome = true :=
      fun h => there (Collection.find?_isSome_iff.mp h)
    simp only [Synthesizer.step, if_neg missing]
    rfl

theorem step_records {es : List Element} {outcome : FileSynthesis} {cs : Collection}
    (h : Records s file es (cs.forFile file)) (e : Element) :
    Records s file (es ++ [e]) ((s.step file (outcome, cs) e).2.forFile file) := by
  rcases step_cases s file outcome cs e with ⟨there, stepped⟩ | ⟨new, c, rfl, stepped⟩
  · rw [stepped]
    exact h.reuse (h.mem_texts_iff.mp there)
  · rw [stepped, Collection.forFile_append,
      Collection.forFile_singleton_of_same (by rw [make_file, Path.same_refl])]
    exact h.create fun there => new (h.mem_texts_iff.mpr there)

theorem step_forFile_of_other {g : Path} (other : file.same g = false) (outcome : FileSynthesis)
    (cs : Collection) (e : Element) :
    (s.step file (outcome, cs) e).2.forFile g = cs.forFile g := by
  rcases step_cases s file outcome cs e with ⟨-, stepped⟩ | ⟨-, c, rfl, stepped⟩
  · rw [stepped]
  · rw [stepped, Collection.forFile_append,
      Collection.forFile_singleton_of_other (by rw [make_file, other]), List.append_nil]

theorem synthesizeFile_records {es : List Element} {cs : Collection}
    (h : Records s file es (cs.forFile file)) (more : List Element) :
    Records s file (es ++ more) ((s.synthesizeFile file more cs).2.forFile file) := by
  unfold Synthesizer.synthesizeFile
  generalize (⟨[], 0, []⟩ : FileSynthesis) = outcome
  induction more generalizing es outcome cs with
  | nil => rwa [List.append_nil]
  | cons e more ih =>
      rw [List.foldl_cons, List.append_cons]
      exact ih (step_records h e) _

theorem synthesizeFile_forFile_of_other {g : Path} (other : file.same g = false)
    (es : List Element) (cs : Collection) :
    (s.synthesizeFile file es cs).2.forFile g = cs.forFile g := by
  unfold Synthesizer.synthesizeFile
  generalize (⟨[], 0, []⟩ : FileSynthesis) = outcome
  induction es generalizing outcome cs with
  | nil => rfl
  | cons e es ih =>
      rw [List.foldl_cons]
      exact (ih _ _).trans (step_forFile_of_other other outcome cs e)

/-- A component is made for one of the elements, or was there before. -/
theorem mem_synthesizeFile {es : List Element} {cs : Collection} {c : Styled}
    (h : c ∈ (s.synthesizeFile file es cs).2) :
    c ∈ cs ∨ ∃ n, ∃ e ∈ es, c = (s.make file n e).1 := by
  unfold Synthesizer.synthesizeFile at h
  generalize (⟨[], 0, []⟩ : FileSynthesis) = outcome at h
  induction es generalizing outcome cs with
  | nil => exact .inl h
  | cons e es ih =>
      rw [List.foldl_cons] at h
      rcases step_cases s file outcome cs e with ⟨-, stepped⟩ | ⟨-, made, rfl, stepped⟩
      · rw [stepped] at h
        rcases ih _ h with old | ⟨n, f, member, new⟩
        · exact .inl old
        · exact .inr ⟨n, f, List.mem_cons_of_mem e member, new⟩
      · rw [stepped] at h
        rcases ih _ h with old | ⟨n, f, member, new⟩
        · rcases List.mem_append.mp old with old | new
          · exact .inl old
          · exact .inr ⟨_, e, List.mem_cons_self, List.mem_singleton.mp new⟩
        · exact .inr ⟨n, f, List.mem_cons_of_mem e member, new⟩

/-- What a call says of itself: it appends the components `new` for the file, which it lists by name,
counts the elements that needed none, and gives the tokens of the new ones that have no style. -/
structure Extends (s : Synthesizer) (file : Path) (es : List Element) (cs : Collection)
    (outcome outcome' : FileSynthesis) (cs' : Collection) (new : List Styled) : Prop where
  appended : cs' = cs ++ new
  own : ∀ c ∈ new, c.file = file
  created : outcome'.created = outcome.created ++ new.map (·.name)
  counted : new.length + outcome'.reused = outcome.reused + es.length
  dropped : outcome'.droppedTokens =
    outcome.droppedTokens ++ new.flatMap fun c => unresolved s.table c.classNames

theorem foldl_step_extends (s : Synthesizer) (file : Path) (es : List Element)
    (outcome : FileSynthesis) (cs : Collection) :
    ∃ new, Extends s file es cs outcome (es.foldl (s.step file) (outcome, cs)).1
      (es.foldl (s.step file) (outcome, cs)).2 new := by
  induction es generalizing outcome cs with
  | nil => exact ⟨[], by simp, by simp, by simp, by simp, by simp⟩
  | cons e es ih =>
      rw [List.foldl_cons]
      rcases step_cases s file outcome cs e with ⟨-, stepped⟩ | ⟨-, c, made, stepped⟩
      · rw [stepped]
        obtain ⟨new, later⟩ := ih { outcome with reused := outcome.reused + 1 } cs
        refine ⟨new, later.appended, later.own, later.created, ?_, later.dropped⟩
        have := later.counted
        simp only [List.length_cons] at this ⊢
        omega
      · rw [stepped]
        obtain ⟨new, later⟩ := ih
          { outcome with
            created := outcome.created ++ [c.name]
            droppedTokens := outcome.droppedTokens ++ unresolved s.table c.classNames } (cs ++ [c])
        refine ⟨c :: new, ?_, ?_, ?_, ?_, ?_⟩
        · rw [later.appended, List.append_assoc]
          rfl
        · intro d member
          rcases List.mem_cons.mp member with rfl | member
          · rw [made]
            rfl
          · exact later.own d member
        · rw [later.created, List.append_assoc]
          rfl
        · have := later.counted
          simp only [List.length_cons] at this ⊢
          omega
        · rw [later.dropped, List.append_assoc]
          rfl

theorem synthesizeFile_extends (s : Synthesizer) (file : Path) (es : List Element)
    (cs : Collection) :
    ∃ new, Extends s file es cs ⟨[], 0, []⟩ (s.synthesizeFile file es cs).1
      (s.synthesizeFile file es cs).2 new :=
  foldl_step_extends s file es ⟨[], 0, []⟩ cs

def Synthesizer.synthesizeAll (s : Synthesizer) (calls : List (Path × List Element)) :
    Collection :=
  calls.foldl (fun cs call => (s.synthesizeFile call.1 call.2 cs).2) []

theorem exists_call_of_mem_synthesizeAll {s : Synthesizer} {calls : List (Path × List Element)}
    {c : Styled} (h : c ∈ s.synthesizeAll calls) :
    ∃ call ∈ calls, ∃ n, ∃ e ∈ call.2, c = (s.make call.1 n e).1 := by
  suffices all : ∀ cs : Collection,
      c ∈ calls.foldl (fun cs call => (s.synthesizeFile call.1 call.2 cs).2) cs →
        c ∈ cs ∨ ∃ call ∈ calls, ∃ n, ∃ e ∈ call.2, c = (s.make call.1 n e).1 from
    (all [] h).resolve_left List.not_mem_nil
  clear h
  induction calls with
  | nil => exact fun cs old => .inl old
  | cons call calls ih =>
      intro cs h
      rcases ih _ h with h | ⟨later, among, new⟩
      · rcases mem_synthesizeFile h with old | new
        · exact .inl old
        · exact .inr ⟨call, List.mem_cons_self, new⟩
      · exact .inr ⟨later, List.mem_cons_of_mem call among, new⟩

theorem mem_synthesizeAll {s : Synthesizer} {calls : List (Path × List Element)} {c : Styled}
    (h : c ∈ s.synthesizeAll calls) : ∃ file n e, c = (s.make file n e).1 := by
  obtain ⟨call, -, n, e, -, made⟩ := exists_call_of_mem_synthesizeAll h
  exact ⟨call.1, n, e, made⟩

def elementsOf (calls : List (Path × List Element)) (file : Path) : List Element :=
  (calls.filter fun call => call.1.same file).flatMap Prod.snd

theorem synthesizeAll_records (s : Synthesizer) (calls : List (Path × List Element))
    (file : Path) :
    Records s file (elementsOf calls file) ((s.synthesizeAll calls).forFile file) := by
  -- Generalised over the elements of the file that came up before.
  suffices all : ∀ (es : List Element) (cs : Collection), Records s file es (cs.forFile file) →
      Records s file (es ++ elementsOf calls file)
        ((calls.foldl (fun cs call => (s.synthesizeFile call.1 call.2 cs).2) cs).forFile file) from
    all [] [] Records.nil
  induction calls with
  | nil =>
      intro es cs h
      simpa only [elementsOf, List.filter_nil, List.flatMap_nil, List.append_nil, List.foldl_nil]
        using h
  | cons call calls ih =>
      intro es cs h
      rw [List.foldl_cons]
      cases same : call.1.same file with
      | true =>
          have here : elementsOf (call :: calls) file = call.2 ++ elementsOf calls file := by
            simp only [elementsOf, List.filter_cons, same, if_true, List.flatMap_cons]
          have recorded : Records s call.1 es (cs.forFile call.1) := by
            rw [Collection.forFile_congr same]
            exact h.congr ((Path.same_comm file call.1).trans same)
          have next := (synthesizeFile_records recorded call.2).congr same
          rw [Collection.forFile_congr same] at next
          rw [here, ← List.append_assoc]
          exact ih _ _ next
      | false =>
          have elsewhere : elementsOf (call :: calls) file = elementsOf calls file := by
            simp only [elementsOf, List.filter_cons, same, Bool.false_eq_true, if_false]
          rw [elsewhere]
          refine ih _ _ ?_
          rwa [synthesizeFile_forFile_of_other same]

theorem Records.get {es : List Element} {owned : List Styled} (h : Records s file es owned)
    {k : Nat} {c : Styled} (at_ : owned[k]? = some c) :
    c.name = componentName s.suffix file k ∧
      (firstWith? es c.classNames).map (·.tag) = some c.tag := by
  obtain ⟨first, found, made⟩ := h.made k c at_
  have name : c.name = componentName s.suffix c.file k := congrArg Styled.name made
  have tag : c.tag = first.tag := congrArg Styled.tag made
  refine ⟨?_, ?_⟩
  · rw [name]
    exact componentName_congr (h.kept c (List.mem_of_getElem? at_)) s.suffix k
  · rw [found, Option.map_some, tag]

theorem Records.names {es : List Element} {owned : List Styled} (h : Records s file es owned) :
    owned.map (·.name) = (List.range owned.length).map (componentName s.suffix file) := by
  apply List.ext_getElem?
  intro k
  rw [List.getElem?_map, List.getElem?_map]
  rcases Nat.lt_or_ge k owned.length with inside | outside
  · rw [List.getElem?_range inside, List.getElem?_eq_getElem inside, Option.map_some,
      Option.map_some, (h.get (List.getElem?_eq_getElem inside)).1]
  · rw [List.getElem?_eq_none outside, List.getElem?_eq_none (by simpa using outside)]
    rfl

theorem Records.names_nodup {es : List Element} {owned : List Styled}
    (h : Records s file es owned) : (owned.map (·.name)).Nodup := by
  rw [h.names]
  exact List.pairwise_map.mpr
    (List.nodup_range.imp fun apart same => apart (componentName_injective same))

theorem Records.texts_nodup {es : List Element} {owned : List Styled}
    (h : Records s file es owned) : (owned.map (·.classNames)).Nodup := by
  rw [h.texts]
  exact OrderedTable.nodup_eraseDups _

/-- The components of a file as its elements alone determine them: a name by position, a class text
by first appearance, and the tag of the first element with that text. -/
theorem Records.entries {es : List Element} {owned : List Styled} (h : Records s file es owned) :
    owned.map (fun c => (c.name, c.classNames, some c.tag)) =
      (literals es).eraseDups.zipIdx.map fun p =>
        (componentName s.suffix file p.2, p.1, (firstWith? es p.1).map (·.tag)) := by
  rw [← h.texts]
  apply List.ext_getElem?
  intro k
  rw [List.getElem?_map, List.getElem?_map, List.getElem?_zipIdx, List.getElem?_map]
  cases at_ : owned[k]? with
  | none => rfl
  | some c =>
      obtain ⟨name, tag⟩ := h.get at_
      simp only [Option.map_some, Nat.zero_add, name, tag]

/-- After any calls of one synthesizer the components of a file have distinct names and class texts,
and the `k`-th is named by `k`, replaces the `k`-th distinct class text of the file, and is made for
the tag of the first element with that text. A call, whatever was there before, appends components
for its file, accounts for each element as new or known, and gives just the tokens of the new
components that have no style. -/
theorem synthesis_by_first_appearance (s : Synthesizer) :
    (∀ (calls : List (Path × List Element)) (file : Path),
      (((s.synthesizeAll calls).forFile file).map (·.name)).Nodup ∧
      (((s.synthesizeAll calls).forFile file).map (·.classNames)).Nodup ∧
      ((s.synthesizeAll calls).forFile file).map (fun c => (c.name, c.classNames, some c.tag)) =
        (literals (elementsOf calls file)).eraseDups.zipIdx.map fun p =>
          (componentName s.suffix file p.2, p.1,
            (firstWith? (elementsOf calls file) p.1).map (·.tag))) ∧
    ∀ (cs : Collection) (file : Path) (es : List Element), ∃ new : List Styled,
      (s.synthesizeFile file es cs).2 = cs ++ new ∧ (new.all fun c => c.file = file) ∧
      (s.synthesizeFile file es cs).1.created = new.map (·.name) ∧
      (s.synthesizeFile file es cs).1.created.length + (s.synthesizeFile file es cs).1.reused =
        es.length ∧
      (s.synthesizeFile file es cs).1.droppedTokens =
        new.flatMap fun c => unresolved s.table c.classNames := by
  constructor
  · intro calls file
    have recorded := synthesizeAll_records s calls file
    exact ⟨recorded.names_nodup, recorded.texts_nodup, recorded.entries⟩
  · intro cs file es
    obtain ⟨new, h⟩ := synthesizeFile_extends s file es cs
    have created : (s.synthesizeFile file es cs).1.created = new.map (·.name) := h.created
    refine ⟨new, h.appended, ?_, created, ?_, h.dropped⟩
    · rw [List.all_eq_true]
      intro c member
      rw [h.own c member]
      exact decide_eq_true rfl
    · have := h.counted
      rw [created, List.length_map]
      simp only at this
      omega

def Collection.Covers (cs : Collection) (file : Path) (literal : String) : Prop :=
  literal ∈ (cs.forFile file).map (·.classNames)

theorem Collection.Covers.find? {cs : Collection} {file : Path} {literal : String}
    (h : cs.Covers file literal) : ∃ c, cs.find? file literal = some c :=
  Option.isSome_iff_exists.mp (Collection.find?_isSome_iff.mpr h)

theorem Collection.Covers.append {cs : Collection} {file : Path} {literal : String}
    (h : cs.Covers file literal) (more : Collection) :
    Collection.Covers (cs ++ more) file literal := by
  unfold Collection.Covers
  rw [Collection.forFile_append, List.map_append]
  exact List.mem_append_left _ h

theorem step_covers (s : Synthesizer) (file : Path) (outcome : FileSynthesis) (cs : Collection)
    (e : Element) :
    (s.step file (outcome, cs) e).2.Covers file e.classes.value ∧
      ∀ literal, cs.Covers file literal → (s.step file (outcome, cs) e).2.Covers file literal := by
  rcases step_cases s file outcome cs e with ⟨there, stepped⟩ | ⟨-, c, made, stepped⟩
  · rw [stepped]
    exact ⟨there, fun _ => id⟩
  · rw [stepped]
    refine ⟨?_, fun literal covered => covered.append [c]⟩
    have own : c.file.same file = true := by
      rw [made, make_file]
      exact Path.same_refl file
    have text : c.classNames = e.classes.value := by
      rw [made]
      rfl
    unfold Collection.Covers
    rw [Collection.forFile_append, Collection.forFile_singleton_of_same own, List.map_append,
      List.map_singleton, text]
    exact List.mem_append_right _ List.mem_cons_self

theorem synthesizeFile_covers (s : Synthesizer) (file : Path) (es : List Element)
    (cs : Collection) :
    (∀ e ∈ es, (s.synthesizeFile file es cs).2.Covers file e.classes.value) ∧
      ∀ literal, cs.Covers file literal → (s.synthesizeFile file es cs).2.Covers file literal := by
  unfold Synthesizer.synthesizeFile
  generalize (⟨[], 0, []⟩ : FileSynthesis) = outcome
  induction es generalizing outcome cs with
  | nil => exact ⟨fun e none => absurd none List.not_mem_nil, fun _ => id⟩
  | cons e es ih =>
      rw [List.foldl_cons]
      obtain ⟨covered, kept⟩ := step_covers s file outcome cs e
      obtain ⟨later, keeps⟩ := ih (s.step file (outcome, cs) e).2 (s.step file (outcome, cs) e).1
      refine ⟨?_, fun literal before => keeps literal (kept literal before)⟩
      intro d member
      rcases List.mem_cons.mp member with rfl | member
      · exact keeps _ covered
      · exact later d member

end Restyle.Component
