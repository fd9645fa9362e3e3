import Restyle.Proofs.Component.Synthesis
import Restyle.Rewrite
/-!
Files are taken one by one: of all components that were made only those of the file itself count, for
the components it gets and for its rewriting.
-/

namespace Restyle

open Component (Collection Styled Synthesizer FileSynthesis)
open Markup (Element)

namespace Component

variable {s : Synthesizer} {file : Path}

theorem Collection.forFile_append_of_none {cs : Collection} (others : cs.forFile file = [])
    (own : Collection) : Collection.forFile (cs ++ own) file = own.forFile file := by
  rw [Collection.forFile_append, others, List.nil_append]

theorem step_congr {cs cs' : Collection} (same : cs.forFile file = cs'.forFile file)
    (outcome : FileSynthesis) (e : Element) : ∃ outcome' new,
      s.step file (outcome, cs) e = (outcome', cs ++ new) ∧
      s.step file (outcome, cs') e = (outcome', cs' ++ new) := by
  have found : cs.find? file e.classes.value = cs'.find? file e.classes.value := by
    rw [Collection.find?_eq, Collection.find?_eq, same]
  unfold Synthesizer.step
  dsimp only
  rw [found, same]
  split
  · exact ⟨_, [], by rw [List.append_nil], by rw [List.append_nil]⟩
  · exact ⟨_, [_], rfl, rfl⟩

/-- With the same components for a file, its elements have the same outcome and add the same
components, whatever was made for other files. -/
theorem synthesizeFile_congr {cs cs' : Collection} (same : cs.forFile file = cs'.forFile file)
    (es : List Element) : ∃ outcome new,
      s.synthesizeFile file es cs = (outcome, cs ++ new) ∧
      s.synthesizeFile file es cs' = (outcome, cs' ++ new) := by
  -- Generalised over what the elements so far have given.
  suffices all : ∀ (start : FileSynthesis) (cs cs' : Collection),
      cs.forFile file = cs'.forFile file → ∃ outcome new,
        es.foldl (s.step file) (start, cs) = (outcome, cs ++ new) ∧
        es.foldl (s.step file) (start, cs') = (outcome, cs' ++ new) from
    all ⟨[], 0, []⟩ cs cs' same
  induction es with
  | nil =>
      intro start cs cs' same
      exact ⟨start, [], by rw [List.append_nil]; rfl, by rw [List.append_nil]; rfl⟩
  | cons e es ih =>
      intro start cs cs' same
      obtain ⟨between, new, first, first'⟩ := step_congr (s := s) same start e
      have still : Collection.forFile (cs ++ new) file = Collection.forFile (cs' ++ new) file := by
        rw [Collection.forFile_append, Collection.forFile_append, same]
      obtain ⟨outcome, more, later, later'⟩ := ih between (cs ++ new) (cs' ++ new) still
      refine ⟨outcome, new ++ more, ?_, ?_⟩
      · rw [List.foldl_cons, first, later, List.append_assoc]
      · rw [List.foldl_cons, first', later', List.append_assoc]

/-- A file that no component was made for yet is taken as if it came first. -/
theorem synthesizeFile_append {cs : Collection} (others : cs.forFile file = [])
    (es : List Element) :
    s.synthesizeFile file es cs
      = ((s.synthesizeFile file es []).1, cs ++ (s.synthesizeFile file es []).2) := by
  have none : cs.forFile file = Collection.forFile [] file := others
  obtain ⟨outcome, new, here, first⟩ := synthesizeFile_congr (s := s) none es
  rw [here, first, List.nil_append]

theorem forFile_synthesizeFile_of_other {g : Path} (other : file.same g = false)
    (es : List Element) : Collection.forFile (s.synthesizeFile file es []).2 g = [] :=
  synthesizeFile_forFile_of_other other es []

end Component

namespace Rewrite

variable {attr : String} {file : Path} {cs cs' : Collection}

theorem editsFor_congr (same : cs.forFile file = cs'.forFile file) (es : List Element) :
    editsFor attr file cs es = editsFor attr file cs' es := by
  induction es with
  | nil => rfl
  | cons e es ih =>
      rw [editsFor, editsFor, Collection.find?_eq, Collection.find?_eq, same, ih]

theorem run_congr (same : cs.forFile file = cs'.forFile file) (source : String) (l : Language) :
    run attr file source l cs = run attr file source l cs' := by
  unfold run
  simp only [same, editsFor_congr same]

end Rewrite

end Restyle
