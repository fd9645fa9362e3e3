import Restyle.Proofs.Sheet.Registered
import Restyle.Proofs.Sheet.Sequence
/-!
Comments between rule sets. A comment leaves no trace in the table of a sheet as long as the mask
leaves its end: the mask knows no comments, and where one ends in a backslash it takes the star of
the end for an escaped one, so that the comment goes on to the end of the next.
-/

namespace Restyle.Sheet

open Syntax
open Text (byteLength byteLength_append byteLength_cons)

theorem settled_escape (name rest : List Char) :
    settled (name.flatMap ClassName.escape ++ rest) = settled rest := by
  induction name with
  | nil => rfl
  | cons c cs ih =>
      rw [List.flatMap_cons, List.append_assoc, ClassName.escape]
      cases ident : isIdentChar c with
      | true =>
          rw [if_pos rfl, List.singleton_append, settled_cons (isIdentChar_ne ident (by decide)),
            ih]
      | false =>
          rw [if_neg Bool.false_ne_true]
          exact ih

/-- The sheet of a name in Latin-1 that begins as a word is a rule set, whatever follows. -/
theorem isRuleSet_sheetOf {name : String} (visible : Visible name.toList)
    (latin : IsLatin name.toList) (word : beginsWord name.toList = true) :
    ∃ n, IsRuleSet (sheetOf name).toList n := by
  have id := isIdentifier_shade latin word
  have gap : IsGap [' '] := .inl rfl
  have text : (sheetOf name).toList =
      '.' :: (name.toList.flatMap ClassName.escape ++ ([' '] ++ colorBlock)) := by
    rw [sheetOf_eq (congrArg (· ++ [' ']) (serialize_word visible word)), String.toList_ofList]
    rfl
  have masked : mask (sheetOf name).toList =
      '.' :: name.toList.flatMap shade ++ ([' '] ++ colorBlock) := by
    have dot : ∀ cs, mask ('.' :: cs) = '.' :: mask cs := fun _ => rfl
    rw [text, dot, mask_escape, mask_gap gap]
    rfl
  have bytes : byteLength ('.' :: name.toList.flatMap shade) + byteLength [' '] + 15 =
      byteLength (sheetOf name).toList := by
    rw [← byteLength_mask (sheetOf name).toList, masked, byteLength_append, byteLength_append,
      Nat.add_assoc]
    rfl
  refine ⟨ruleSetOf (classAt 0 (name.toList.flatMap shade))
    (byteLength ('.' :: name.toList.flatMap shade) + byteLength [' ']), rfl, rfl, ?_, ?_⟩
  · refine ⟨'.' :: (name.toList.flatMap ClassName.escape ++ " \x7b color: red; ".toList), ?_, ?_⟩
    · have parts : [' '] ++ colorBlock = " \x7b color: red; ".toList ++ ['\x7d'] := rfl
      rw [text, parts, List.cons_append, List.append_assoc]
    · rw [settled_cons (by decide), settled_escape]
      decide
  · intro rest size long
    rw [masked, List.append_assoc, List.append_assoc] at long ⊢
    have taken := answers_ruleSet gap rfl long (answers_classSelector id gap long)
    rw [bytes] at taken
    exact taken.mono (by omega)

theorem isSequence_sheetOf {name : String} (visible : Visible name.toList)
    (latin : IsLatin name.toList) (word : beginsWord name.toList = true) :
    IsSequence (sheetOf name).toList := by
  obtain ⟨n, own⟩ := isRuleSet_sheetOf visible latin word
  exact ⟨[.ruleSet _ n own], (List.append_nil _).symm⟩

/-- A comment between two sheets leaves no trace in the table, as long as it leaves no backslash to
escape its end. -/
theorem StyleTable.ofCss_comment {a b c : String} (first : IsSequence a.toList)
    (second : IsSequence b.toList) (no_end : ¬ ['*', '/'] <:+: c.toList)
    (ends : settled c.toList = true) :
    StyleTable.ofCss (a ++ "/*" ++ c ++ "*/" ++ b) = StyleTable.ofCss (a ++ b) := by
  obtain ⟨ps, text⟩ := first
  obtain ⟨qs, text'⟩ := second
  have whole : (a ++ "/*" ++ c ++ "*/" ++ b).toList =
      textOf (ps ++ .comment c.toList no_end ends :: qs) := by
    simp [textOf, Segment.text, commentOf, text, text']
  have joined : (a ++ b).toList = textOf (ps ++ qs) := by
    simp [textOf, text, text']
  rw [ofCss_sequence whole, ofCss_sequence joined, List.foldl_append, List.foldl_append]
  rfl

theorem StyleTable.ofCss_comment_escapes :
    (IsSequence (sheetOf "md:p-1.5").toList ∧ IsSequence (sheetOf "b").toList ∧
      ¬ ['*', '/'] <:+: " .md\\:p-1.5: ; \\\\".toList ∧
      settled " .md\\:p-1.5: ; \\\\".toList = true) ∧
    StyleTable.ofCss (sheetOf "md:p-1.5" ++ "/*" ++ " .md\\:p-1.5: ; \\\\" ++ "*/" ++
        sheetOf "b") = StyleTable.ofCss (sheetOf "md:p-1.5" ++ sheetOf "b") := by
  have first : IsSequence (sheetOf "md:p-1.5").toList :=
    isSequence_sheetOf (by decide) (by decide) (by decide)
  have second : IsSequence (sheetOf "b").toList :=
    isSequence_sheetOf (by decide) (by decide) (by decide)
  have no_end : ¬ ['*', '/'] <:+: " .md\\:p-1.5: ; \\\\".toList :=
    commentTail_eq_none.mp (by decide)
  exact ⟨⟨first, second, no_end, by decide⟩, ofCss_comment first second no_end (by decide)⟩

/-- The mask takes the end of a comment for an escape where the comment ends in a backslash: the
first of the two rule sets is lost without a fault, up to the end of the comment behind it. -/
theorem StyleTable.ofCss_comment_backslash :
    IsSequence "".toList ∧ IsSequence (sheetOf "a" ++ "/**/" ++ sheetOf "b").toList ∧
    ¬ ['*', '/'] <:+: "\\".toList ∧
    StyleTable.ofCss ("" ++ (sheetOf "a" ++ "/**/" ++ sheetOf "b")) =
      ⟨[("a", [⟨.free, [("color", "red")]⟩]), ("b", [⟨.free, [("color", "red")]⟩])], 0⟩ ∧
    StyleTable.ofCss ("" ++ "/*" ++ "\\" ++ "*/" ++ (sheetOf "a" ++ "/**/" ++ sheetOf "b")) =
      ⟨[("b", [⟨.free, [("color", "red")]⟩])], 0⟩ := by
  obtain ⟨n, a⟩ : ∃ n, IsRuleSet (sheetOf "a").toList n :=
    isRuleSet_sheetOf (by decide) (by decide) (by decide)
  obtain ⟨m, b⟩ : ∃ n, IsRuleSet (sheetOf "b").toList n :=
    isRuleSet_sheetOf (by decide) (by decide) (by decide)
  have none_ : ¬ ['*', '/'] <:+: ([] : List Char) := commentTail_eq_none.mp rfl
  refine ⟨⟨[], rfl⟩, ⟨[.ruleSet _ n a, .comment [] none_ rfl, .ruleSet _ m b], ?_⟩,
    commentTail_eq_none.mp (by decide), ?_, ?_⟩
  · simp [textOf, Segment.text, commentOf]
  · decide +kernel
  · decide +kernel

end Restyle.Sheet
