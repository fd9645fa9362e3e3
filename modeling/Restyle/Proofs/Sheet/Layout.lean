import Restyle.Proofs.Sheet.Masked
import Restyle.Proofs.Syntax.Recovered
/-!
The tree of a mask over the text. A mask shows no backslash and writes underscores for nothing but
characters of one byte, so an offset lies between two characters of it exactly where it does in the
text. All nodes of a tree lie between characters, whatever faults it has, and so do the parts before
and behind their children: what the loader takes from the text is always there.
-/

namespace Restyle.Sheet

open Syntax (Node)
open Text (byteLength isBoundary slice?)

theorem isBoundary_mask (n : Nat) (cs : List Char) : isBoundary n (mask cs) = isBoundary n cs :=
  Bool.eq_iff_iff.mpr ⟨(mask_layout cs).isBoundary, (mask_layout cs).symm.isBoundary⟩

theorem toNat_lt_of_utf8Size {c : Char} (one : c.utf8Size = 1) : c.toNat < 128 := by
  rw [Char.utf8Size_eq_one_iff, UInt32.le_iff_toNat_le] at one
  exact Nat.lt_succ_of_le one

theorem maskEscaped_ne (c : Char) : maskEscaped c ≠ '\\' := by
  unfold maskEscaped
  split
  · decide
  · rename_i shown
    rintro rfl
    exact shown (by decide)

theorem no_backslash_mask (cs : List Char) : '\\' ∉ mask cs := by
  fun_induction mask cs with
  | case1 => exact List.not_mem_nil
  | case2 => decide
  | case3 e cs ih =>
      exact List.not_mem_cons_of_ne_of_not_mem (by decide)
        (List.not_mem_cons_of_ne_of_not_mem (maskEscaped_ne e).symm ih)
  | case4 b cs value ih =>
      exact List.not_mem_cons_of_ne_of_not_mem (by decide)
        (List.not_mem_cons_of_ne_of_not_mem (by decide) ih)
  | case5 b cs value ih => exact List.not_mem_cons_of_ne_of_not_mem (by decide) ih
  | case6 c cs lone escapes value ih =>
      refine List.not_mem_cons_of_ne_of_not_mem ?_ ih
      rintro rfl
      cases cs with
      | nil => exact lone rfl rfl
      | cons e cs => exact escapes e cs rfl rfl

theorem slice_of_mask {s : Span} {cs hidden : List Char} (h : slice? s (mask cs) = some hidden) :
    ∃ text, slice? s cs = some text ∧ List.Forall₂ Masks hidden text := by
  obtain ⟨before, after, parts, start, stop⟩ := Text.slice?_eq_some_iff.mp h
  have whole := mask_masks cs
  rw [parts] at whole
  obtain ⟨first, _, rfl, same, rest⟩ := exists_append_of_forall₂ whole
  obtain ⟨text, last, rfl, shown, -⟩ := exists_append_of_forall₂ rest
  rw [(layout_of_masks same).byteLength_eq] at start stop
  rw [(layout_of_masks shown).byteLength_eq] at stop
  exact ⟨text, Text.slice?_eq_some_iff.mpr ⟨first, last, rfl, start, stop⟩, shown⟩

/-- The offsets at which the nodes of a tree begin and end. -/
def offsets (tree : Node) : List Nat :=
  tree.preorder.flatMap fun n => [n.span.start, n.span.stop]

theorem parse_mask_placed {cs : List Char} {n : Node} (member : n ∈ (parse (mask cs)).preorder) :
    n.Everywhere (Node.Placed cs) :=
  ((Syntax.parse_placed grammar (mask cs)).of_mem_preorder member).imp fun _ placed =>
    ⟨placed.ordered, isBoundary_of_mask placed.start, isBoundary_of_mask placed.stop,
      placed.apart, placed.within⟩

theorem isBoundary_of_mem_offsets {cs : List Char} {a : Nat}
    (member : a ∈ offsets (parse (mask cs))) : isBoundary a cs = true := by
  obtain ⟨n, inside, end_⟩ := List.mem_flatMap.mp member
  have placed := (parse_mask_placed inside).here
  rcases List.mem_cons.mp end_ with rfl | other
  · exact placed.start
  · rw [List.mem_singleton.mp other]
    exact placed.stop

/-- A mask has the byte length and the character boundaries of its text, differs from it in nothing
but ASCII characters that it writes as underscores, and shows no backslash. Whatever can be cut from
the mask can be cut from the text. So any two offsets of nodes in the tree of the mask, in their
order, cut a slice from the text, as do the ends of a node and those of what stands before or behind
a child in it, which are the slices that the loader takes. -/
theorem mask_keeps_layout (cs : List Char) :
    byteLength (mask cs) = byteLength cs ∧
    (∀ n, isBoundary n (mask cs) = isBoundary n cs) ∧
    List.Forall₂ (fun m c => m = c ∨ m = '_' ∧ c.toNat < 128) (mask cs) cs ∧
    '\\' ∉ mask cs ∧
    (∀ s hidden, slice? s (mask cs) = some hidden →
      ∃ text, slice? s cs = some text ∧ List.Forall₂ Masks hidden text) ∧
    (∀ a ∈ offsets (parse (mask cs)), ∀ b ∈ offsets (parse (mask cs)), a ≤ b →
      ∃ text, slice? ⟨a, b⟩ cs = some text) ∧
    ∀ n ∈ (parse (mask cs)).preorder,
      (∃ text, slice? n.span cs = some text) ∧
      ∀ c ∈ n.children,
        (∃ text, slice? ⟨n.span.start, c.span.start⟩ cs = some text) ∧
        ∃ text, slice? ⟨c.span.stop, n.span.stop⟩ cs = some text := by
  have ascii : List.Forall₂ (fun m c => m = c ∨ m = '_' ∧ c.toNat < 128) (mask cs) cs :=
    (mask_masks cs).imp fun m c => Or.imp_right (And.imp_right toNat_lt_of_utf8Size)
  refine ⟨byteLength_mask cs, fun n => isBoundary_mask n cs, ascii, no_backslash_mask cs,
    fun s hidden => slice_of_mask, ?_, ?_⟩
  · intro a first b second ordered
    exact Span.Stands.exists_slice
      ⟨ordered, isBoundary_of_mem_offsets first, isBoundary_of_mem_offsets second⟩
  · intro n member
    obtain ⟨placed, below⟩ := parse_mask_placed member
    refine ⟨Span.Stands.exists_slice ⟨placed.ordered, placed.start, placed.stop⟩, ?_⟩
    intro c child
    have inside := (below c child).here
    obtain ⟨before, behind⟩ := placed.within c child
    exact ⟨Span.Stands.exists_slice ⟨before, placed.start, inside.start⟩,
      Span.Stands.exists_slice ⟨behind, inside.stop, placed.stop⟩⟩

/-- A sheet with an escape behind a character of two bytes and a value of blanks. -/
def escapedSheet : List Char := ".é\\:a\x7b--x:  ;\x7d".toList

theorem mask_keeps_layout_escaped :
    mask escapedSheet = ".é__a\x7b--x:_ ;\x7d".toList ∧
    slice? ⟨3, 5⟩ (mask escapedSheet) = some ['_', '_'] ∧
    (∃ text, slice? ⟨3, 5⟩ escapedSheet = some text ∧ List.Forall₂ Masks ['_', '_'] text) ∧
    1 ∈ offsets (parse (mask escapedSheet)) ∧ 6 ∈ offsets (parse (mask escapedSheet)) ∧
    (∃ text, slice? ⟨1, 6⟩ escapedSheet = some text) ∧
    ∃ c ∈ (parse (mask escapedSheet)).children, c.is "rule_set" = true ∧
      ∃ text, slice? ⟨(parse (mask escapedSheet)).span.start, c.span.start⟩ escapedSheet
        = some text := by
  obtain ⟨-, -, -, -, slices, between, nodes⟩ := mask_keeps_layout escapedSheet
  have cut : slice? ⟨3, 5⟩ (mask escapedSheet) = some ['_', '_'] := by decide
  have begins : 1 ∈ offsets (parse (mask escapedSheet)) := by decide +kernel
  have ends : 6 ∈ offsets (parse (mask escapedSheet)) := by decide +kernel
  have rules : (parse (mask escapedSheet)).children.any (·.is "rule_set") = true := by
    decide +kernel
  obtain ⟨c, child, rule⟩ := List.any_eq_true.mp rules
  have inside := (nodes _ (Node.self_mem_preorder _)).2 c child
  exact ⟨by decide, cut, slices _ _ cut, begins, ends, between 1 begins 6 ends (by decide),
    c, child, rule, inside.1⟩

end Restyle.Sheet
