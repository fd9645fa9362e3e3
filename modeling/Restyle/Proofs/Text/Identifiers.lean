import Restyle.Proofs.Text.Capitals
import Restyle.Proofs.Text.IdentifierTable
/-!
Identifiers of scripts, and what becomes of their characters in upper case. A character that may
stand in an identifier becomes characters that may, and one that may not becomes one that may not.
The same holds of the beginning of an identifier, apart from the iota that is written below a vowel:
it begins none, but its capital is a letter.
-/

namespace Restyle.Text

def beginsIdentifier (c : Char) : Bool :=
  inRanges identifierStartRanges c.toNat || c == '_' || c == '$'

def continuesIdentifier (c : Char) : Bool :=
  beginsIdentifier c || inRanges identifierExtenderRanges c.toNat

def isIdentifier : List Char → Bool
  | [] => false
  | c :: cs => beginsIdentifier c && cs.all continuesIdentifier

theorem begins_underscore : beginsIdentifier '_' = true := by
  rw [beginsIdentifier, beq_self_eq_true, Bool.or_true, Bool.true_or]

theorem begins_dollar : beginsIdentifier '$' = true := by
  rw [beginsIdentifier, beq_self_eq_true, Bool.or_true]

theorem continues_of_begins {c : Char} (h : beginsIdentifier c = true) :
    continuesIdentifier c = true := by
  rw [continuesIdentifier, h, Bool.true_or]

theorem all_continues_of_isIdentifier {cs : List Char} (h : isIdentifier cs = true) :
    cs.all continuesIdentifier = true := by
  cases cs with
  | nil => rfl
  | cons c cs =>
      obtain ⟨begins, rest⟩ := Bool.and_eq_true_iff.mp h
      rw [List.all_cons, continues_of_begins begins, rest, Bool.and_self]

/-- Whether the first range that ends no earlier than some code points holds them all. The
comparisons are those that are fast to compute. -/
def spans (ranges : List (Nat × Nat)) (first last : Nat) : Bool :=
  (ranges.find? fun r => Nat.ble last r.2).any fun r => Nat.ble r.1 first

theorem inRanges_of_spans {ranges : List (Nat × Nat)} {first last n : Nat}
    (h : spans ranges first last = true) (lower : first ≤ n) (upper : n ≤ last) :
    inRanges ranges n = true := by
  unfold spans at h
  cases found : ranges.find? fun r => Nat.ble last r.2 with
  | none =>
      rw [found] at h
      cases h
  | some r =>
      rw [found] at h
      have first_le := Nat.le_of_ble_eq_true h
      have ends := List.find?_some (p := fun r : Nat × Nat => Nat.ble last r.2) found
      have le_last := Nat.le_of_ble_eq_true ends
      apply List.any_eq_true.mpr
      refine ⟨r, List.mem_of_find?_eq_some found, ?_⟩
      simp only [Bool.and_eq_true, decide_eq_true_eq]
      omega

theorem inRanges_eq_false {ranges : List (Nat × Nat)} {first last n : Nat}
    (apart : ∀ r ∈ ranges, r.2 < first ∨ last < r.1) (lower : first ≤ n) (upper : n ≤ last) :
    inRanges ranges n = false := by
  apply List.any_eq_false.mpr
  intro r member
  have := apart r member
  simp only [Bool.and_eq_true, decide_eq_true_eq]
  omega

/-- The tables leave the digits out of the first characters of identifiers, and the letters in circles
out of them altogether. -/
theorem identifierRanges_leave_out :
    casedStartRanges.Sublist identifierStartRanges ∧
    (∀ r ∈ identifierStartRanges, 57 < r.1 ∧ (r.2 < 9398 ∨ 9449 < r.1)) ∧
    ∀ r ∈ identifierExtenderRanges, r.2 < 9398 ∨ 9449 < r.1 := by
  decide +kernel

theorem casedStartRanges_valid :
    ∀ r ∈ casedStartRanges, r.2 < 0xD800 ∨ 0xDFFF < r.1 ∧ r.2 < 0x110000 := by
  decide

theorem begins_of_cased {c : Char} (h : inRanges casedStartRanges c.toNat = true) :
    beginsIdentifier c = true := by
  obtain ⟨r, member, within⟩ := List.any_eq_true.mp h
  have starts : inRanges identifierStartRanges c.toNat = true :=
    List.any_eq_true.mpr ⟨r, identifierRanges_leave_out.1.subset member, within⟩
  rw [beginsIdentifier, starts, Bool.true_or, Bool.true_or]

theorem begins_ofNat {n : Nat} (h : inRanges casedStartRanges n = true) :
    beginsIdentifier (Char.ofNat n) = true := by
  obtain ⟨r, member, within⟩ := List.any_eq_true.mp h
  simp only [Bool.and_eq_true, decide_eq_true_eq] at within
  have valid : n.isValidChar := by
    have range := casedStartRanges_valid r member
    simp only [Nat.isValidChar]
    omega
  apply begins_of_cased
  rw [toNat_ofNat valid, h]

theorem continues_ofNat {n : Nat} (lower : 768 ≤ n) (upper : n ≤ 879) :
    continuesIdentifier (Char.ofNat n) = true := by
  have mark : spans identifierExtenderRanges 768 879 = true := by decide
  rw [continuesIdentifier, toNat_ofNat (.inl (by omega)), inRanges_of_spans mark lower upper,
    Bool.or_true]

theorem begins_of_isAlpha {c : Char} (h : c.isAlpha = true) : beginsIdentifier c = true := by
  have capital : spans casedStartRanges 65 90 = true := by decide
  have small : spans casedStartRanges 97 122 = true := by decide
  have either : (c.isUpper || c.isLower) = true := h
  rcases Bool.or_eq_true_iff.mp either with up | low
  · obtain ⟨lower, upper⟩ : 'A'.val ≤ c.val ∧ c.val ≤ 'Z'.val := of_decide_eq_true up
    rw [UInt32.le_iff_toNat_le] at lower upper
    exact begins_of_cased (inRanges_of_spans capital lower upper)
  · obtain ⟨lower, upper⟩ := isLower_iff.mp low
    exact begins_of_cased (inRanges_of_spans small lower upper)

theorem begins_eq_false {c : Char} {first last : Nat}
    (apart : ∀ r ∈ identifierStartRanges, r.2 < first ∨ last < r.1) (lower : first ≤ c.toNat)
    (upper : c.toNat ≤ last) (other : c ≠ '_' ∧ c ≠ '$') : beginsIdentifier c = false := by
  rw [beginsIdentifier, inRanges_eq_false apart lower upper, beq_false_of_ne other.1,
    beq_false_of_ne other.2]
  rfl

theorem begins_digit {c : Char} (digit : c.isDigit = true) :
    beginsIdentifier c = false ∧ continuesIdentifier c = true := by
  obtain ⟨lower, upper⟩ : 48 ≤ c.toNat ∧ c.toNat ≤ 57 := by
    simp only [Char.isDigit, Bool.and_eq_true, decide_eq_true_eq, UInt32.le_iff_toNat_le] at digit
    exact digit
  have other : c ≠ '_' ∧ c ≠ '$' := by
    refine ⟨?_, ?_⟩ <;> rintro rfl <;> cases digit
  have no_start : beginsIdentifier c = false :=
    begins_eq_false (fun r member => .inr (identifierRanges_leave_out.2.1 r member).1) lower upper
      other
  have extender : spans identifierExtenderRanges 48 57 = true := by decide
  refine ⟨no_start, ?_⟩
  rw [continuesIdentifier, no_start, inRanges_of_spans extender lower upper, Bool.or_true]

theorem isDigit_of_begins {c : Char} (h : beginsIdentifier c = true) : c.isDigit = false := by
  rw [Bool.eq_false_iff]
  intro digit
  rw [(begins_digit digit).1] at h
  cases h

theorem isDigit_of_not_continues {c : Char} (h : continuesIdentifier c = false) :
    c.isDigit = false := by
  rw [Bool.eq_false_iff]
  intro digit
  rw [(begins_digit digit).2] at h
  cases h

theorem begins_of_not_continues {c : Char} (h : continuesIdentifier c = false) :
    beginsIdentifier c = false :=
  (Bool.or_eq_false_iff.mp h).1

/-- The small letters in circles and the capital ones in front of them are in no identifier. -/
theorem continues_circled {c : Char} (lower : 9398 ≤ c.toNat) (upper : c.toNat ≤ 9449) :
    continuesIdentifier c = false := by
  obtain ⟨-, start, extender⟩ := identifierRanges_leave_out
  have other : c ≠ '_' ∧ c ≠ '$' := by
    refine ⟨?_, ?_⟩ <;> rintro rfl <;> exact absurd lower (by decide)
  have no_start := begins_eq_false (fun r member => (start r member).2) lower upper other
  rw [continuesIdentifier, no_start, inRanges_eq_false extender lower upper]
  rfl

def iotaBelow : Char := '\u0345'

theorem continues_iotaBelow : continuesIdentifier iotaBelow = true :=
  continues_ofNat (n := 837) (by decide) (by decide)

/-- The runs of the mapping lead from letters to letters, apart from the iota below and the letters in
circles. In one run the letters it leads to lie between others. An expansion is of a letter and
begins with one; what follows are letters and marks. -/
theorem upper_letters :
    (∀ r ∈ upperRuns,
      (spans casedStartRanges r.first r.last = true ∧
        spans casedStartRanges ((r.first : Int) + r.shift).toNat
          ((r.last : Int) + r.shift).toNat = true) ∨
      (r.first = 837 ∧ r.last = 837 ∧ r.shift = 84) ∨
      (r.first = 9424 ∧ r.last = 9449 ∧ r.shift = -26) ∨
      (r.first = 8017 ∧ r.last = 8023 ∧ r.stride = 2 ∧ r.shift = 8)) ∧
    ∀ p ∈ upperExpansions,
      spans casedStartRanges p.1 p.1 = true ∧
      (∃ n ∈ p.2.head?, spans casedStartRanges n n = true) ∧
      ∀ n ∈ p.2.tail, (768 ≤ n ∧ n ≤ 879) ∨ spans casedStartRanges n n = true := by
  decide +kernel

theorem mapByRuns_letters (n : Nat) :
    mapByRuns upperRuns n = n ∨
    (inRanges casedStartRanges n = true ∧
      inRanges casedStartRanges (mapByRuns upperRuns n) = true) ∨
    (n = 837 ∧ mapByRuns upperRuns n = 921) ∨
    (9424 ≤ n ∧ n ≤ 9449 ∧ mapByRuns upperRuns n = n - 26) := by
  unfold mapByRuns
  split
  · rename_i r found
    have within := List.find?_some found
    simp only [Bool.and_eq_true, decide_eq_true_eq, beq_iff_eq] at within
    obtain ⟨⟨lower, upper⟩, step⟩ := within
    rcases upper_letters.1 r (List.mem_of_find?_eq_some found) with
      ⟨source, target⟩ | ⟨first, last, shift⟩ | ⟨first, last, shift⟩ | ⟨first, last, stride, shift⟩
    · refine .inr (.inl ⟨inRanges_of_spans source lower upper, ?_⟩)
      exact inRanges_of_spans target (by omega) (by omega)
    · exact .inr (.inr (.inl ⟨by omega, by omega⟩))
    · exact .inr (.inr (.inr ⟨by omega, by omega, by omega⟩))
    · rw [first] at lower step
      rw [last] at upper
      rw [stride] at step
      have one : n ∈ [8017, 8019, 8021, 8023] := by
        simp only [List.mem_cons, List.not_mem_nil, or_false]
        omega
      have letters : ∀ m ∈ [8017, 8019, 8021, 8023],
          inRanges casedStartRanges m = true ∧ inRanges casedStartRanges (m + 8) = true := by
        decide
      have target : ((n : Int) + r.shift).toNat = n + 8 := by omega
      rw [target]
      exact .inr (.inl (letters n one))
  · exact .inl rfl

/-- What a character becomes in upper case: itself, a letter with what else may stand in an
identifier, or another character that may stand in none. -/
inductive Capital (c : Char) : List Char → Prop
  | same (other : c ≠ iotaBelow) : Capital c [c]
  | letter {d : Char} {ds : List Char} (source : beginsIdentifier c = true ∨ c = iotaBelow)
      (target : isIdentifier (d :: ds) = true) : Capital c (d :: ds)
  | symbol {d : Char} (source : continuesIdentifier c = false)
      (target : continuesIdentifier d = false) : Capital c [d]

theorem capital_of_ascii : ∀ n < 128,
    (Char.ofNat n).toUpper = Char.ofNat n ∨
      (beginsIdentifier (Char.ofNat n) = true ∧
        beginsIdentifier (Char.ofNat n).toUpper = true) := by
  decide

theorem capital_toUpper {c : Char} (ascii : c.toNat < 128) : Capital c [c.toUpper] := by
  have either := capital_of_ascii c.toNat ascii
  rw [Char.ofNat_toNat] at either
  rcases either with same | ⟨own, upper⟩
  · rw [same]
    refine .same ?_
    rintro rfl
    revert ascii
    decide
  · exact .letter (.inl own) (by rw [isIdentifier, upper, List.all_nil, Bool.and_self])

theorem capital_expansion {c : Char} {ns : List Nat}
    (found : upperExpansions.lookup c.toNat = some ns) : Capital c (ns.map Char.ofNat) := by
  obtain ⟨source, ⟨n, front, start⟩, others⟩ := upper_letters.2 _ (mem_upperExpansions found)
  have letter {n : Nat} (h : spans casedStartRanges n n = true) :
      inRanges casedStartRanges n = true :=
    inRanges_of_spans h (Nat.le_refl n) (Nat.le_refl n)
  obtain ⟨more, rfl⟩ : ∃ more, ns = n :: more := List.head?_eq_some_iff.mp front
  refine .letter (.inl (begins_of_cased (letter source))) ?_
  rw [isIdentifier, begins_ofNat (letter start), Bool.true_and, List.all_map, List.all_eq_true]
  intro m member
  rcases others m member with ⟨lower, upper⟩ | start
  · exact continues_ofNat lower upper
  · exact continues_of_begins (begins_ofNat (letter start))

theorem capital_mapByRuns (c : Char) : Capital c [Char.ofNat (mapByRuns upperRuns c.toNat)] := by
  rcases mapByRuns_letters c.toNat with same | ⟨source, target⟩ | ⟨below, target⟩ |
    ⟨lower, upper, target⟩
  · rw [same, Char.ofNat_toNat]
    refine .same ?_
    rintro rfl
    exact absurd same (by decide)
  · refine .letter (.inl (begins_of_cased source)) ?_
    rw [isIdentifier, begins_ofNat target, List.all_nil, Bool.and_self]
  · have iota : c = iotaBelow := by
      rw [← Char.ofNat_toNat c, below]
      rfl
    rw [target]
    refine .letter (.inr iota) ?_
    rw [isIdentifier, begins_ofNat (by decide), List.all_nil, Bool.and_self]
  · have number : (Char.ofNat (c.toNat - 26)).toNat = c.toNat - 26 :=
      toNat_ofNat (.inl (by omega))
    rw [target]
    refine .symbol (continues_circled (by omega) upper) (continues_circled ?_ ?_)
    · rw [number]
      omega
    · rw [number]
      omega

theorem capital_upperChar (c : Char) : Capital c (upperChar c) := by
  unfold upperChar
  split
  · rename_i ascii
    exact capital_toUpper ascii
  · unfold mapCase
    split
    · rename_i found
      exact capital_expansion found
    · exact capital_mapByRuns c

theorem all_continues_upperChar (c : Char) :
    (upperChar c).all continuesIdentifier = continuesIdentifier c := by
  have capital := capital_upperChar c
  generalize upperChar c = cs at capital ⊢
  cases capital with
  | same other => rw [List.all_cons, List.all_nil, Bool.and_true]
  | letter source target =>
      have own : continuesIdentifier c = true := by
        rcases source with begins | rfl
        · exact continues_of_begins begins
        · exact continues_iotaBelow
      rw [all_continues_of_isIdentifier target, own]
  | symbol source target => rw [List.all_cons, List.all_nil, Bool.and_true, source, target]

theorem begins_upperChar (c : Char) :
    (upperChar c).head?.any beginsIdentifier = (beginsIdentifier c || c == iotaBelow) := by
  have capital := capital_upperChar c
  generalize upperChar c = cs at capital ⊢
  cases capital with
  | same other =>
      rw [List.head?_cons, Option.any_some, beq_false_of_ne other, Bool.or_false]
  | letter source target =>
      have first := (Bool.and_eq_true_iff.mp target).1
      rw [List.head?_cons, Option.any_some, first]
      rcases source with begins | rfl
      · rw [begins, Bool.true_or]
      · rw [beq_self_eq_true, Bool.or_true]
  | symbol source target =>
      have other : c ≠ iotaBelow := by
        rintro rfl
        rw [continues_iotaBelow] at source
        cases source
      rw [List.head?_cons, Option.any_some, begins_of_not_continues source,
        begins_of_not_continues target, beq_false_of_ne other, Bool.or_self]

theorem isDigit_upperChar (c : Char) : (upperChar c).head?.any Char.isDigit = c.isDigit := by
  have capital := capital_upperChar c
  generalize upperChar c = cs at capital ⊢
  cases capital with
  | same other => rfl
  | letter source target =>
      have first := isDigit_of_begins (Bool.and_eq_true_iff.mp target).1
      rw [List.head?_cons, Option.any_some, first]
      rcases source with begins | rfl
      · exact (isDigit_of_begins begins).symm
      · rfl
  | symbol source target =>
      rw [List.head?_cons, Option.any_some, isDigit_of_not_continues source,
        isDigit_of_not_continues target]

end Restyle.Text
