import Restyle.Text.Case
/-!
Characters in upper case. None of them begins with a small letter of the alphabet.
-/

namespace Restyle.Text

theorem isLower_iff {c : Char} : c.isLower = true ↔ 97 ≤ c.toNat ∧ c.toNat ≤ 122 := by
  change (decide ('a'.val ≤ c.val) && decide (c.val ≤ 'z'.val)) = true ↔ _
  rw [Bool.and_eq_true, decide_eq_true_iff, decide_eq_true_iff, UInt32.le_iff_toNat_le,
    UInt32.le_iff_toNat_le]
  rfl

theorem toNat_ofNat {n : Nat} (valid : n.isValidChar) : (Char.ofNat n).toNat = n := by
  have same : Char.ofNat n = Char.ofNatAux n valid := dif_pos valid
  exact congrArg Char.toNat same

theorem isLower_ofNat {n : Nat} (h : n < 97 ∨ 122 < n) : (Char.ofNat n).isLower = false := by
  rw [Bool.eq_false_iff, ne_eq, isLower_iff]
  by_cases valid : n.isValidChar
  · rw [toNat_ofNat valid]
    omega
  · have zero : Char.ofNat n = '\x00' := dif_neg valid
    rw [zero]
    decide

theorem isLower_toUpper_of_ascii : ∀ n < 128, (Char.ofNat n).toUpper.isLower = false := by
  decide

theorem upperRuns_capital : ∀ r ∈ upperRuns,
    (r.last : Int) + r.shift < 97 ∨ 122 < (r.first : Int) + r.shift := by
  decide +kernel

theorem upperExpansions_capital : ∀ p ∈ upperExpansions,
    ∃ n ∈ p.2.head?, n < 97 ∨ 122 < n := by
  decide +kernel

theorem mapByRuns_capital {n : Nat} (high : 128 ≤ n) :
    mapByRuns upperRuns n < 97 ∨ 122 < mapByRuns upperRuns n := by
  unfold mapByRuns
  split
  · rename_i r found
    have within := List.find?_some found
    simp only [Bool.and_eq_true, decide_eq_true_eq] at within
    have apart := upperRuns_capital r (List.mem_of_find?_eq_some found)
    omega
  · omega

theorem mem_upperExpansions {n : Nat} {ns : List Nat} (h : upperExpansions.lookup n = some ns) :
    (n, ns) ∈ upperExpansions := by
  obtain ⟨before, after, split, -⟩ := List.lookup_eq_some_iff.mp h
  rw [split]
  exact List.mem_append_right before List.mem_cons_self

/-- In upper case no character begins with a small letter of the alphabet. -/
theorem upperChar_eq (c : Char) : ∃ d ds, upperChar c = d :: ds ∧ d.isLower = false := by
  unfold upperChar
  split
  · rename_i ascii
    refine ⟨c.toUpper, [], rfl, ?_⟩
    have upper := isLower_toUpper_of_ascii c.toNat ascii
    rwa [Char.ofNat_toNat] at upper
  · rename_i high
    unfold mapCase
    split
    · rename_i ns found
      obtain ⟨n, first, capital⟩ := upperExpansions_capital _ (mem_upperExpansions found)
      obtain ⟨more, rfl⟩ : ∃ more, ns = n :: more := List.head?_eq_some_iff.mp first
      exact ⟨Char.ofNat n, more.map Char.ofNat, rfl, isLower_ofNat capital⟩
    · exact ⟨_, [], rfl, isLower_ofNat (mapByRuns_capital (by omega))⟩

end Restyle.Text
