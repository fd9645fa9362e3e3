import Restyle.Component.Naming
import Restyle.Proofs.Path.Components
import Restyle.Proofs.Text.Capitals
/-!
Names of components. The names for one file differ from each other, whatever their ending is, and none
of them begins with a small letter.
-/

namespace Restyle.Component

theorem componentName_congr {p q : Path} (h : p.same q = true) (suffix : String) (n : Nat) :
    componentName suffix p n = componentName suffix q n := by
  rw [componentName, componentName, Path.stem?_congr h]

theorem toString_injective {m n : Nat} (h : toString m = toString n) : m = n := by
  have digits : Nat.toDigits 10 m = Nat.toDigits 10 n := by
    rw [← Nat.toList_repr, ← Nat.toList_repr]
    exact congrArg String.toList h
  have value := congrArg (Nat.ofDigitChars 10 · 0) digits
  simpa only [Nat.ofDigitChars_toDigits (by decide : 1 < 10) (by decide : 10 ≤ 10)] using value

theorem toString_ne_empty (n : Nat) : toString n ≠ "" := by
  intro h
  have digits : Nat.toDigits 10 n = [] := by
    rw [← Nat.toList_repr]
    exact congrArg String.toList h
  exact Nat.toDigits_ne_nil digits

/-- A file never gives one name to two of its components: the ending may be a number itself, but all
names of the file begin with the same text, and what follows it differs. -/
theorem componentName_injective {suffix : String} {file : Path} {m n : Nat}
    (h : componentName suffix file m = componentName suffix file n) : m = n := by
  unfold componentName at h
  generalize String.ofList (pascalCase ((file.stem?.getD "").toList)) ++ suffix = base at h
  have numbered {k : Nat} (same : base = base ++ toString k) : False := by
    apply toString_ne_empty k
    simpa using same.symm
  cases m with
  | zero =>
      cases n with
      | zero => rfl
      | succ n => exact (numbered h).elim
  | succ m =>
      cases n with
      | zero => exact (numbered h.symm).elim
      | succ n => exact toString_injective (String.append_right_inj base |>.mp h)

theorem capitalized_capital {part : List Char} {c : Char} (h : c ∈ (capitalized part).head?) :
    c.isLower = false := by
  cases part with
  | nil => cases h
  | cons d ds =>
      obtain ⟨e, es, upper, capital⟩ := Text.upperChar_eq d
      rw [capitalized, upper] at h
      cases h
      exact capital

theorem joined_capital {parts : List (List Char)} {c : Char}
    (h : c ∈ (parts.flatMap capitalized).head?) : c.isLower = false := by
  induction parts with
  | nil => cases h
  | cons part parts ih =>
      rw [List.flatMap_cons, List.head?_append] at h
      rcases Option.or_eq_some_iff.mp h with first | ⟨-, later⟩
      · exact capitalized_capital first
      · exact ih later

theorem pascalCase_eq (stem : List Char) : ∃ c cs, pascalCase stem = c :: cs ∧ c.isLower = false := by
  unfold pascalCase
  dsimp only
  split
  · exact ⟨'_', [], rfl, rfl⟩
  · rename_i c cs joined
    split
    · exact ⟨'_', _, rfl, rfl⟩
    · have first : c ∈ ((nameParts [] stem).flatMap capitalized).head? := by
        rw [joined]
        rfl
      exact ⟨c, cs, rfl, joined_capital first⟩

theorem componentName_zero (suffix : String) (file : Path) : componentName suffix file 0
    = String.ofList (pascalCase (file.stem?.getD "").toList) ++ suffix := rfl

/-- All names for a file begin with the first one. -/
theorem isPrefix_componentName (suffix : String) (file : Path) (n : Nat) :
    (componentName suffix file 0).toList <+: (componentName suffix file n).toList := by
  rw [componentName_zero]
  unfold componentName
  dsimp only
  generalize String.ofList (pascalCase (file.stem?.getD "").toList) ++ suffix = base
  split
  · exact List.prefix_refl _
  · rw [String.toList_append]
    exact List.prefix_append _ _

theorem componentName_capital (suffix : String) (file : Path) (n : Nat) :
    ∃ c cs, (componentName suffix file n).toList = c :: cs ∧ c.isLower = false := by
  obtain ⟨c, cs, pascal, capital⟩ := pascalCase_eq (file.stem?.getD "").toList
  have first : (componentName suffix file 0).toList = c :: (cs ++ suffix.toList) := by
    rw [componentName_zero, String.toList_append, String.toList_ofList, pascal]
    rfl
  obtain ⟨rest, whole⟩ := isPrefix_componentName suffix file n
  rw [first] at whole
  exact ⟨c, _, whole.symm, capital⟩

end Restyle.Component
