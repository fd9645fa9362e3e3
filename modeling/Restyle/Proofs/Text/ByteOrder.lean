import Mathlib.Algebra.Group.Nat.Defs
import Restyle.Text.Utf8
/-!
The order of texts by their characters is the order of their bytes.
-/

namespace Restyle.Text.Utf8

theorem byte_lt {a b : Nat} {u v : List UInt8} (small : b < 256) (h : a < b ∨ a = b ∧ u < v) :
    UInt8.ofNat a :: u < UInt8.ofNat b :: v := by
  rw [List.cons_lt_cons_iff]
  rcases h with less | ⟨rfl, later⟩
  · left
    rw [UInt8.lt_iff_toNat_lt, UInt8.toNat_ofNat', UInt8.toNat_ofNat']
    omega
  · exact .inr ⟨rfl, later⟩

def continuation (code : Nat) : Nat → List UInt8
  | 0 => []
  | n + 1 => UInt8.ofNat (code / 64 ^ n % 64 + 128) :: continuation code n

theorem continuation_lt {n a b : Nat} (above : a / 64 ^ n = b / 64 ^ n) (less : a < b)
    (u v : List UInt8) : continuation a n ++ u < continuation b n ++ v := by
  induction n with
  | zero =>
      rw [Nat.pow_zero, Nat.div_one, Nat.div_one] at above
      omega
  | succ n ih =>
      have quotients : a / 64 ^ n ≤ b / 64 ^ n := Nat.div_le_div_right (Nat.le_of_lt less)
      rw [Nat.pow_succ, ← Nat.div_div_eq_div_mul, ← Nat.div_div_eq_div_mul] at above
      refine byte_lt (by omega) ?_
      by_cases same : a / 64 ^ n = b / 64 ^ n
      · exact .inr ⟨by rw [same], ih same⟩
      · left
        omega

theorem leading_lt {n q offset a b : Nat} (fits : b / 64 ^ n < q) (small : offset + q ≤ 256)
    (less : a < b) (u v : List UInt8) :
    UInt8.ofNat (a / 64 ^ n % q + offset) :: continuation a n ++ u
      < UInt8.ofNat (b / 64 ^ n % q + offset) :: continuation b n ++ v := by
  have quotients : a / 64 ^ n ≤ b / 64 ^ n := Nat.div_le_div_right (Nat.le_of_lt less)
  rw [Nat.mod_eq_of_lt fits, Nat.mod_eq_of_lt (Nat.lt_of_le_of_lt quotients fits)]
  refine byte_lt (by omega) ?_
  by_cases same : a / 64 ^ n = b / 64 ^ n
  · exact .inr ⟨by rw [same], continuation_lt same less u v⟩
  · left
    omega

theorem utf8EncodeChar_eq (c : Char) :
    String.utf8EncodeChar c =
      if c.val.toNat ≤ 127 then [UInt8.ofNat c.val.toNat]
      else if c.val.toNat ≤ 2047 then
        UInt8.ofNat (c.val.toNat / 64 ^ 1 % 32 + 192) :: continuation c.val.toNat 1
      else if c.val.toNat ≤ 65535 then
        UInt8.ofNat (c.val.toNat / 64 ^ 2 % 16 + 224) :: continuation c.val.toNat 2
      else UInt8.ofNat (c.val.toNat / 64 ^ 3 % 8 + 240) :: continuation c.val.toNat 3 := by
  simp [String.utf8EncodeChar, continuation]

theorem utf8EncodeChar_append_lt {c d : Char} (h : c < d) (u v : List UInt8) :
    String.utf8EncodeChar c ++ u < String.utf8EncodeChar d ++ v := by
  have less : c.val.toNat < d.val.toNat := h
  have few : d.val.toNat < 0x110000 := by
    have valid := d.valid
    simp only [UInt32.isValidChar, Nat.isValidChar] at valid
    omega
  rw [utf8EncodeChar_eq, utf8EncodeChar_eq]
  -- A longer encoding begins with a greater byte; among those of one length the rest decides.
  by_cases one : c.val.toNat ≤ 127
  · rw [if_pos one]
    split
    · exact byte_lt (by omega) (.inl less)
    · split
      · exact byte_lt (by omega) (.inl (by omega))
      · split <;> exact byte_lt (by omega) (.inl (by omega))
  rw [if_neg one, if_neg (show ¬ d.val.toNat ≤ 127 by omega)]
  by_cases two : c.val.toNat ≤ 2047
  · rw [if_pos two]
    split
    · exact leading_lt (by omega) (by omega) less u v
    · split <;> exact byte_lt (by omega) (.inl (by omega))
  rw [if_neg two, if_neg (show ¬ d.val.toNat ≤ 2047 by omega)]
  by_cases three : c.val.toNat ≤ 65535
  · rw [if_pos three]
    split
    · exact leading_lt (by omega) (by omega) less u v
    · exact byte_lt (by omega) (.inl (by omega))
  rw [if_neg three, if_neg (show ¬ d.val.toNat ≤ 65535 by omega)]
  exact leading_lt (by omega) (by omega) less u v

theorem utf8EncodeChar_ne_nil (c : Char) : String.utf8EncodeChar c ≠ [] := by
  rw [utf8EncodeChar_eq]
  split
  · exact List.cons_ne_nil _ _
  · split
    · exact List.cons_ne_nil _ _
    · split <;> exact List.cons_ne_nil _ _

theorem encode_lt_of_lt {a b : List Char} (h : a < b) : encode a < encode b := by
  induction a generalizing b with
  | nil =>
      cases b with
      | nil => exact absurd h (List.lt_irrefl [])
      | cons d b =>
          obtain ⟨x, rest, bytes⟩ := List.exists_cons_of_ne_nil (utf8EncodeChar_ne_nil d)
          rw [encode, encode, List.flatMap_cons, bytes]
          exact List.nil_lt_cons _ _
  | cons c a ih =>
      cases b with
      | nil => exact absurd h (List.not_lt_nil _)
      | cons d b =>
          rw [encode, encode, List.flatMap_cons, List.flatMap_cons]
          rcases List.cons_lt_cons_iff.mp h with less | ⟨rfl, later⟩
          · exact utf8EncodeChar_append_lt less _ _
          · exact List.append_left_lt (ih later)

/-- The smaller text has the smaller bytes. -/
theorem encode_lt_iff {a b : String} : encode a.toList < encode b.toList ↔ a < b := by
  refine ⟨fun bytes => ?_, fun less => encode_lt_of_lt less⟩
  by_cases less : a < b
  · exact less
  by_cases back : b < a
  · exact absurd (encode_lt_of_lt back) (List.lt_asymm bytes)
  · have same : a = b := String.le_antisymm back less
    subst same
    exact absurd bytes (List.lt_irrefl _)

end Restyle.Text.Utf8
