import Restyle.Text
/-!
Template literals without substitutions: how they are read, and the texts that stand for themselves
in one. The cooked value of a literal is a sequence of code units of sixteen bits. There is none if
a backslash in the literal begins no escape.
-/

namespace Restyle.Script.Template

/-- The mark at both ends of a template literal. -/
def mark : Char := '\x60'

/-- The code units of the character with a number. -/
def unitsOf (n : Nat) : List Nat :=
  if n < 0x10000 then [n] else [0xD800 + (n - 0x10000) / 0x400, 0xDC00 + (n - 0x10000) % 0x400]

def units (cs : List Char) : List Nat := cs.flatMap fun c => unitsOf c.toNat

def isLineEnd (c : Char) : Bool := c == '\n' || c == '\r' || c == '\u2028' || c == '\u2029'

def number (digits : List Char) : Nat := digits.foldl (fun n d => 16 * n + Text.hexValue d) 0

/-- The number that the hexadecimal digits at the front of a text stand for, if there are `count`. -/
def fixedNumber? (count : Nat) (cs : List Char) : Option Nat :=
  let digits := (cs.take count).takeWhile Text.isHexDigit
  if digits.length == count then some (number digits) else none

/-- The number of a character before a closing brace, and how many digits it has. -/
def bracedNumber? (cs : List Char) : Option (Nat × Nat) :=
  let digits := cs.takeWhile Text.isHexDigit
  if !digits.isEmpty && (cs.drop digits.length).head? == some '\x7d' && number digits ≤ 0x10FFFF
  then some (number digits, digits.length) else none

/-- The number of the control character for which a letter stands behind a backslash. -/
def control? (c : Char) : Option Nat :=
  match c with
  | 'b' => some 8
  | 't' => some 9
  | 'n' => some 10
  | 'v' => some 11
  | 'f' => some 12
  | 'r' => some 13
  | _ => none

/-- The value and the length of the escape that follows a backslash. A line that goes on behind one
has no value of its own. A digit is no escape, but for a zero before no other digit. -/
def escape? : List Char → Option (List Nat × Nat)
  | [] => none
  | '\r' :: '\n' :: _ => some ([], 2)
  | 'x' :: cs => (fixedNumber? 2 cs).map fun n => ([n], 3)
  | 'u' :: '\x7b' :: cs => (bracedNumber? cs).map fun (n, digits) => (unitsOf n, digits + 3)
  | 'u' :: cs => (fixedNumber? 4 cs).map fun n => ([n], 5)
  | c :: cs =>
    if isLineEnd c then some ([], 1)
    else if c.isDigit then if c == '0' && !cs.head?.any Char.isDigit then some ([0], 1) else none
    else some ((control? c).elim (unitsOf c.toNat) fun n => [n], 1)

/-- The value of a character of a template, and how many of those behind it belong to it. Where a
backslash begins no escape, it still goes together with the next character. -/
def character (c : Char) (cs : List Char) : Option (List Nat) × Nat :=
  if c == '\\' then
    match escape? cs with
    | some (us, n) => (some us, n)
    | none => (none, 1)
  else if c == '\r' then (some [10], if cs.head? == some '\n' then 1 else 0)
  else (some (unitsOf c.toNat), 0)

def opensSubstitution (c : Char) (cs : List Char) : Bool := c == '$' && cs.head? == some '\x7b'

/-- The cooked value of a template literal and what follows it, from behind its first mark on. The
first `passed` characters belong to one that was read before. -/
def readFrom : (passed : Nat) → List Char → Option (Option (List Nat) × List Char)
  | _, [] => none
  | passed + 1, _ :: cs => readFrom passed cs
  | 0, c :: cs =>
    if c == mark then some (some [], cs)
    else if opensSubstitution c cs then none
    else
      (readFrom (character c cs).2 cs).map fun (us, rest) =>
        ((character c cs).1.bind fun value => us.map (value ++ ·), rest)

/-- The cooked value of the template literal at the front of a text, and what follows it. There is
neither if no literal ends in the text, or if the one at its front has a substitution. -/
def read? : List Char → Option (Option (List Nat) × List Char)
  | c :: cs => if c == mark then readFrom 0 cs else none
  | [] => none

/-- Whether a text has neither a mark nor a backslash nor a carriage return, and opens no
substitution. -/
def isPlain : List Char → Bool
  | [] => true
  | c :: cs =>
    !(c == mark || c == '\\' || c == '\r' || opensSubstitution c cs) && isPlain cs

theorem isPlain_cons (c : Char) (cs : List Char) :
    isPlain (c :: cs)
      = (!(c == mark || c == '\\' || c == '\r' || opensSubstitution c cs) && isPlain cs) := rfl

theorem opensSubstitution_append {c : Char} {a b : List Char}
    (apart : c = '$' → a = [] → b.head? ≠ some '\x7b') :
    opensSubstitution c (a ++ b) = opensSubstitution c a := by
  cases a with
  | cons d a => rfl
  | nil =>
      unfold opensSubstitution
      cases dollar : c == '$' with
      | false => rfl
      | true =>
          have other := apart (eq_of_beq dollar) rfl
          simp [other]

theorem opensSubstitution_before_mark (c : Char) (body rest : List Char) :
    opensSubstitution c (body ++ mark :: rest) = opensSubstitution c body := by
  apply opensSubstitution_append
  intro _ _ brace
  cases brace

/-- Two texts that open no substitution where they meet are plain together if each one is. -/
theorem isPlain_append {a b : List Char}
    (apart : a.getLast? = some '$' → b.head? ≠ some '\x7b') :
    isPlain (a ++ b) = (isPlain a && isPlain b) := by
  induction a with
  | nil => rfl
  | cons c a ih =>
      have here : c = '$' → a = [] → b.head? ≠ some '\x7b' := by
        rintro rfl rfl
        exact apart rfl
      have later : a.getLast? = some '$' → b.head? ≠ some '\x7b' := by
        intro last
        apply apart
        rw [List.getLast?_cons, last]
        rfl
      rw [List.cons_append, isPlain_cons, isPlain_cons, opensSubstitution_append here, ih later,
        Bool.and_assoc]

theorem units_cons (c : Char) (cs : List Char) : units (c :: cs) = unitsOf c.toNat ++ units cs := rfl

theorem units_append (a b : List Char) : units (a ++ b) = units a ++ units b := List.flatMap_append

theorem length_unitsOf (n : Nat) : 1 ≤ (unitsOf n).length ∧ (unitsOf n).length ≤ 2 := by
  unfold unitsOf
  split <;> simp

theorem length_le_units (cs : List Char) : cs.length ≤ (units cs).length := by
  induction cs with
  | nil => exact Nat.le_refl 0
  | cons c cs ih =>
      have some_unit := (length_unitsOf c.toNat).1
      rw [units_cons, List.length_append, List.length_cons]
      omega

theorem escape?_length {cs : List Char} {us : List Nat} {n : Nat}
    (h : escape? cs = some (us, n)) : us.length ≤ (units (cs.take n)).length := by
  unfold escape? at h
  split at h
  · cases h
  · cases h
    exact Nat.zero_le _
  · obtain ⟨number, -, value⟩ := Option.map_eq_some_iff.mp h
    cases value
    exact Nat.le_trans (by simp) (length_le_units _)
  · obtain ⟨⟨number, digits⟩, -, value⟩ := Option.map_eq_some_iff.mp h
    cases value
    have short := (length_unitsOf number).2
    exact Nat.le_trans (Nat.le_trans short (by simp)) (length_le_units _)
  · obtain ⟨number, -, value⟩ := Option.map_eq_some_iff.mp h
    cases value
    exact Nat.le_trans (by simp) (length_le_units _)
  · rename_i c cs _ _ _ _
    split at h
    · cases h
      exact Nat.zero_le _
    split at h
    · split at h
      · cases h
        exact length_le_units [c]
      · cases h
    · cases h
      cases control? c with
      | none => exact Nat.le_of_eq (congrArg List.length (List.append_nil _).symm)
      | some number => exact length_le_units [c]

/-- A character has at most as many units for its value as it takes in the text. It has the same
ones only if it is neither an escape nor the end of a line that counts as another. -/
theorem character_value {c : Char} {cs : List Char} {value : List Nat}
    (h : (character c cs).1 = some value) :
    value.length ≤ (units (c :: cs.take (character c cs).2)).length ∧
      (value = units (c :: cs.take (character c cs).2) →
        c ≠ '\\' ∧ c ≠ '\r' ∧ (character c cs).2 = 0) := by
  unfold character at h ⊢
  split at h
  · rename_i backslash
    rw [if_pos backslash]
    cases found : escape? cs with
    | none =>
        rw [found] at h
        cases h
    | some escape =>
        obtain ⟨us, n⟩ := escape
        rw [found] at h
        cases h
        have short := escape?_length found
        have one := (length_unitsOf c.toNat).1
        have longer : value.length < (units (c :: cs.take n)).length := by
          rw [units_cons, List.length_append]
          omega
        refine ⟨Nat.le_of_lt longer, ?_⟩
        intro same
        rw [← same] at longer
        exact absurd longer (Nat.lt_irrefl _)
  · rename_i other
    rw [if_neg other]
    split at h
    · rename_i carriage
      cases h
      rw [if_pos carriage, eq_of_beq carriage, units_cons]
      have first : unitsOf '\r'.toNat = [13] := rfl
      rw [first, List.singleton_append]
      refine ⟨Nat.le_add_left 1 _, ?_⟩
      intro same
      cases same
    · rename_i plain
      cases h
      rw [if_neg plain]
      refine ⟨Nat.le_of_eq (congrArg List.length (List.append_nil _).symm), ?_⟩
      intro
      exact ⟨fun h => other (beq_iff_eq.mpr h), fun h => plain (beq_iff_eq.mpr h), rfl⟩

theorem append_within {v v' a b : List Nat} (short : v.length ≤ a.length)
    (short' : v'.length ≤ b.length) :
    (v ++ v').length ≤ (a ++ b).length ∧ (v ++ v' = a ++ b → v = a ∧ v' = b) := by
  rw [List.length_append, List.length_append]
  refine ⟨Nat.add_le_add short short', ?_⟩
  intro same
  have lengths := congrArg List.length same
  rw [List.length_append, List.length_append] at lengths
  exact List.append_inj same (by omega)

/-- A literal that is read ends at its mark. The text in it is at least as long as its cooked value,
and is plain if it is the same. -/
theorem readFrom_sound {passed : Nat} {cs rest : List Char} {cooked : Option (List Nat)}
    (h : readFrom passed cs = some (cooked, rest)) :
    ∃ body, cs.drop passed = body ++ mark :: rest ∧ ∀ us, cooked = some us →
      us.length ≤ (units body).length ∧ (us = units body → isPlain body = true) := by
  induction cs generalizing passed cooked with
  | nil => cases passed <;> cases h
  | cons c cs ih =>
      cases passed with
      | succ passed =>
          rw [List.drop_succ_cons]
          exact ih h
      | zero =>
          rw [readFrom] at h
          split at h
          · rename_i closing
            cases h
            refine ⟨[], ?_, ?_⟩
            · rw [eq_of_beq closing]
              rfl
            · intro us same
              cases same
              exact ⟨Nat.le_refl 0, fun _ => rfl⟩
          rename_i inside
          split at h
          · cases h
          rename_i closed
          obtain ⟨⟨later, rest'⟩, continued, result⟩ := Option.map_eq_some_iff.mp h
          cases result
          obtain ⟨body, behind, values⟩ := ih continued
          have parts : cs = cs.take (character c cs).2 ++ (body ++ mark :: rest) := by
            rw [← behind, List.take_append_drop]
          refine ⟨c :: cs.take (character c cs).2 ++ body, ?_, ?_⟩
          · rw [List.drop_zero, List.append_assoc, List.cons_append, ← parts]
          intro us cook
          obtain ⟨value, here, cook⟩ := Option.bind_eq_some_iff.mp cook
          obtain ⟨us', there, rfl⟩ := Option.map_eq_some_iff.mp cook
          obtain ⟨short, same_here⟩ := character_value here
          obtain ⟨short', same_there⟩ := values us' there
          obtain ⟨shorter, same⟩ := append_within short short'
          rw [units_append]
          refine ⟨shorter, ?_⟩
          intro whole
          -- A value as long as its character leaves nothing behind the character to belong to it.
          obtain ⟨same, same'⟩ := same whole
          obtain ⟨no_escape, no_return, alone⟩ := same_here same
          rw [alone, List.take_zero, List.nil_append] at parts
          have closed' : opensSubstitution c body = false := by
            rw [← opensSubstitution_before_mark c body rest, ← parts]
            exact Bool.eq_false_iff.mpr closed
          rw [alone, List.take_zero, List.singleton_append, isPlain_cons, same_there same', closed']
          simp [inside, no_escape, no_return]

theorem readFrom_plain {body : List Char} (plain : isPlain body = true) (rest : List Char) :
    readFrom 0 (body ++ mark :: rest) = some (some (units body), rest) := by
  induction body with
  | nil => rfl
  | cons c body ih =>
      rw [isPlain_cons, Bool.and_eq_true_iff, Bool.not_eq_true'] at plain
      obtain ⟨itself, plain⟩ := plain
      simp only [Bool.or_eq_false_iff] at itself
      obtain ⟨⟨⟨inside, no_escape⟩, no_return⟩, closed⟩ := itself
      have next : opensSubstitution c (body ++ mark :: rest) = false :=
        (opensSubstitution_before_mark c body rest).trans closed
      have value : ∀ cs, character c cs = (some (unitsOf c.toNat), 0) := by
        intro cs
        simp only [character, no_escape, no_return, Bool.false_eq_true, if_false]
      rw [List.cons_append, readFrom, value, ih plain]
      simp only [inside, next, Bool.false_eq_true, if_false]
      rfl

/-- A text between two marks is read as one literal with itself as the cooked value just if it is
plain. -/
theorem read?_eq_iff {body rest : List Char} :
    read? (mark :: body ++ mark :: rest) = some (some (units body), rest) ↔ isPlain body = true := by
  have start : read? (mark :: body ++ mark :: rest) = readFrom 0 (body ++ mark :: rest) := rfl
  rw [start]
  constructor
  · intro h
    obtain ⟨body', same, values⟩ := readFrom_sound h
    rw [List.drop_zero] at same
    obtain rfl := List.append_cancel_right same
    exact (values (units body) rfl).2 rfl
  · exact fun plain => readFrom_plain plain rest

end Restyle.Script.Template
