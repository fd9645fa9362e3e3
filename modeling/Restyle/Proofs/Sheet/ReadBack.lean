import Mathlib.Data.List.Forall2
import Restyle.Proofs.Sheet.Serialized
/-!
Serialised names read back. Every name without blanks is read again from its serialisation, whatever
has to be escaped in it and whichever pseudo-classes follow: a number ends at its own space, in
front of the suffix or at the end of the selector, where that space is trimmed away.
-/

namespace Restyle.Sheet

/-- The ways in which a serialised name holds a character: as it is, behind a backslash, or by its
number. -/
inductive Writes : List Char → Char → Prop
  | plain {c : Char} (ident : isIdentChar c = true) : Writes [c] c
  | escaped {c : Char} (no_digit : Text.isHexDigit c = false) : Writes ['\\', c] c
  | numbered {c : Char} (ascii : c.toNat < 128) : Writes (numberOf c) c

theorem writes_escape (c : Char) : Writes (ClassName.escape c) c := by
  rw [ClassName.escape]
  split
  · next ident => exact .plain ident
  · next other =>
      apply Writes.escaped
      cases digit : Text.isHexDigit c with
      | false => rfl
      | true => exact absurd (isHexDigit_isIdentChar digit) other

theorem writes_inside (c : Char) : Writes (serializeInside c) c := by
  rw [serializeInside]
  split
  · next control =>
      apply Writes.numbered
      simp only [isControl, Bool.or_eq_true, decide_eq_true_eq, beq_iff_eq] at control
      omega
  · exact writes_escape c

theorem writes_lead (c : Char) : Writes (serializeLead c) c := by
  rw [serializeLead]
  split
  · next digit =>
      exact .numbered (of_isDigit (p := fun c => c.toNat < 128) (by decide) digit)
  · exact writes_inside c

theorem writes_all_inside (cs : List Char) :
    List.Forall₂ Writes (cs.map serializeInside) cs := by
  induction cs with
  | nil => exact .nil
  | cons c cs ih => exact .cons (writes_inside c) ih

theorem serialize_pieces (name : List Char) :
    ∃ pieces, List.Forall₂ Writes pieces name ∧ serialize name = pieces.flatten := by
  fun_cases serialize name with
  | case1 => exact ⟨[], .nil, rfl⟩
  | case2 => exact ⟨[['\\', '-']], .cons (.escaped (by decide)) .nil, rfl⟩
  | case3 c cs =>
      exact ⟨['-'] :: serializeLead c :: cs.map serializeInside,
        .cons (.plain (by decide)) (.cons (writes_lead c) (writes_all_inside cs)),
        by simp [List.flatMap_def]⟩
  | case4 c cs =>
      exact ⟨serializeLead c :: cs.map serializeInside,
        .cons (writes_lead c) (writes_all_inside cs), by simp [List.flatMap_def]⟩

theorem hexDigits_ascii {c : Char} (ascii : c.toNat < 128) :
    (Text.hexDigits c.toNat).all Text.isHexDigit = true ∧ Text.hexDigits c.toNat ≠ [] ∧
      (Text.hexDigits c.toNat).length ≤ 6 ∧ charOfHex? (Text.hexDigits c.toNat) = some c := by
  refine char_of_range (n := 128) (p := fun c =>
    (Text.hexDigits c.toNat).all Text.isHexDigit = true ∧ Text.hexDigits c.toNat ≠ [] ∧
      (Text.hexDigits c.toNat).length ≤ 6 ∧ charOfHex? (Text.hexDigits c.toNat) = some c)
    ?_ (Nat.zero_le _) (by rwa [Nat.zero_add])
  decide +kernel

theorem isBlank_of_isHexDigit {d : Char} (digit : Text.isHexDigit d = true) :
    Text.isBlank d = false := by
  apply Text.isBlank_of_range
  simp only [Text.isHexDigit, Char.isDigit, Bool.or_eq_true, Bool.and_eq_true, decide_eq_true_eq,
    Char.le_def, UInt32.le_iff_toNat_le] at digit
  have number : d.val.toNat = d.toNat := rfl
  have bounds : '0'.val.toNat = 48 ∧ '9'.val.toNat = 57 ∧ 'a'.val.toNat = 97 ∧
      'f'.val.toNat = 102 ∧ 'A'.val.toNat = 65 ∧ 'F'.val.toNat = 70 := by decide
  omega

theorem readClass_number {c : Char} (ascii : c.toNat < 128) {after : List Char}
    (ends : after.head?.any Text.isHexDigit = false) (n : Nat) :
    readClass (n + 1) ('\\' :: (Text.hexDigits c.toNat ++ after))
      = (readClass n (dropSpace after)).map fun r => (c :: r.1, r.2) := by
  obtain ⟨hex, some_digit, short, stands⟩ := hexDigits_ascii ascii
  rw [readClass_numbered some_digit short hex ends, stands, Option.bind_some]

theorem readClass_piece {piece : List Char} {c : Char} (h : Writes piece c) (n : Nat)
    (rest : List Char) :
    readClass (n + 1) (piece ++ rest) = (readClass n rest).map fun r => (c :: r.1, r.2) := by
  cases h with
  | plain ident => exact readClass_ident ident n rest
  | escaped no_digit => exact readClass_escaped no_digit n rest
  | numbered ascii =>
      rw [numberOf, List.cons_append, List.append_assoc, List.singleton_append]
      exact readClass_number ascii rfl n

theorem readClass_pieces {pieces : List (List Char)} {name : List Char}
    (h : List.Forall₂ Writes pieces name) (n : Nat) (rest : List Char) :
    readClass (name.length + n) (pieces.flatten ++ rest)
      = (readClass n rest).map fun r => (name ++ r.1, r.2) := by
  induction h with
  | nil => simp
  | @cons piece c pieces name first later ih =>
      have fuel : (c :: name).length + n = name.length + n + 1 := by
        rw [List.length_cons]
        omega
      rw [fuel, List.flatten_cons, List.append_assoc, readClass_piece first, ih, Option.map_map]
      rfl

theorem Writes.length_pos {piece : List Char} {c : Char} (h : Writes piece c) :
    0 < piece.length := by
  cases h <;> simp [numberOf]

theorem length_le_flatten {pieces : List (List Char)} {name : List Char}
    (h : List.Forall₂ Writes pieces name) : name.length ≤ pieces.flatten.length := by
  induction h with
  | nil => exact Nat.le_refl 0
  | cons first _ ih =>
      have some_char := first.length_pos
      rw [List.length_cons, List.flatten_cons, List.length_append]
      omega

theorem pieces_concat {pieces : List (List Char)} {init : List Char} {c : Char}
    (h : List.Forall₂ Writes pieces (init ++ [c])) :
    ∃ before piece, pieces = before ++ [piece] ∧ List.Forall₂ Writes before init ∧
      Writes piece c := by
  have front := List.forall₂_take_append _ _ _ h
  have back := List.forall₂_drop_append _ _ _ h
  obtain ⟨piece, none_, last, nothing, single⟩ := List.forall₂_cons_right_iff.mp back
  obtain rfl := List.forall₂_nil_right_iff.mp nothing
  exact ⟨pieces.take init.length, piece,
    by rw [← single, List.take_append_drop], front, last⟩

/-- What is trimmed away behind a serialised name is the space of a number, which the name can do
without. -/
theorem Writes.trimmed {piece : List Char} {c : Char} (h : Writes piece c)
    (mark : Text.isBlank c = false) :
    ∃ kept, (∀ before, Text.trimRight (before ++ piece) = before ++ kept) ∧
      (∀ n, readClass (n + 2) kept = some ([c], [])) ∧ 0 < kept.length := by
  have stop : ∀ before, Text.trimRight (before ++ [c]) = before ++ [c] := fun before =>
    Text.dropWhileEnd_concat mark before
  cases h with
  | plain ident =>
      exact ⟨[c], stop, fun n => by rw [readClass_ident ident]; rfl, Nat.zero_lt_one⟩
  | escaped no_digit =>
      refine ⟨['\\', c], fun before => ?_, fun n => by rw [readClass_escaped no_digit]; rfl,
        Nat.zero_lt_two⟩
      have behind := stop (before ++ ['\\'])
      simpa using behind
  | numbered ascii =>
      obtain ⟨hex, some_digit, -, -⟩ := hexDigits_ascii ascii
      obtain ⟨digits, d, split⟩ := (List.eq_nil_or_concat _).resolve_left some_digit
      rw [List.concat_eq_append] at split
      have digit : Text.isHexDigit d = true := List.all_eq_true.mp hex d (by simp [split])
      refine ⟨'\\' :: Text.hexDigits c.toNat, fun before => ?_, fun n => ?_, Nat.succ_pos _⟩
      · have blank : Text.isBlank ' ' = true := by decide
        have last : Text.isBlank d = false := isBlank_of_isHexDigit digit
        have space : before ++ numberOf c = (before ++ '\\' :: digits ++ [d]) ++ [' '] := by
          simp [numberOf, split]
        have rest : before ++ '\\' :: Text.hexDigits c.toNat = before ++ '\\' :: digits ++ [d] := by
          simp [split]
        rw [space, rest, Text.trimRight, Text.dropWhileEnd_concat_of blank]
        exact Text.dropWhileEnd_concat last _
      · rw [← List.append_nil (Text.hexDigits c.toNat), readClass_number ascii rfl]
        rfl

/-- What a selector is read as is told by its text without the blanks around it. -/
theorem parseClassSelector?_of_trim {selector text name tail : List Char}
    (trimmed : Text.trim selector = '.' :: text) (some_char : name ≠ [])
    (read : readClass (text.length + 1) text = some (name, tail)) :
    parseClassSelector? selector =
      if tail.isEmpty then some ⟨String.ofList name, none⟩
      else if isPseudoChain tail then some ⟨String.ofList name, some (String.ofList tail)⟩
      else none := by
  have not_empty : name.isEmpty = false := List.isEmpty_eq_false_iff.mpr some_char
  rw [parseClassSelector?, trimmed]
  simp only [read, not_empty, Bool.false_eq_true, if_false]

/-- Whether a text may follow the class of a selector: nothing, or what begins with a colon and
holds neither blanks nor combinators nor the marks of other simple selectors. -/
def IsSuffix (pseudo : List Char) : Prop :=
  pseudo = [] ∨ pseudo.head? = some ':' ∧
    ∀ c ∈ pseudo, Text.isBlank c = false ∧ c ∉ ['>', '+', '~', '.', '[', '#']

instance (pseudo : List Char) : Decidable (IsSuffix pseudo) :=
  decidable_of_iff (pseudo = [] ∨ pseudo.head? = some ':' ∧
      pseudo.all (fun c => !Text.isBlank c && !(['>', '+', '~', '.', '[', '#'].contains c)) = true)
    (by simp [IsSuffix])

theorem IsSuffix.cases {pseudo : List Char} (h : IsSuffix pseudo) :
    pseudo = [] ∨ (∃ more, pseudo = ':' :: more) ∧ isPseudoChain pseudo = true ∧
      ∀ c ∈ pseudo, Text.isBlank c = false := by
  rcases h with none_ | ⟨colon, clean⟩
  · exact .inl none_
  · obtain ⟨more, rfl⟩ : ∃ more, pseudo = ':' :: more := by
      cases pseudo with
      | nil => cases colon
      | cons c cs => exact ⟨cs, by rw [List.head?_cons, Option.some.injEq] at colon; rw [colon]⟩
    refine .inr ⟨⟨more, rfl⟩, ?_, fun c hc => (clean c hc).1⟩
    rw [isPseudoChain, Bool.not_eq_true', List.any_eq_false]
    intro c hc
    obtain ⟨mark, other⟩ := clean c (List.mem_cons_of_mem ':' hc)
    simpa [mark] using other

/-- The class of a serialised name is read as the name, with the pseudo-classes behind it. -/
theorem parseClassSelector?_serialize {name pseudo : List Char} (some_char : name ≠ [])
    (marks : ∀ c ∈ name, Text.isBlank c = false) (suffix : IsSuffix pseudo) :
    parseClassSelector? ('.' :: (serialize name ++ pseudo)) =
      some ⟨String.ofList name,
        if pseudo.isEmpty then none else some (String.ofList pseudo)⟩ := by
  obtain ⟨pieces, written, text⟩ := serialize_pieces name
  have longer := length_le_flatten written
  rcases suffix.cases with rfl | ⟨⟨more, rfl⟩, chain, unbroken⟩
  · -- The last piece may lose its space.
    obtain ⟨init, c, rfl⟩ := (List.eq_nil_or_concat' name).resolve_left some_char
    obtain ⟨before, piece, rfl, front, last⟩ := pieces_concat written
    obtain ⟨kept, trims, reads, some_kept⟩ := last.trimmed (marks c (by simp))
    have trimmed : Text.trim ('.' :: (serialize (init ++ [c]) ++ []))
        = '.' :: (before.flatten ++ kept) := by
      rw [List.append_nil, text, List.flatten_concat, Text.trim_cons (by decide), trims]
    have read : readClass ((before.flatten ++ kept).length + 1) (before.flatten ++ kept)
        = some (init ++ [c], []) := by
      have enough := length_le_flatten front
      obtain ⟨n, fuel⟩ : ∃ n, (before.flatten ++ kept).length + 1 = init.length + (n + 2) :=
        ⟨(before.flatten ++ kept).length + 1 - init.length - 2, by
          rw [List.length_append]
          omega⟩
      rw [fuel, readClass_pieces front, reads]
      rfl
    exact parseClassSelector?_of_trim trimmed some_char read
  · have trimmed : Text.trim ('.' :: (serialize name ++ ':' :: more))
        = '.' :: (serialize name ++ ':' :: more) := by
      have last := List.getLast_mem (List.cons_ne_nil ':' more)
      apply Text.trim_eq_self rfl
      simp [List.getLast?_eq_some_getLast, unbroken _ last]
    have read : readClass ((serialize name ++ ':' :: more).length + 1)
        (serialize name ++ ':' :: more) = some (name, ':' :: more) := by
      rw [← text] at longer
      obtain ⟨n, fuel⟩ :
          ∃ n, (serialize name ++ ':' :: more).length + 1 = name.length + (n + 1) :=
        ⟨(serialize name ++ ':' :: more).length - name.length, by
          rw [List.length_append]
          omega⟩
      rw [fuel, text, readClass_pieces written, readClass_stop (by decide) (by decide)]
      simp
    rw [parseClassSelector?_of_trim trimmed some_char read, chain]
    rfl

/-- A digit behind a hyphen and a control character, both written by number: a hexadecimal digit
follows the first and pseudo-classes follow the second. -/
theorem parseClassSelector?_serialize_numbers :
    ("-2a\x01".toList ≠ [] ∧ (∀ c ∈ "-2a\x01".toList, Text.isBlank c = false) ∧
        IsSuffix ":hover::before".toList) ∧
      parseClassSelector? ('.' :: (serialize "-2a\x01".toList ++ ":hover::before".toList)) =
        some ⟨"-2a\x01", some ":hover::before"⟩ := by
  have some_char : "-2a\x01".toList ≠ [] := by decide
  have clean : "-2a\x01".toList.all (!Text.isBlank ·) = true := by decide
  have marks : ∀ c ∈ "-2a\x01".toList, Text.isBlank c = false := by
    simpa only [List.all_eq_true, Bool.not_eq_true'] using clean
  have suffix : IsSuffix ":hover::before".toList := by decide
  refine ⟨⟨some_char, marks, suffix⟩, ?_⟩
  exact (parseClassSelector?_serialize some_char marks suffix).trans (by decide)

end Restyle.Sheet
