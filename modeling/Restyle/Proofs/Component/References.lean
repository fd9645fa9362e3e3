import Restyle.Component.Collection
import Restyle.Script.Lexeme
/-!
The names that the constructor of a component refers to. A name behind a dot belongs to what stands
before the dot; every other one has to be bound where the constructor stands.
-/

namespace Restyle

namespace Script

/-- The characters of names, with those that escapes are written with. -/
def isNamePart (c : Char) : Bool := isWordPart c || "\\\x7b\x7d".toList.contains c

/-- What stands last when a character is passed. Blanks behind a dot do not count. -/
def passing (last c : Char) : Char := if last == '.' && isBlank c then last else c

/-- The names in a text that stand behind no dot, `last` being what stands before the text. -/
def freeNames (last : Char) : List Char → List String
  | [] => []
  | c :: cs =>
    if isNamePart c && !isNamePart last && last != '.' then
      String.ofList ((c :: cs).takeWhile isNamePart) :: freeNames (passing last c) cs
    else freeNames (passing last c) cs

theorem isBlank_of_isNamePart {c : Char} (h : isNamePart c = true) : isBlank c = false := by
  rcases Bool.or_eq_true_iff.mp h with word | escape
  · unfold isWordPart at word
    simp only [Bool.and_eq_true, Bool.not_eq_true'] at word
    exact word.1.2
  · rcases List.mem_cons.mp (List.contains_iff_mem.mp escape) with rfl | escape
    · decide
    rcases List.mem_cons.mp escape with rfl | escape
    · decide
    · rw [List.mem_singleton.mp escape]
      decide

theorem passing_of_isNamePart {c : Char} (h : isNamePart c = true) (last : Char) :
    passing last c = c := by
  rw [passing, isBlank_of_isNamePart h, Bool.and_false]
  rfl

theorem freeNames_inside {last : Char} {name : List Char} (all : ∀ c ∈ name, isNamePart c = true)
    (behind : isNamePart last = true ∨ last = '.') (rest : List Char) :
    freeNames last (name ++ rest) = freeNames (name.getLastD last) rest := by
  induction name generalizing last with
  | nil => rfl
  | cons c name ih =>
      have part := all c List.mem_cons_self
      have not_free : ¬ (isNamePart c && !isNamePart last && last != '.') = true := by
        rcases behind with inside | rfl
        · rw [inside]
          simp
        · simp
      rw [List.cons_append, freeNames, if_neg not_free, passing_of_isNamePart part,
        ih (fun d member => all d (List.mem_cons_of_mem c member)) (.inl part), List.getLastD_cons]

theorem freeNames_name {last c : Char} {name rest : List Char}
    (all : ∀ d ∈ c :: name, isNamePart d = true) (outside : isNamePart last = false)
    (no_dot : last ≠ '.') (ends : ∀ d ∈ rest.head?, isNamePart d = false) :
    freeNames last (c :: name ++ rest)
      = String.ofList (c :: name) :: freeNames ((c :: name).getLastD last) rest := by
  have part := all c List.mem_cons_self
  have free : (isNamePart c && !isNamePart last && last != '.') = true := by
    rw [part, outside, bne_iff_ne.mpr no_dot]
    rfl
  have whole : (c :: (name ++ rest)).takeWhile isNamePart = c :: name := by
    rw [← List.cons_append, List.takeWhile_append_of_pos all]
    cases rest with
    | nil => exact List.append_nil _
    | cons d rest =>
        rw [List.takeWhile_cons_of_neg, List.append_nil]
        rw [ends d rfl]
        exact Bool.false_ne_true
  rw [List.cons_append, freeNames, if_pos free, whole, passing_of_isNamePart part,
    freeNames_inside (fun d member => all d (List.mem_cons_of_mem c member)) (.inl part),
    List.getLastD_cons]

theorem freeNames_concat {d : Char} (outside : isNamePart d = false) (last : Char)
    (cs : List Char) : freeNames last (cs ++ [d]) = freeNames last cs := by
  induction cs generalizing last with
  | nil =>
      have not_free : ¬ (isNamePart d && !isNamePart last && last != '.') = true := by
        rw [outside]
        exact Bool.false_ne_true
      exact if_neg not_free
  | cons c cs ih =>
      have same : (c :: (cs ++ [d])).takeWhile isNamePart = (c :: cs).takeWhile isNamePart := by
        rw [← List.cons_append, List.takeWhile_append]
        split
        · rw [List.takeWhile_cons_of_neg (by rw [outside]; exact Bool.false_ne_true),
            List.append_nil]
          rename_i all
          exact (List.IsPrefix.eq_of_length (List.takeWhile_prefix _) all).symm
        · rfl
      rw [List.cons_append, freeNames, freeNames, same, ih]

theorem inside_getLastD {name : List Char} (all : ∀ c ∈ name, isNamePart c = true) {last : Char}
    (inside : isNamePart last = true ∨ last = '.') :
    isNamePart (name.getLastD last) = true ∨ name.getLastD last = '.' := by
  rcases List.eq_nil_or_concat name with rfl | ⟨front, c, rfl⟩
  · exact inside
  · rw [List.concat_eq_append, List.getLastD_concat]
    exact .inl (all c (by rw [List.concat_eq_append]; exact List.mem_concat_self))

theorem freeNames_members {members : List (List Char)}
    (all : ∀ m ∈ members, ∀ c ∈ m, isNamePart c = true) {last : Char}
    (inside : isNamePart last = true ∨ last = '.') :
    freeNames last (members.flatMap ('.' :: ·)) = [] := by
  induction members generalizing last with
  | nil => rfl
  | cons m members ih =>
      have dot : freeNames last ('.' :: (m ++ members.flatMap ('.' :: ·)))
          = freeNames '.' (m ++ members.flatMap ('.' :: ·)) := by
        have outside : isNamePart '.' = false := by decide
        have passed : passing last '.' = '.' := by
          unfold passing
          split
          · rename_i behind
            exact eq_of_beq (Bool.and_eq_true_iff.mp behind).1
          · rfl
        rw [freeNames, outside, passed]
        rfl
      rw [List.flatMap_cons, List.cons_append, dot,
        freeNames_inside (all m List.mem_cons_self) (.inr rfl)]
      exact ih (fun n member => all n (List.mem_cons_of_mem m member))
        (inside_getLastD (all m List.mem_cons_self) (.inr rfl))

end Script

namespace Component

open Script (freeNames freeNames_name freeNames_inside freeNames_concat freeNames_members
  inside_getLastD isNamePart)
open Markup (isIntrinsicTag)

/-- The names that the constructor for a tag takes from the tag. -/
def tagNames (tag : String) : List String :=
  freeNames (if isIntrinsicTag tag then '.' else '(') tag.toList

theorem freeNames_styled (d : Char) (rest : List Char) (ends : isNamePart d = false) :
    freeNames ' ' ("styled".toList ++ d :: rest) = "styled" :: freeNames d rest := by
  have parts : "styled".toList.all isNamePart = true := rfl
  have name := @freeNames_name ' ' 's' "tyled".toList (d :: rest) (List.all_eq_true.mp parts)
    (by decide) (by decide) fun c first => by rw [← Option.some.inj first, ends]
  have passed : freeNames 'd' (d :: rest) = freeNames d rest := by
    rw [freeNames, ends]
    rfl
  rw [← passed]
  exact name

/-- A constructor refers to `styled`, and to what its tag names. -/
theorem freeNames_constructorFor (tag : String) :
    freeNames ' ' (constructorFor tag).toList = "styled" :: tagNames tag := by
  unfold constructorFor tagNames
  split
  · rw [String.toList_append]
    exact freeNames_styled '.' tag.toList (by decide)
  · have call : ("styled(" ++ tag ++ ")").toList
        = "styled".toList ++ '(' :: (tag.toList ++ [')']) := by
      rw [String.toList_append, String.toList_append, List.append_assoc]
      rfl
    rw [call, freeNames_styled '(' _ (by decide), freeNames_concat (by decide)]

/-- The tag of an element of the platform that is one name is a member of `styled`. -/
theorem tagNames_of_host {tag : String} (host : isIntrinsicTag tag = true)
    (plain : ∀ c ∈ tag.toList, isNamePart c = true) : tagNames tag = [] := by
  rw [tagNames, if_pos host, ← List.append_nil tag.toList, freeNames_inside plain (.inr rfl)]
  rfl

/-- The tag of a component, or of a member of an object, names the component or the object. -/
theorem tagNames_of_component {tag : String} (custom : isIntrinsicTag tag = false) {object : List Char}
    {members : List (List Char)} (some_object : object ≠ [])
    (object_name : ∀ c ∈ object, isNamePart c = true)
    (member_names : ∀ m ∈ members, ∀ c ∈ m, isNamePart c = true)
    (text : tag.toList = object ++ members.flatMap ('.' :: ·)) :
    tagNames tag = [String.ofList object] := by
  obtain ⟨c, name, rfl⟩ := List.exists_cons_of_ne_nil some_object
  have ends : ∀ d ∈ (members.flatMap ('.' :: ·)).head?, isNamePart d = false := by
    intro d first
    cases members with
    | nil => cases first
    | cons m members =>
        cases first
        decide
  rw [tagNames, if_neg (by rw [custom]; exact Bool.false_ne_true), text,
    freeNames_name object_name (by decide) (by decide) ends, freeNames_members member_names]
  rw [List.getLastD_cons]
  exact inside_getLastD (fun d member => object_name d (List.mem_cons_of_mem c member))
    (.inl (object_name c List.mem_cons_self))

/-- The names that a style file with some components binds: what its header imports, and theirs. -/
def moduleNames (owned : List Styled) : List String := "styled" :: owned.map (·.name)

/-- All that the constructors in a style file refer to is bound in it. -/
def Closed (owned : List Styled) : Prop :=
  ∀ c ∈ owned, ∀ x ∈ freeNames ' ' c.constructor.toList, x ∈ moduleNames owned

instance (owned : List Styled) : Decidable (Closed owned) :=
  inferInstanceAs (Decidable (∀ c ∈ owned, ∀ x ∈ freeNames ' ' c.constructor.toList, _))

theorem closed_iff {owned : List Styled} (made : ∀ c ∈ owned, c.constructor = constructorFor c.tag) :
    Closed owned ↔ ∀ c ∈ owned, ∀ x ∈ tagNames c.tag, x ∈ moduleNames owned := by
  refine forall₂_congr fun c member => ?_
  rw [made c member, freeNames_constructorFor, List.forall_mem_cons]
  exact and_iff_right List.mem_cons_self

end Component

end Restyle
