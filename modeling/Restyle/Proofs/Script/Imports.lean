import Restyle.Proofs.Script.Constants
/-!
Scripts that are constants on one line each, and the import that may stand in front of them: the
tree that the reader gives such a script.
-/

namespace Restyle.Script

open Syntax
open Syntax (Pattern)
open Text (byteLength byteLength_append byteLength_cons byteLength_nil)

variable {size : Nat} {after : List Char} {o : Nat} {st : List Node}

/-- A statement that imports names from a module. -/
structure Import where
  first : List Char
  others : List (List Char)
  specifier : List Char
  words : ∀ w ∈ first :: others, IsWord w
  some_specifier : specifier ≠ []
  plain : ∀ c ∈ specifier, c ≠ '\'' ∧ c ≠ '\\' ∧ c ≠ '\n' ∧ c ≠ '\r'

def specifierNode (start : Nat) (name : List Char) : Node :=
  .over "import_specifier" (leafAt (.category "identifier") start name) []

/-- Names behind a first one. -/
def othersText (others : List (List Char)) : List Char :=
  others.flatMap fun name => ',' :: ' ' :: name

def othersNodes : Nat → List (List Char) → List Node
  | _, [] => []
  | start, name :: others =>
    leafAt (.token ",") start [','] :: specifierNode (start + 2) name ::
      othersNodes (start + 2 + byteLength name) others

namespace Import

def clauseText (i : Import) : List Char :=
  '\x7b' :: ' ' :: (i.first ++ (othersText i.others ++ [' ', '\x7d']))

def text (i : Import) : List Char :=
  importWord ++ ' ' :: (i.clauseText ++ ' ' :: (fromWord ++
    ' ' :: '\'' :: (i.specifier ++ ['\'', ';'])))

def namedNode (start : Nat) (i : Import) : Node :=
  let behind := start + 2 + byteLength i.first
  .over "named_imports" (leafAt (.token "\x7b") start ['\x7b'])
    (specifierNode (start + 2) i.first :: (othersNodes behind i.others ++
      [leafAt (.token "\x7d") (behind + byteLength (othersText i.others) + 1) ['\x7d']]))

def literalNode (start : Nat) (i : Import) : Node :=
  .over "string" (leafAt (.token "'") start ['\''])
    [leafAt (.category "string_fragment") (start + 1) i.specifier,
      leafAt (.token "'") (start + 1 + byteLength i.specifier) ['\'']]

def node (start : Nat) (i : Import) : Node :=
  let behind := start + 7 + byteLength i.clauseText
  .over "import_statement" (leafAt (.token "import") start importWord)
    [.over "import_clause" (i.namedNode (start + 7)) [],
      leafAt (.token "from") (behind + 1) fromWord, i.literalNode (behind + 6),
      leafAt (.token ";") (behind + 7 + byteLength i.specifier + 1) [';']]

end Import

/-- Behind a name in a list comes a comma or the end of the list. -/
theorem exists_listed (others : List (List Char)) (after : List Char) :
    ∃ c cs, othersText others ++ (' ' :: '\x7d' :: after) = c :: cs ∧ isNamePart c = false ∧
      refuses untyped 1 (.token (keyword "as")) (c :: cs) = true := by
  cases others with
  | nil => exact ⟨' ', '\x7d' :: after, rfl, by decide, rfl⟩
  | cons name others => exact ⟨',', _, rfl, by decide, rfl⟩

/-- The pattern of a name in a list of imports. -/
abbrev listed (literal : Pattern Rule) : Pattern Rule :=
  .node "import_specifier" (.choice [.absent .nothing,
    .seq [.choice [.token (anyWord "identifier"), literal], .optional (.seq [.token (keyword "as"),
      .choice [.token (anyWord "identifier"), literal]])]])

theorem answers_specifier {name : List Char} (isWord : IsWord name) (others : List (List Char))
    (literal : Pattern Rule)
    (long : (' ' :: (name ++ (othersText others ++ (' ' :: '\x7d' :: after)))).length < size) :
    Answers untyped size 20 (listed literal)
      (.amid true false (' ' :: (name ++ (othersText others ++ (' ' :: '\x7d' :: after)))) o st)
      (some (.amid true false (othersText others ++ (' ' :: '\x7d' :: after))
        (o + 1 + byteLength name) (specifierNode (o + 1) name :: st))) := by
  obtain ⟨c, cs, behind, ends, no_alias⟩ := exists_listed others after
  rw [behind] at long ⊢
  obtain ⟨blank, long'⟩ : 1 < size ∧ (c :: cs).length < size := by
    simp only [List.length_append, List.length_cons] at long ⊢
    omega
  refine .over (leafAt (.category "identifier") (o + 1) name) [] rfl ?_
  refine .past 1 (Nat.lt_add_one 1) ?_ ?_
  · exact List.forall_mem_singleton.mpr ((answers_refused rfl long (j := 2) rfl).mono (by decide))
  · refine .both (.left (answers_token (isWord.front_behind _) blank
      (word_of_isWord isWord ends cs) isWord.length_ne_zero)) ?_
    exact .right (.both_none ((answers_refused rfl long' no_alias).mono (by decide)))
      (answers_nothing _)

theorem answers_others (others : List (List Char)) (words : ∀ w ∈ others, IsWord w)
    (literal : Pattern Rule)
    (long : (othersText others ++ (' ' :: '\x7d' :: after)).length < size) :
    Answers untyped size (others.length + 30)
      (.many (.both (.token (punctuation "," [])) (listed literal)))
      (.amid true false (othersText others ++ (' ' :: '\x7d' :: after)) o st)
      (some (.amid true false (' ' :: '\x7d' :: after) (o + byteLength (othersText others))
        ((othersNodes o others).reverse ++ st))) := by
  induction others generalizing o st with
  | nil => exact .done ((answers_refused rfl long (j := 2) rfl).mono (by decide))
  | cons name others ih =>
      obtain ⟨isWord, words⟩ := List.forall_mem_cons.mp words
      let item := ' ' :: (name ++ (othersText others ++ (' ' :: '\x7d' :: after)))
      have text : othersText (name :: others) ++ (' ' :: '\x7d' :: after) =
          [] ++ ([','] ++ item) := by
        simp [othersText, item]
      have ends : o + byteLength (othersText (name :: others)) =
          o + 1 + 1 + byteLength name + byteLength (othersText others) := by
        simp only [othersText, List.flatMap_cons, byteLength_append, byteLength_cons,
          utf8Size_marks]
        omega
      have stack : (othersNodes o (name :: others)).reverse ++ st =
          (othersNodes (o + 1 + 1 + byteLength name) others).reverse ++
            specifierNode (o + 1 + 1) name :: leafAt (.token ",") o [','] :: st := by
        simp [othersNodes, Nat.add_assoc]
      rw [text] at long ⊢
      rw [ends, stack]
      obtain ⟨some_, here, behind⟩ : 0 < size ∧ item.length < size ∧
          (othersText others ++ (' ' :: '\x7d' :: after)).length < size := by
        simp only [item, List.length_append, List.length_cons, List.length_nil] at long ⊢
        omega
      have comma : Fronts untyped [] ([','] ++ item) := ⟨List.all_eq_true.mp rfl, rfl, rfl, rfl⟩
      refine .more (.both (answers_token comma some_ rfl (by decide))
        ((answers_specifier isWord others literal here).mono (by omega))) ?_ (ih words behind)
      exact Nat.ne_of_gt (Nat.lt_add_of_pos_right Nat.two_pos)

theorem answers_named (i : Import) (literal : Pattern Rule)
    (long : (' ' :: (i.clauseText ++ after)).length < size) :
    Answers untyped size (i.others.length + 50)
      (.node "named_imports" (.bracketed true (.seq [.token (punctuation "\x7b" []),
        .seq [.separated (.token (punctuation "," [])) (listed literal),
          .optional (.token (punctuation "," []))], .token (punctuation "\x7d" [])])))
      (.plain (' ' :: (i.clauseText ++ after)) o st)
      (some (.plain after (o + 1 + byteLength i.clauseText)
        (i.namedNode (o + 1) :: st))) := by
  let items := ' ' :: (i.first ++ (othersText i.others ++ (' ' :: '\x7d' :: after)))
  have text : ' ' :: (i.clauseText ++ after) = [' '] ++ (['\x7b'] ++ items) := by
    simp [Import.clauseText, items]
  have ends : o + 1 + byteLength i.clauseText =
      o + 1 + 1 + 1 + byteLength i.first + byteLength (othersText i.others) + 1 + 1 := by
    simp only [Import.clauseText, byteLength_append, byteLength_cons, byteLength_nil,
      utf8Size_marks]
    omega
  obtain ⟨isWord, words⟩ := List.forall_mem_cons.mp i.words
  rw [text] at long ⊢
  rw [ends]
  obtain ⟨blank, first, others, behind⟩ : 1 < size ∧ items.length < size ∧
      (othersText i.others ++ (' ' :: '\x7d' :: after)).length < size ∧
      (' ' :: '\x7d' :: after).length < size := by
    simp only [items, List.length_append, List.length_cons, List.length_nil] at long ⊢
    omega
  have opening : Fronts untyped [' '] (['\x7b'] ++ items) :=
    ⟨List.all_eq_true.mp rfl, rfl, rfl, rfl⟩
  have closing : Fronts untyped [' '] (['\x7d'] ++ after) :=
    ⟨List.all_eq_true.mp rfl, rfl, rfl, rfl⟩
  let brace := leafAt (.token "\x7b") (o + 1) ['\x7b']
  let name := specifierNode (o + 1 + 2) i.first
  let nodes := othersNodes (o + 1 + 2 + byteLength i.first) i.others
  let last := leafAt (.token "\x7d")
    (o + 1 + 2 + byteLength i.first + byteLength (othersText i.others) + 1) ['\x7d']
  have stack : (brace :: name :: (nodes ++ [last])).reverse ++ st =
      last :: (nodes.reverse ++ name :: brace :: st) := by simp
  have list : Answers untyped size (i.others.length + 42)
      (.separated (.token (punctuation "," [])) (listed literal))
      (.amid true false items (o + 1 + 1) (brace :: st))
      (some (.amid true false (' ' :: '\x7d' :: after)
        (o + 1 + 1 + 1 + byteLength i.first + byteLength (othersText i.others))
        (nodes.reverse ++ name :: brace :: st))) :=
    .left (.both ((answers_specifier isWord i.others literal first).mono (by omega))
      ((answers_others i.others words literal others).mono (by omega)))
  have no_comma : Answers untyped size (i.others.length + 44) (.token (punctuation "," []))
      (.amid true false (' ' :: '\x7d' :: after)
        (o + 1 + 1 + 1 + byteLength i.first + byteLength (othersText i.others))
        (nodes.reverse ++ name :: brace :: st)) none :=
    (answers_refused rfl behind (j := 1) rfl).mono (by omega)
  refine .over brace (name :: (nodes ++ [last])) rfl (.inside ?_)
  rw [stack]
  refine .both (answers_token opening blank rfl (by decide)) ?_
  refine .both (.both (list.mono (by omega)) no_comma.idle) ?_
  exact answers_token closing blank rfl (by decide)

theorem stringTail_append {quote : Char} {cs : List Char}
    (plain : ∀ c ∈ cs, c ≠ quote ∧ c ≠ '\\' ∧ c ≠ '\n' ∧ c ≠ '\r') (after : List Char)
    (no_backslash : quote ≠ '\\') :
    stringTail quote (cs ++ quote :: after) = cs.length := by
  induction cs with
  | nil =>
      rw [List.nil_append, stringTail.eq_3 _ _ _ (fun _ _ same _ => no_backslash same),
        beq_self_eq_true]
      rfl
  | cons c cs ih =>
      obtain ⟨own, plain⟩ := List.forall_mem_cons.mp plain
      rw [List.cons_append, stringTail.eq_3 _ _ _ (fun _ _ same _ => own.2.1 same), ih plain]
      simp [own]

theorem answers_literal (i : Import)
    (long : (' ' :: '\'' :: (i.specifier ++ '\'' :: after)).length < size) (other : Pattern Rule)
    (no_other : refuses untyped 10 other (' ' :: '\'' :: (i.specifier ++ '\'' :: after)) = true) :
    Answers untyped size 20
      (.choice [other, .node "string" (.seq [.token (punctuation "'" []),
        .optional (.attached (stringText '\'')), .attached (punctuation "'" [])])])
      (.plain (' ' :: '\'' :: (i.specifier ++ '\'' :: after)) o st)
      (some (.plain after (o + 1 + 1 + byteLength i.specifier + 1)
        (i.literalNode (o + 1) :: st))) := by
  have quote : Fronts untyped [' '] (['\''] ++ (i.specifier ++ '\'' :: after)) :=
    ⟨List.all_eq_true.mp rfl, rfl, rfl, rfl⟩
  have blank : 1 < size := by
    simp only [List.length_cons] at long
    omega
  have inside : (stringText '\'').scan (i.specifier ++ '\'' :: after) = i.specifier.length :=
    stringTail_append i.plain after (by decide)
  have closing : (punctuation "'" []).scan (['\''] ++ after) = 1 := rfl
  refine .right ((answers_refused rfl long no_other).mono (by decide)) ?_
  refine .over (leafAt (.token "'") (o + 1) ['\'']) [_, _] rfl ?_
  refine .both (answers_token quote blank rfl (by decide)) ?_
  refine .both (.left (answers_attached inside ?_)) (answers_attached closing (by decide))
  simpa using i.some_specifier

theorem answers_import (i : Import) (long : (i.text ++ after).length < size) :
    Answers untyped size (i.others.length + 80) (.rule .statement)
      (.plain (i.text ++ after) o st)
      (some (.plain after (o + byteLength i.text) (i.node o :: st))) := by
  let literal := ' ' :: '\'' :: (i.specifier ++ '\'' :: ';' :: after)
  let clause := i.clauseText ++ ([' '] ++ (fromWord ++ literal))
  have text : i.text ++ after = [] ++ (importWord ++ (' ' :: clause)) := by
    simp [Import.text, clause, literal]
  have ends : o + byteLength i.text = o + 6 + 1 + byteLength i.clauseText + 1 + 4 + 1 + 1 +
      byteLength i.specifier + 1 + 1 := by
    simp only [Import.text, byteLength_append, byteLength_cons, byteLength_nil, utf8Size_marks]
    omega
  rw [text] at long ⊢
  rw [ends]
  obtain ⟨blank, some_, clause_long, literal_long, behind⟩ : 1 < size ∧ 0 < size ∧
      (' ' :: clause).length < size ∧ literal.length < size ∧ (';' :: after).length < size := by
    simp only [clause, literal, List.length_append, List.length_cons, List.length_nil] at long ⊢
    omega
  have front : Fronts untyped [] (importWord ++ (' ' :: clause)) :=
    ⟨List.all_eq_true.mp rfl, rfl, rfl, rfl⟩
  have brace : Fronts untyped [' '] clause := ⟨List.all_eq_true.mp rfl, rfl, rfl, rfl⟩
  have from_ : Fronts untyped [' '] (fromWord ++ literal) :=
    ⟨List.all_eq_true.mp rfl, rfl, rfl, rfl⟩
  have ending : Fronts untyped [] (';' :: after) := ⟨List.all_eq_true.mp rfl, rfl, rfl, rfl⟩
  apply Answers.plain_rule rfl
  refine .beyond (j := 20) 1 (by decide) front rfl rfl some_ (by omega) rfl (.left ?_)
  refine .over (leafAt (.token "import") o importWord) [_, _, _, _] rfl ?_
  refine .both (answers_token front some_ rfl (by decide)) ?_
  refine .both (answers_ahead brace blank rfl) ?_
  refine .beyond (j := 20) 1 (by decide) brace rfl rfl blank (by omega) rfl ?_
  refine .both (.over (i.namedNode (o + 7)) [] rfl
    (.beyond (j := 20) 1 (by decide) brace rfl rfl blank (by omega) rfl
      (.left ((answers_named i _ clause_long).mono (by omega))))) ?_
  refine .both (.both (answers_token from_ blank rfl (by decide))
    ((answers_literal i literal_long _ rfl).mono (by omega))) ?_
  refine .both (.idle ((answers_refused rfl behind (j := 10) rfl).mono (by omega))) ?_
  exact answers_semicolon ending some_ rfl

/-- Constants, one on each line. -/
def script (cs : List Constant) : List Char := cs.flatMap fun c => c.text ++ ['\n']

def nodesAt : Nat → List Constant → List Node
  | _, [] => []
  | start, c :: cs => c.node start :: nodesAt (start + byteLength c.text + 1) cs

theorem script_cons (c : Constant) (cs : List Constant) :
    script (c :: cs) = c.text ++ '\n' :: script cs := by
  simp [script]

theorem length_le_length_flatMap {α β : Type} {f : α → List β} (some_ : ∀ a, f a ≠ [])
    (as : List α) : as.length ≤ (as.flatMap f).length := by
  induction as with
  | nil => exact Nat.zero_le _
  | cons a as ih =>
      have := List.length_pos_iff.mpr (some_ a)
      rw [List.flatMap_cons, List.length_append, List.length_cons]
      omega

theorem length_attributes_le {c : Constant} {cs : List Constant} (member : c ∈ cs) :
    c.attributes.length ≤ (script cs).length := by
  have own : c.attributes.length ≤ (attributesText c.attributes).length :=
    length_le_length_flatMap (fun _ => List.cons_ne_nil _ _) c.attributes
  obtain ⟨before, after, rfl⟩ := List.append_of_mem member
  simp only [script, List.flatMap_append, List.flatMap_cons, Constant.text,
    Constant.declaratorText, Constant.tagText, List.length_append, List.length_cons]
  omega

/-- No statement stands behind the last line. -/
theorem no_statement : refuses untyped 100 (.rule .statement) ['\n'] = true := by
  decide +kernel

theorem answers_lines (cs : List Constant) {bound : Nat}
    (few : ∀ c ∈ cs, c.attributes.length ≤ bound) (long : ('\n' :: script cs).length < size) :
    Answers untyped size (cs.length + bound + 170) (.many (.rule .statement))
      (.plain ('\n' :: script cs) o st)
      (some (.plain ['\n'] (o + byteLength (script cs)) ((nodesAt (o + 1) cs).reverse ++ st))) := by
  induction cs generalizing o st with
  | nil => exact .done ((answers_refused rfl long no_statement).mono (by omega))
  | cons c cs ih =>
      obtain ⟨own, few⟩ := List.forall_mem_cons.mp few
      have text : '\n' :: script (c :: cs) = ['\n'] ++ (c.text ++ '\n' :: script cs) := by
        rw [script_cons]
        rfl
      have ends : o + byteLength (script (c :: cs)) =
          o + 1 + byteLength c.text + byteLength (script cs) := by
        rw [script_cons]
        simp only [byteLength_append, byteLength_cons, utf8Size_marks]
        omega
      have stack : (nodesAt (o + 1) (c :: cs)).reverse ++ st =
          (nodesAt (o + 1 + byteLength c.text + 1) cs).reverse ++ c.node (o + 1) :: st := by
        simp [nodesAt]
      rw [text] at long ⊢
      rw [ends, stack]
      have behind : ('\n' :: script cs).length < size := by
        rw [List.length_append, List.length_append] at long
        omega
      rw [List.length_cons]
      exact .more ((answers_constant c (.inr rfl) long).mono (by omega))
        (Nat.succ_ne_self st.length) ((ih few behind).mono (by omega))

/-- A script of one statement and constants behind it has their nodes. -/
theorem parse_lines {lead : List Char} {node : Node} (cs : List Constant) {k : Nat}
    (few : k ≤ lead.length + 1000)
    (start : Cursor.start (lead ++ '\n' :: script cs) = .plain (lead ++ '\n' :: script cs) 0 [])
    (no_interpreter : refuses untyped 1 (.token hashBang) (lead ++ '\n' :: script cs) = true)
    (first : Answers untyped ((lead ++ '\n' :: script cs).length + 1) k (.rule .statement)
      (.plain (lead ++ '\n' :: script cs) 0 [])
      (some (.plain ('\n' :: script cs) (byteLength lead) [node]))) :
    parse untyped (lead ++ '\n' :: script cs) = .mk (.category "program") none
      ⟨0, byteLength (lead ++ '\n' :: script cs)⟩ (node :: nodesAt (byteLength lead + 1) cs) := by
  have ends : byteLength (lead ++ '\n' :: script cs) =
      byteLength lead + byteLength (script cs) + 1 := by
    simp only [byteLength_append, byteLength_cons, utf8Size_marks]
    omega
  have size : (lead ++ '\n' :: script cs).length = lead.length + (script cs).length + 1 := by
    simp [Nat.add_assoc]
  have long : ('\n' :: script cs).length < (lead ++ '\n' :: script cs).length + 1 := by
    rw [List.length_append]
    omega
  have few_lines : cs.length ≤ (script cs).length :=
    length_le_length_flatMap (f := fun c : Constant => c.text ++ ['\n']) (by simp) cs
  have interpreter : Answers untyped ((lead ++ '\n' :: script cs).length + 1) 1 (.token hashBang)
      (.plain (lead ++ '\n' :: script cs) 0 []) none :=
    answers_refused rfl (Nat.lt_succ_self (lead ++ '\n' :: script cs).length) no_interpreter
  have all : Answers untyped ((lead ++ '\n' :: script cs).length + 1)
      (cs.length + (script cs).length + k + 170 + 4) (.rule .program)
      (Cursor.start (lead ++ '\n' :: script cs))
      (some (.plain ['\n'] (byteLength lead + byteLength (script cs))
        ((nodesAt (byteLength lead + 1) cs).reverse ++ [node]))) := by
    rw [start]
    apply Answers.plain_rule rfl
    refine .both (.idle (interpreter.mono (by omega))) ?_
    refine .more (first.mono (by omega)) (Nat.succ_ne_self 0) ?_
    exact (answers_lines cs (fun c member => length_attributes_le member) long).mono (by omega)
  have fuel : cs.length + (script cs).length + k + 170 + 4 ≤
      120 * ((lead ++ '\n' :: script cs).length + 1) + 2000 := by
    omega
  have last : Fronts untyped ['\n'] [] := ⟨List.all_eq_true.mp rfl, rfl, rfl, rfl⟩
  have stack : ((nodesAt (byteLength lead + 1) cs).reverse ++ [node]).reverse =
      node :: nodesAt (byteLength lead + 1) cs := by simp
  rw [parse_of_passed fuel all (passTrivia_fronts rfl last (by rw [size]; simp)), start, ends,
    ← stack]
  rfl

/-- A script of constants is read as they are, without a fault. -/
theorem parse_script (c : Constant) (cs : List Constant) :
    parse untyped (script (c :: cs)) = .mk (.category "program") none
      ⟨0, byteLength (script (c :: cs))⟩ (nodesAt 0 (c :: cs)) := by
  have few : c.attributes.length + 160 ≤ c.text.length + 1000 := by
    have := length_attributes_le (List.mem_singleton_self c)
    simp only [script, List.flatMap_singleton, List.length_append, List.length_singleton] at this
    omega
  have long := Nat.lt_succ_self ([] ++ (c.text ++ '\n' :: script cs)).length
  have first : Answers untyped _ _ (.rule .statement)
      (.plain ([] ++ (c.text ++ '\n' :: script cs)) 0 []) _ := answers_constant c (.inl rfl) long
  rw [script_cons, nodesAt, Nat.zero_add]
  exact parse_lines cs few rfl rfl (by simpa using first)

theorem parse_imported (i : Import) (cs : List Constant) :
    parse untyped (i.text ++ '\n' :: script cs) = .mk (.category "program") none
      ⟨0, byteLength (i.text ++ '\n' :: script cs)⟩
      (i.node 0 :: nodesAt (byteLength i.text + 1) cs) := by
  have few : i.others.length + 80 ≤ i.text.length + 1000 := by
    have others : i.others.length ≤ (othersText i.others).length :=
      length_le_length_flatMap (fun _ => List.cons_ne_nil _ _) i.others
    simp only [Import.text, Import.clauseText, List.length_append, List.length_cons]
    omega
  refine parse_lines cs few rfl rfl ?_
  have long := Nat.lt_succ_self (i.text ++ '\n' :: script cs).length
  have first : Answers untyped _ _ (.rule .statement) (.plain (i.text ++ '\n' :: script cs) 0 [])
      _ := answers_import i long
  rwa [Nat.zero_add] at first

end Restyle.Script
