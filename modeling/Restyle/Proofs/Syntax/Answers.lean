import Restyle.Proofs.Syntax.Leaving
/-!
What the reader answers. Without repairs, and given enough fuel, its answer depends neither on the
fuel nor on what it noted on its way. The lemmas below give the answer for a pattern by the answers
for its parts, and a check that decides for most patterns that they do not stand at the front of a
text.
-/

namespace Restyle.Syntax

open Text (byteLength byteLength_append)

variable {Rule : Type}

/-- Without repairs, a reading with `enough` fuel or more answers `r`. -/
def Answers (g : Grammar Rule) (size enough : Nat) (p : Pattern Rule) (c : Cursor)
    (r : Option Cursor) : Prop :=
  ∀ fuel boundaries f, enough ≤ fuel → (read g [] size fuel p boundaries c f).1 = r

/-- The same for the tails of a chain that begins at a height. -/
def AnswersTail (g : Grammar Rule) (size enough : Nat) (tails : List (String × Pattern Rule))
    (height : Nat) (c : Cursor) (r : Option Cursor) : Prop :=
  ∀ fuel boundaries f, enough ≤ fuel →
    (readTail g [] size fuel tails boundaries height c f).1 = r

/-- A chain that begins at a height and has come to `c` grows as far as `d`. -/
def Grows (g : Grammar Rule) (size enough : Nat) (tails : List (String × Pattern Rule))
    (height : Nat) (c d : Cursor) : Prop :=
  ∀ fuel boundaries f, enough ≤ fuel →
    (grow g [] size fuel tails boundaries height c f).1 = some d

variable {g : Grammar Rule} {size k : Nat} {p q : Pattern Rule} {c d e : Cursor}
  {r : Option Cursor}

theorem Answers.mono {j : Nat} (h : Answers g size j p c r) (le : j ≤ k) :
    Answers g size k p c r :=
  fun fuel boundaries f enough => h fuel boundaries f (Nat.le_trans le enough)

theorem exists_fuel {fuel : Nat} (enough : k + 1 ≤ fuel) : ∃ m, fuel = m + 1 ∧ k ≤ m :=
  ⟨fuel - 1, by omega, by omega⟩

theorem exists_frontier {answer : Option Cursor × Frontier} (h : answer.1 = r) :
    ∃ f, answer = (r, f) :=
  ⟨answer.2, by rw [← h]⟩

theorem answers_succ (h : ∀ fuel boundaries f, k ≤ fuel →
    (read g [] size (fuel + 1) p boundaries c f).1 = r) : Answers g size (k + 1) p c r := by
  intro fuel boundaries f enough
  obtain ⟨m, rfl, le⟩ := exists_fuel enough
  exact h m boundaries f le

/-- Where the nodes at the end have no fault, they lie one after another in the source. -/
theorem Answers.sited {source : List Char} (h : Answers g size k p c (some d)) (clean : d.Clean)
    (before : c.Sited source) : d.Sited source := by
  obtain ⟨f, taken⟩ := exists_frontier (h k [] .none (Nat.le_refl k))
  have reads := (((reading_reads k).1 p [] c .none).of_some taken clean).2
  exact reads.sited before

theorem answers_nothing (c : Cursor) : Answers g size (k + 1) .nothing c (some c) :=
  answers_succ fun _ _ _ _ => rfl

theorem Answers.both (first : Answers g size k p c (some d)) (second : Answers g size k q d r) :
    Answers g size (k + 1) (.both p q) c r := by
  apply answers_succ
  intro fuel boundaries f enough
  obtain ⟨f', taken⟩ := exists_frontier (first fuel boundaries f enough)
  rw [read, taken]
  exact second fuel _ f' enough

theorem Answers.both_none (first : Answers g size k p c none) :
    Answers g size (k + 1) (.both p q) c none := by
  apply answers_succ
  intro fuel boundaries f enough
  obtain ⟨f', refused⟩ := exists_frontier (first fuel boundaries f enough)
  rw [read, refused]

theorem Answers.left (first : Answers g size k p c (some d)) :
    Answers g size (k + 1) (.either p q) c (some d) := by
  apply answers_succ
  intro fuel boundaries f enough
  obtain ⟨f', taken⟩ := exists_frontier (first fuel boundaries f enough)
  rw [read, taken]

theorem Answers.right (first : Answers g size k p c none) (second : Answers g size k q c r) :
    Answers g size (k + 1) (.either p q) c r := by
  apply answers_succ
  intro fuel boundaries f enough
  obtain ⟨f', refused⟩ := exists_frontier (first fuel boundaries f enough)
  rw [read, refused]
  exact second fuel boundaries f' enough

theorem Answers.done (first : Answers g size k p c none) :
    Answers g size (k + 1) (.many p) c (some c) := by
  apply answers_succ
  intro fuel boundaries f enough
  obtain ⟨f', refused⟩ := exists_frontier (first fuel _ f enough)
  rw [read, refused]

theorem Answers.idle (alone : Answers g size (k + 1) p c none) :
    Answers g size (k + 2) (.optional p) c (some c) :=
  alone.right (answers_nothing c)

/-- A list of one item, behind which no separator stands. -/
theorem Answers.single (first : Answers g size k p c (some d)) (alone : Answers g size k q d none) :
    Answers g size (k + 3) (.separated1 q p) c (some d) :=
  Answers.both (first.mono (Nat.le_add_right k 2)) (Answers.done (Answers.both_none alone))

theorem Answers.more (first : Answers g size k p c (some d)) (longer : d.height ≠ c.height)
    (later : Answers g size k (.many p) d r) : Answers g size (k + 1) (.many p) c r := by
  apply answers_succ
  intro fuel boundaries f enough
  obtain ⟨f', taken⟩ := exists_frontier (first fuel _ f enough)
  rw [read, taken]
  dsimp only
  rw [if_neg (by simp [longer])]
  exact later fuel boundaries f' enough

theorem Answers.rule {x : Rule} (inner : Answers g size k (g.rules x) c (some d)) :
    Answers g size (k + 1) (.rule x) c
      (some { d.settle with operand := d.operand || g.isOperand x }) := by
  apply answers_succ
  intro fuel boundaries f enough
  obtain ⟨f', taken⟩ := exists_frontier (inner fuel boundaries f enough)
  rw [read, taken]

theorem Answers.node {name : String} (inner : Answers g size k p c (some d)) :
    Answers g size (k + 1) (.node name p) c (some (d.close name c.height)) := by
  apply answers_succ
  intro fuel boundaries f enough
  obtain ⟨f', taken⟩ := exists_frontier (inner fuel boundaries f enough)
  rw [read, taken]

theorem Answers.node_none {name : String} (inner : Answers g size k p c none) :
    Answers g size (k + 1) (.node name p) c none := by
  apply answers_succ
  intro fuel boundaries f enough
  obtain ⟨f', refused⟩ := exists_frontier (inner fuel boundaries f enough)
  rw [read, refused]

theorem Answers.role {x : Role} (inner : Answers g size k p c (some d)) :
    Answers g size (k + 1) (.role x p) c (some (d.assign x)) := by
  apply answers_succ
  intro fuel boundaries f enough
  obtain ⟨f', taken⟩ := exists_frontier (inner fuel boundaries f enough)
  rw [read, taken]

theorem Answers.bracketed {inside : Bool}
    (inner : Answers g size k p { c with bracketed := inside } (some d)) :
    Answers g size (k + 1) (.bracketed inside p) c (some { d with bracketed := c.bracketed }) := by
  apply answers_succ
  intro fuel boundaries f enough
  obtain ⟨f', taken⟩ := exists_frontier (inner fuel boundaries f enough)
  rw [read, taken]

theorem answers_last {test : Node → Bool} (passed : c.stack.head?.any test = true) :
    Answers g size (k + 1) (.last test) c (some c) :=
  answers_succ fun _ _ _ _ => by rw [read, if_pos passed]

theorem answers_last_none {test : Node → Bool} (failed : c.stack.head?.any test = false) :
    Answers g size (k + 1) (.last test) c none :=
  answers_succ fun _ _ _ _ => by rw [read, failed]; rfl

section

variable {tails : List (String × Pattern Rule)} {height : Nat}

theorem answersTail_nil (c : Cursor) : AnswersTail g size k [] height c none := by
  intro fuel boundaries f enough
  cases fuel <;> rfl

theorem AnswersTail.cons_none {t : String × Pattern Rule} (first : Answers g size k t.2 c none)
    (others : AnswersTail g size k tails height c r) :
    AnswersTail g size (k + 1) (t :: tails) height c r := by
  intro fuel boundaries f enough
  obtain ⟨m, rfl, le⟩ := exists_fuel enough
  obtain ⟨f', refused⟩ := exists_frontier (first m boundaries f le)
  rw [readTail, refused]
  exact others m boundaries f' le

theorem AnswersTail.cons {name : String} (first : Answers g size k p c (some d)) :
    AnswersTail g size (k + 1) ((name, p) :: tails) height c
      (some { d.close name height with operand := c.operand }) := by
  intro fuel boundaries f enough
  obtain ⟨m, rfl, le⟩ := exists_fuel enough
  obtain ⟨f', taken⟩ := exists_frontier (first m boundaries f le)
  rw [readTail, taken]

theorem grows_none (none_ : AnswersTail g size k tails height c none) :
    Grows g size (k + 1) tails height c c := by
  intro fuel boundaries f enough
  obtain ⟨m, rfl, le⟩ := exists_fuel enough
  obtain ⟨f', refused⟩ := exists_frontier (none_ m (⟨c.offset, c.height⟩ :: boundaries) f le)
  rw [grow, refused]

theorem Grows.mono {j : Nat} (h : Grows g size j tails height c d) (le : j ≤ k) :
    Grows g size k tails height c d :=
  fun fuel boundaries f enough => h fuel boundaries f (Nat.le_trans le enough)

theorem Grows.step (one : AnswersTail g size k tails height c (some d))
    (later : Grows g size k tails height d e) : Grows g size (k + 1) tails height c e := by
  intro fuel boundaries f enough
  obtain ⟨m, rfl, le⟩ := exists_fuel enough
  obtain ⟨f', taken⟩ := exists_frontier (one m (⟨c.offset, c.height⟩ :: boundaries) f le)
  rw [grow, taken]
  exact later m boundaries f' le

theorem Answers.chain {h : Pattern Rule} (head : Answers g size k h c (some d))
    (growth : Grows g size k tails c.height d e) :
    Answers g size (k + 1) (.chain h tails) c (some e) := by
  apply answers_succ
  intro fuel boundaries f enough
  obtain ⟨f', taken⟩ := exists_frontier (head fuel boundaries f enough)
  rw [read, taken]
  exact growth fuel boundaries f' enough

theorem Answers.ending {h : Pattern Rule} (head : Answers g size k h c (some d))
    (tail : AnswersTail g size k tails c.height d r) :
    Answers g size (k + 1) (.ending h tails) c r := by
  apply answers_succ
  intro fuel boundaries f enough
  obtain ⟨f', taken⟩ := exists_frontier (head fuel boundaries f enough)
  rw [read, taken]
  exact tail fuel _ f' enough

end

/-- A cursor to which nothing was supplied, in brackets or not, and behind an operand or not. -/
def Cursor.amid (bracketed operand : Bool) (rest : List Char) (offset : Nat) (stack : List Node) :
    Cursor :=
  ⟨rest, offset, stack, stack.length, .none, bracketed, operand⟩

abbrev Cursor.plain : List Char → Nat → List Node → Cursor := .amid false false

def leafAt (kind : Kind) (start : Nat) (word : List Char) : Node :=
  .mk kind none ⟨start, start + byteLength word⟩ []

theorem commentAhead?_eq_none (no_comment : g.comment c.rest = 0)
    (no_html : g.htmlComment c.rest = 0) : commentAhead? g c = none := by
  rw [commentAhead?, no_comment, no_html]

/-- At the front of a text stand blanks only, and then neither a blank nor a comment. -/
structure Fronts (g : Grammar Rule) (blanks rest : List Char) : Prop where
  blank : ∀ b ∈ blanks, g.isBlank b = true
  mark : rest.head?.all (!g.isBlank ·) = true
  no_comment : g.comment rest = 0
  no_html : g.htmlComment rest = 0

theorem Cursor.advance_cons {b : Char} {rest : List Char} (ahead : c.rest = b :: rest) (n : Nat) :
    c.advance (n + 1) = ({ c with rest := rest, offset := c.offset + b.utf8Size }).advance n := by
  simp [Cursor.advance, ahead, Nat.add_assoc]

theorem passTrivia_fronts {blanks rest : List Char} (ahead : c.rest = blanks ++ rest)
    (fronts : Fronts g blanks rest) (long : blanks.length < size) :
    passTrivia g [] size c = c.advance blanks.length := by
  obtain ⟨n, rfl⟩ : ∃ n, size = n + 1 := Nat.exists_eq_succ_of_ne_zero (by omega)
  induction blanks generalizing c n with
  | nil =>
      rw [List.nil_append] at ahead
      unfold passTrivia
      rw [ahead]
      cases rest with
      | nil => rfl
      | cons ch cs =>
          have mark : g.isBlank ch = false := by simpa using fronts.mark
          have none := commentAhead?_eq_none (ahead ▸ fronts.no_comment) (ahead ▸ fronts.no_html)
          simp only [skipAt?, List.findSome?_nil, mark, none]
          rfl
  | cons b blanks ih =>
      obtain ⟨blank, others⟩ := List.forall_mem_cons.mp fronts.blank
      obtain ⟨m, rfl⟩ : ∃ m, n = m + 1 :=
        Nat.exists_eq_succ_of_ne_zero (by simp only [List.length_cons] at long; omega)
      rw [List.cons_append] at ahead
      rw [List.length_cons, Cursor.advance_cons ahead,
        ← ih rfl ⟨others, fronts.mark, fronts.no_comment, fronts.no_html⟩ m (by simpa using long)]
      conv => lhs; unfold passTrivia
      rw [ahead]
      simp only [skipAt?, List.findSome?_nil, blank, if_true]

theorem readToken_fst {l : Lexeme} {boundaries : List Boundary} {before here : Cursor}
    {f : Frontier} (supply : before.supply = .none) :
    (readToken g [] l boundaries before here f).1 =
      if l.scan here.rest = 0 then none else some (here.take l.kind (l.scan here.rest)) := by
  unfold readToken
  rw [supply]
  by_cases stands : l.scan here.rest = 0
  · simp [stands, suppliedAt]
  · simp [stands, fitsBehindSkip, skipAt?]

theorem answers_token_none {l : Lexeme} {blanks rest : List Char} (fronts : Fronts g blanks rest)
    (ahead : c.rest = blanks ++ rest) (supply : c.supply = .none) (long : blanks.length < size)
    (scan : l.scan rest = 0) : Answers g size (k + 1) (.token l) c none := by
  apply answers_succ
  intro fuel boundaries f _
  have left : (c.advance blanks.length).rest = rest := by
    rw [Cursor.advance, ahead]
    exact List.drop_left
  rw [read, passTrivia_fronts ahead fronts long, readToken_fst supply, left, scan, if_pos rfl]

section

variable {l : Lexeme} {blanks word after : List Char} {o : Nat} {st : List Node} {b op : Bool}

theorem advance_amid :
    (Cursor.amid b op (blanks ++ after) o st).advance blanks.length =
      .amid b op after (o + byteLength blanks) st := by
  simp [Cursor.advance, Cursor.amid]

theorem take_amid (kind : Kind) :
    (Cursor.amid b op (word ++ after) o st).take kind word.length =
      .amid b false after (o + byteLength word) (leafAt kind o word :: st) := by
  simp [Cursor.take, Cursor.advance, Cursor.push, Cursor.amid, leafAt]

theorem answers_token (fronts : Fronts g blanks (word ++ after)) (long : blanks.length < size)
    (scan : l.scan (word ++ after) = word.length) (some_ : word.length ≠ 0) :
    Answers g size (k + 1) (.token l) (.amid b op (blanks ++ (word ++ after)) o st)
      (some (.amid b false after (o + byteLength blanks + byteLength word)
        (leafAt l.kind (o + byteLength blanks) word :: st))) := by
  apply answers_succ
  intro fuel boundaries f _
  have passed := passTrivia_fronts (c := .amid b op (blanks ++ (word ++ after)) o st) rfl fronts
    long
  have ahead : (Cursor.amid b op (word ++ after) (o + byteLength blanks) st).rest =
    word ++ after := rfl
  rw [read, passed, advance_amid, readToken_fst rfl, ahead, scan, if_neg some_, take_amid]

theorem answers_attached (scan : l.scan (word ++ after) = word.length)
    (some_ : word.length ≠ 0) :
    Answers g size (k + 1) (.attached l) (.amid b op (word ++ after) o st)
      (some (.amid b false after (o + byteLength word) (leafAt l.kind o word :: st))) := by
  apply answers_succ
  intro fuel boundaries f _
  have here : passSkip [] (Cursor.amid b op (word ++ after) o st) =
    .amid b op (word ++ after) o st := rfl
  have ahead : (Cursor.amid b op (word ++ after) o st).rest = word ++ after := rfl
  rw [read, here, readToken_fst rfl, ahead, scan, if_neg some_, take_amid]

theorem answers_ahead {test : List Char → Bool} (fronts : Fronts g blanks after)
    (long : blanks.length < size) (passed : test after = true) :
    Answers g size (k + 1) (.ahead test) (.amid b op (blanks ++ after) o st)
      (some (.amid b op (blanks ++ after) o st)) := by
  apply answers_succ
  intro fuel boundaries f _
  have behind := passTrivia_fronts (c := .amid b op (blanks ++ after) o st) rfl fronts long
  have ahead : (Cursor.amid b op after (o + byteLength blanks) st).rest = after := rfl
  rw [read, behind, advance_amid, ahead, if_pos passed]

theorem semicolonPlace?_eq_none {ch : Char} (ahead : c.rest = ch :: after)
    (fronts : Fronts g [] (ch :: after)) (needed : g.semicolonUnderstood c.operand c.rest = false)
    (fuel : Nat) : semicolonPlace? g [] fuel c = none := by
  cases fuel with
  | zero => rfl
  | succ fuel =>
      have mark : g.isBlank ch = false := by simpa using fronts.mark
      have no_comment : passComment? g c = none := by
        have blanks : c.rest.takeWhile g.isBlank = [] := by
          rw [ahead, List.takeWhile_cons_of_neg (by simp [mark])]
        have here : (c.advance 0).rest = ch :: after := ahead
        rw [passComment?, blanks]
        dsimp only [List.length_nil]
        rw [here, fronts.no_comment]
      simp only [semicolonPlace?, skipAt?, List.findSome?_nil, Option.isSome_none, needed,
        no_comment, Bool.false_eq_true, if_false]

/-- A semicolon that is written is read, where none is understood in front of it. -/
theorem answers_semicolon (fronts : Fronts g [] (';' :: after)) (some_ : 0 < size)
    (needed : g.semicolonUnderstood op (';' :: after) = false) :
    Answers g size (k + 1) .semicolon (.amid b op (';' :: after) o st)
      (some (.amid b false after (o + 1) (leafAt (.token ";") o [';'] :: st))) := by
  apply answers_succ
  intro fuel boundaries f _
  have place := semicolonPlace?_eq_none (c := .amid b op (';' :: after) o st) rfl fronts needed size
  have none_ : (Cursor.amid b op (';' :: after) o st).supply = .none := rfl
  have here := passTrivia_fronts (c := .amid b op (';' :: after) o st) rfl fronts some_
  have taken : (Cursor.amid b op ([';'] ++ after) o st).take (.token ";") [';'].length =
    .amid b false after (o + 1) (leafAt (.token ";") o [';'] :: st) := take_amid (.token ";")
  rw [read, none_, beq_self_eq_true, if_pos rfl, place, here]
  exact (readToken_fst none_).trans (congrArg some taken)

end

def Node.over (name : String) (first : Node) (others : List Node) : Node :=
  .mk (.category name) none
    ⟨first.span.start, ((first :: others).getLast (List.cons_ne_nil first others)).span.stop⟩
    (first :: others)

section

variable {name : String} {rest rest' : List Char} {o o' : Nat} {st : List Node}
  {b b' op op' : Bool}

theorem close_amid (first : Node) (others : List Node) (own : Cursor.isExtra first = false) :
    (Cursor.amid b op rest o ((first :: others).reverse ++ st)).close name st.length =
      .amid b op rest o (.over name first others :: st) := by
  have parts : ((first :: others).reverse ++ st).length - st.length =
      (first :: others).reverse.length := by
    rw [List.length_append, Nat.add_sub_cancel]
  have span : (first :: others).getLast? =
      some ((first :: others).getLast (List.cons_ne_nil first others)) :=
    List.getLast?_eq_some_getLast _
  simp only [Cursor.close, Cursor.amid, parts, List.take_left, List.drop_left,
    List.reverse_reverse, List.takeWhile_cons, List.dropWhile_cons, own, Bool.false_eq_true,
    if_false, List.head?_cons, span]
  rfl

theorem Answers.over (first : Node) (others : List Node) (own : Cursor.isExtra first = false)
    (inner : Answers g size k p (.amid b op rest o st)
      (some (.amid b' op' rest' o' ((first :: others).reverse ++ st)))) :
    Answers g size (k + 1) (.node name p) (.amid b op rest o st)
      (some (.amid b' op' rest' o' (.over name first others :: st))) := by
  rw [← close_amid first others own]
  exact Answers.node inner

/-- A tail closes what it reads together with the head. -/
theorem AnswersTail.over {tails : List (String × Pattern Rule)} (first : Node) (others : List Node)
    (own : Cursor.isExtra first = false)
    (inner : Answers g size k p c (some (.amid b op rest o ((first :: others).reverse ++ st)))) :
    AnswersTail g size (k + 1) ((name, p) :: tails) st.length c
      (some (.amid b c.operand rest o (.over name first others :: st))) := by
  have closed : (Cursor.amid b c.operand rest o (.over name first others :: st)) =
      { (Cursor.amid b op rest o ((first :: others).reverse ++ st)).close name st.length with
        operand := c.operand } := by
    rw [close_amid first others own]
    rfl
  rw [closed]
  exact AnswersTail.cons inner

theorem Answers.inside {inside : Bool} {st' : List Node}
    (inner : Answers g size k p (.amid inside op rest o st)
      (some (.amid inside op' rest' o' st'))) :
    Answers g size (k + 1) (.bracketed inside p) (.amid b op rest o st)
      (some (.amid b op' rest' o' st')) :=
  Answers.bracketed (c := .amid b op rest o st) (d := .amid inside op' rest' o' st') inner

/-- What a tail reads behind a head is closed together with all of the head. -/
theorem Answers.ended {h : Pattern Rule} {tails : List (String × Pattern Rule)}
    {rest'' : List Char} {o'' : Nat} {b'' op'' : Bool} (first : Node) (others more : List Node)
    (own : Cursor.isExtra first = false)
    (head : Answers g size k h (.amid b op rest o st)
      (some (.amid b' op' rest' o' ((first :: others).reverse ++ st))))
    (tail : Answers g size k p (.amid b' op' rest' o' ((first :: others).reverse ++ st))
      (some (.amid b'' op'' rest'' o'' (more.reverse ++ ((first :: others).reverse ++ st))))) :
    Answers g size (k + 2) (.ending h ((name, p) :: tails)) (.amid b op rest o st)
      (some (.amid b'' op' rest'' o'' (.over name first (others ++ more) :: st))) := by
  have stack : more.reverse ++ ((first :: others).reverse ++ st) =
      (first :: (others ++ more)).reverse ++ st := by simp
  rw [stack] at tail
  exact Answers.ending (head.mono (Nat.le_succ k))
    (AnswersTail.over first (others ++ more) own tail)

theorem Answers.plain_rule {x : Rule} (no_operand : g.isOperand x = false)
    (inner : Answers g size k (g.rules x) c (some (.amid b op rest o st))) :
    Answers g size (k + 1) (.rule x) c (some (.amid b op rest o st)) := by
  have same := Answers.rule inner
  rwa [no_operand, Bool.or_false] at same

theorem Answers.operand_rule {x : Rule} (op : Bool) (operand : g.isOperand x = true)
    (inner : Answers g size k (g.rules x) c (some (.amid b op rest o st))) :
    Answers g size (k + 1) (.rule x) c (some (.amid b true rest o st)) := by
  have same := Answers.rule inner
  rwa [operand, Bool.or_true] at same

end

/-- A check that a pattern does not stand at the front of a text, which is `rest` behind its blanks;
`front` tells that no comment stands there. The check looks at the first tokens of the alternatives
only. With `idle`, the pattern may also stand at the front and take nothing. -/
def refusesAt (g : Grammar Rule) (cs rest : List Char) (front : Bool) :
    (idle : Bool) → Nat → Pattern Rule → Bool
  | _, 0, _ => false
  | idle, fuel + 1, p =>
    match p with
    | .token l => front && l.scan rest == 0
    | .attached l => l.scan cs == 0
    | .both p q =>
      refusesAt g cs rest front false fuel p ||
        (refusesAt g cs rest front true fuel p && refusesAt g cs rest front idle fuel q)
    | .either p q => refusesAt g cs rest front idle fuel p && refusesAt g cs rest front idle fuel q
    | .many p => idle && refusesAt g cs rest front false fuel p
    | .bracketed _ p => refusesAt g cs rest front idle fuel p
    | .chain p _ | .ending p _ | .node _ p | .role _ p => refusesAt g cs rest front false fuel p
    | .rule r => refusesAt g cs rest front false fuel (g.rules r)
    | .absent .nothing => idle || fuel != 0
    | .nothing | .last _ | .absent _ | .ahead _ | .sameStatement => idle
    | .semicolon => false

def refuses (g : Grammar Rule) (fuel : Nat) (p : Pattern Rule) (cs : List Char) : Bool :=
  let rest := cs.dropWhile g.isBlank
  refusesAt g cs rest (g.comment rest == 0 && g.htmlComment rest == 0) false fuel p

theorem fronts_dropWhile {cs : List Char} (no_comment : g.comment (cs.dropWhile g.isBlank) = 0)
    (no_html : g.htmlComment (cs.dropWhile g.isBlank) = 0) :
    Fronts g (cs.takeWhile g.isBlank) (cs.dropWhile g.isBlank) := by
  refine ⟨fun b member => List.mem_takeWhile_imp member, ?_, no_comment, no_html⟩
  cases rest : cs.dropWhile g.isBlank with
  | nil => rfl
  | cons ch more =>
      have stop := List.head_dropWhile_not g.isBlank (by rw [rest]; exact List.cons_ne_nil _ _)
      simp only [rest, List.head_cons] at stop
      simp [stop]

/-- What a reader answers that takes nothing, or, unless `idle`, does not go on at all. -/
def Stays (idle : Bool) (c : Cursor) (answer : Option Cursor) : Prop :=
  answer = none ∨ (idle = true ∧ answer = some c)

theorem Stays.idle {idle : Bool} {answer : Option Cursor} (h : Stays true c answer)
    (kept : idle = true) : Stays idle c answer :=
  h.imp_right fun same => ⟨kept, same.2⟩

theorem stays_refused {blanks rest : List Char} {front idle : Bool} {j : Nat}
    (fronts : front = true → Fronts g blanks rest) (ahead : c.rest = blanks ++ rest)
    (supply : c.supply = .none) (long : blanks.length < size)
    (h : refusesAt g c.rest rest front idle j p = true) (fuel : Nat) (boundaries : List Boundary)
    (f : Frontier) (le : j ≤ fuel) :
    Stays idle c (read g [] size fuel p boundaries c f).1 := by
  induction j generalizing p c idle fuel boundaries f with
  | zero => cases h
  | succ j ih =>
      obtain ⟨fuel, rfl, enough⟩ := exists_fuel le
      -- Of most patterns the part that is read first decides.
      have first : ∀ {q : Pattern Rule}, refusesAt g c.rest rest front false j q = true →
          ∀ boundaries f, ∃ f', read g [] size fuel q boundaries c f = (none, f') := by
        intro q refused boundaries f
        have stays := ih ahead supply refused fuel boundaries f enough
        exact exists_frontier (stays.resolve_right nofun)
      cases p with
      | nothing => exact .inr ⟨h, rfl⟩
      | token l =>
          rw [refusesAt, Bool.and_eq_true, beq_iff_eq] at h
          exact .inl (answers_token_none (k := j) (fronts h.1) ahead supply long h.2 (fuel + 1)
            boundaries f (Nat.succ_le_succ enough))
      | attached l =>
          rw [refusesAt, beq_iff_eq] at h
          have here : passSkip [] c = c := rfl
          exact .inl (by rw [read, here, readToken_fst supply, h, if_pos rfl])
      | both p q =>
          rw [refusesAt, Bool.or_eq_true, Bool.and_eq_true] at h
          rw [read]
          rcases h with refused | ⟨stays, later⟩
          · obtain ⟨f', refused⟩ := first refused boundaries f
            exact .inl (by rw [refused])
          · rcases ih ahead supply stays fuel boundaries f enough with refused | ⟨-, same⟩
            · obtain ⟨f', refused⟩ := exists_frontier refused
              exact .inl (by rw [refused])
            · obtain ⟨f', same⟩ := exists_frontier same
              rw [same]
              exact ih ahead supply later fuel _ f' enough
      | either p q =>
          rw [refusesAt, Bool.and_eq_true] at h
          rw [read]
          rcases ih ahead supply h.1 fuel boundaries f enough with refused | ⟨kept, same⟩
          · obtain ⟨f', refused⟩ := exists_frontier refused
            rw [refused]
            exact ih ahead supply h.2 fuel boundaries f' enough
          · obtain ⟨f', same⟩ := exists_frontier same
            rw [same]
            exact .inr ⟨kept, rfl⟩
      | many p =>
          rw [refusesAt, Bool.and_eq_true] at h
          obtain ⟨f', refused⟩ := first h.2 (⟨c.offset, c.height⟩ :: boundaries) f
          rw [read, refused]
          exact .inr ⟨h.1, rfl⟩
      | bracketed inside p =>
          rcases ih (c := { c with bracketed := inside }) ahead supply h fuel boundaries f enough
            with refused | ⟨kept, same⟩
          · obtain ⟨f', refused⟩ := exists_frontier refused
            exact .inl (by rw [read, refused])
          · obtain ⟨f', same⟩ := exists_frontier same
            exact .inr ⟨kept, by rw [read, same]⟩
      | chain p ts | ending p ts | node name p | role x p | rule x =>
          obtain ⟨f', refused⟩ := first h boundaries f
          exact .inl (by rw [read, refused])
      | absent p =>
          have absent : Stays true c (read g [] size (fuel + 1) (.absent p) boundaries c f).1 := by
            rw [read]
            split
            · exact .inl rfl
            · exact .inr ⟨rfl, rfl⟩
          cases p with
          | nothing =>
              by_cases kept : idle = true
              · exact absent.idle kept
              · -- There is nothing everywhere, if only the fuel is enough to read it.
                obtain ⟨m, rfl⟩ : ∃ m, fuel = m + 1 := by
                  simp only [refusesAt, kept, Bool.false_or, bne_iff_ne] at h
                  exact ⟨fuel - 1, by omega⟩
                exact .inl rfl
          | _ => exact absent.idle h
      | last test | ahead test | sameStatement =>
          refine Stays.idle ?_ h
          rw [read]
          split
          · exact .inr ⟨rfl, rfl⟩
          · exact .inl rfl
      | semicolon => cases h

theorem answers_refusedAt {blanks rest : List Char} {j : Nat} (fronts : Fronts g blanks rest)
    (ahead : c.rest = blanks ++ rest) (supply : c.supply = .none) (long : blanks.length < size)
    (h : refusesAt g c.rest rest true false j p = true) : Answers g size j p c none :=
  fun fuel boundaries f enough =>
    (stays_refused (fun _ => fronts) ahead supply long h fuel boundaries f enough).resolve_right
      fun stays => nomatch stays

theorem answers_refused (supply : c.supply = .none) (long : c.rest.length < size) {j : Nat}
    (h : refuses g j p c.rest = true) : Answers g size j p c none := by
  have parts := List.takeWhile_append_dropWhile (p := g.isBlank) (l := c.rest)
  have shorter : (c.rest.takeWhile g.isBlank).length < size :=
    Nat.lt_of_le_of_lt (List.takeWhile_prefix _).length_le long
  intro fuel boundaries f enough
  refine (stays_refused (fun front => ?_) parts.symm supply shorter h fuel boundaries f
    enough).resolve_right fun stays => nomatch stays
  rw [Bool.and_eq_true, beq_iff_eq, beq_iff_eq] at front
  exact fronts_dropWhile front.1 front.2

/-- A choice is what its alternatives from the `n`-th one on are, where no other one stands. -/
theorem Answers.past {ps : List (Pattern Rule)} (n : Nat) (more : n < ps.length)
    (others : ∀ q ∈ ps.take n, Answers g size k q c none)
    (here : Answers g size k (Pattern.choice (ps.drop n)) c r) :
    Answers g size (k + n) (Pattern.choice ps) c r := by
  induction n generalizing ps with
  | zero => exact here
  | succ n ih =>
      obtain ⟨q, q', qs, rfl⟩ : ∃ q q' qs, ps = q :: q' :: qs := by
        match ps, more with
        | q :: q' :: qs, _ => exact ⟨q, q', qs, rfl⟩
      obtain ⟨first, later⟩ := List.forall_mem_cons.mp others
      exact Answers.right (first.mono (Nat.le_add_right k n))
        (ih (Nat.lt_of_succ_lt_succ more) later here)

theorem all_refusedAt {blanks rest : List Char} {j : Nat} {qs : List (Pattern Rule)}
    (fronts : Fronts g blanks rest) (ahead : c.rest = blanks ++ rest) (supply : c.supply = .none)
    (long : blanks.length < size) (le : j ≤ k)
    (h : qs.all (refusesAt g c.rest rest true false j) = true) :
    ∀ q ∈ qs, Answers g size k q c none := fun q member =>
  (answers_refusedAt fronts ahead supply long (List.all_eq_true.mp h q member)).mono le

theorem grows_refused {tails : List (String × Pattern Rule)} {height : Nat}
    (supply : c.supply = .none) (long : c.rest.length < size) {j : Nat}
    (enough : j + tails.length < k)
    (h : (tails.all fun t => refuses g j t.2 c.rest) = true) : Grows g size k tails height c c := by
  obtain ⟨n, rfl, le⟩ := exists_fuel enough
  apply grows_none
  induction tails generalizing n with
  | nil => exact answersTail_nil c
  | cons t tails ih =>
      rw [List.all_cons, Bool.and_eq_true] at h
      rw [List.length_cons] at enough le
      obtain ⟨m, rfl, le⟩ := exists_fuel le
      have here := (answers_refused supply long h.1).mono (show j ≤ m by omega)
      exact AnswersTail.cons_none here (ih h.2 m (by omega) (by omega))

/-- A chain ends with its head where none of its tails follows. -/
theorem Answers.alone {tails : List (String × Pattern Rule)} {j : Nat}
    (head : Answers g size k p c (some d)) (supply : d.supply = .none)
    (long : d.rest.length < size) (few : tails.length ≤ 5) (enough : j + 5 < k)
    (refused : (tails.all fun t => refuses g j t.2 d.rest) = true) :
    Answers g size (k + 1) (.chain p tails) c (some d) :=
  head.chain (grows_refused supply long (Nat.lt_of_le_of_lt (Nat.add_le_add_left few j) enough)
    refused)

/-- A choice is what its alternatives from the `n`-th one on are, where a check refuses the ones in
front. -/
theorem Answers.beyond {blanks rest : List Char} {ps : List (Pattern Rule)} {j : Nat} (n : Nat)
    (more : n < ps.length) (fronts : Fronts g blanks rest) (ahead : c.rest = blanks ++ rest)
    (supply : c.supply = .none) (long : blanks.length < size) (le : j ≤ k)
    (others : (ps.take n).all (refusesAt g c.rest rest true false j) = true)
    (here : Answers g size k (Pattern.choice (ps.drop n)) c r) :
    Answers g size (k + n) (Pattern.choice ps) c r :=
  .past n more (all_refusedAt fronts ahead supply long le others) here

/-- A source of which the reader leaves nothing but blanks and comments has the tree of what it has
read. -/
theorem parse_of_passed {source : List Char} {o : Nat} {st : List Node}
    (fuel : k ≤ 120 * (source.length + 1) + 2000)
    (root : Answers g (source.length + 1) k (.rule g.root) (Cursor.start source) (some c))
    (last : passTrivia g [] (source.length + 1) c = .plain [] o st) :
    parse g source = .mk (.category g.rootName) none ⟨(Cursor.start source).offset, o⟩
      st.reverse := by
  obtain ⟨f, taken⟩ := exists_frontier (root _ [] .none fuel)
  have reading : readWith g [] source = .ok (.mk (.category g.rootName) none
      ⟨(Cursor.start source).offset, o⟩ st.reverse) := by
    unfold readWith
    dsimp only
    rw [taken]
    dsimp only
    rw [last]
    rfl
  unfold parse
  rw [reading]

/-- A source that the reader takes as a whole has the tree that it leaves. -/
theorem parse_of_answers {source : List Char} {o : Nat} {st : List Node}
    (fuel : k ≤ 120 * (source.length + 1) + 2000)
    (root : Answers g (source.length + 1) k (.rule g.root) (Cursor.start source)
      (some (.plain [] o st))) :
    parse g source = .mk (.category g.rootName) none ⟨(Cursor.start source).offset, o⟩
      st.reverse :=
  parse_of_passed fuel root rfl

end Restyle.Syntax
