import Restyle.Proofs.Sheet.Splitting
/-!
Lists of whole selectors. The splitter follows escapes and one depth of brackets through a list, and
nothing of strings and comments: which lists fall apart into their selectors is told by what it sees
of each selector alone.
-/

namespace Restyle.Sheet

inductive Quote where
  | single | double
deriving DecidableEq, Repr

namespace Quote

def mark : Quote → Char
  | single => '\''
  | double => '"'

def of? : Char → Option Quote
  | '\'' => some single
  | '"' => some double
  | _ => none

end Quote

/-- What the next character of a selector stands in: nothing of its own, perhaps behind a slash that
may begin a comment; an escape, in a string or not; a string; a comment, perhaps behind an asterisk
that may end it. -/
inductive Region where
  | bare (slash : Bool)
  | escape (quote : Option Quote)
  | quoted (quote : Quote)
  | comment (star : Bool)
deriving DecidableEq, Repr

/-- The bracket that closes an open one. -/
def closerOf? : Char → Option Char
  | '(' => some ')'
  | '[' => some ']'
  | _ => none

/-- Whether a character of a string or a comment is seen by nobody, given the brackets that are open
around it. -/
def isSilent (pending : List Char) (c : Char) : Bool :=
  !isBracket c && (c != ',' || !pending.isEmpty)

/-- Whether a text ends in no region, closes the pending brackets and all that it opens, in the
order in which they have to be closed, and has commas inside of brackets, strings and comments only.
A strict text has nothing but silent characters in its strings and comments. -/
def isWhole (strict : Bool) : Region → List Char → List Char → Bool
  | .bare _, pending, [] => pending.isEmpty
  | _, _, [] => false
  | .escape none, pending, _ :: cs => isWhole strict (.bare false) pending cs
  | .escape (some quote), pending, _ :: cs => isWhole strict (.quoted quote) pending cs
  | .comment star, pending, c :: cs =>
    if star && c == '/' then isWhole strict (.bare false) pending cs
    else (!strict || isSilent pending c) && isWhole strict (.comment (c == '*')) pending cs
  | .quoted quote, pending, c :: cs =>
    if c == '\\' then isWhole strict (.escape (some quote)) pending cs
    else if c == quote.mark then isWhole strict (.bare false) pending cs
    else (!strict || isSilent pending c) && isWhole strict (.quoted quote) pending cs
  | .bare slash, pending, c :: cs =>
    if slash && c == '*' then isWhole strict (.comment false) pending cs
    else if c == '\\' then isWhole strict (.escape none) pending cs
    else match Quote.of? c, closerOf? c with
      | some quote, _ => isWhole strict (.quoted quote) pending cs
      | none, some closer => isWhole strict (.bare false) (closer :: pending) cs
      | none, none =>
        if isBracket c then
          pending.head? == some c && isWhole strict (.bare false) pending.tail cs
        else (c != ',' || !pending.isEmpty) && isWhole strict (.bare (c == '/')) pending cs

/-- A selector that stands by itself, without blanks around it. -/
structure WholeSelector where
  text : List Char
  some_char : text ≠ []
  trimmed : Text.trim text = text
  whole : isWhole false (.bare false) [] text = true

/-- Whether no bracket stands in a string or a comment of a selector, and a comma only where
brackets are open around the string or the comment. -/
def WholeSelector.isStrict (s : WholeSelector) : Bool := isWhole true (.bare false) [] s.text

/-- A comma with the blanks around it. -/
structure Comma where
  before : List Char
  after : List Char
  before_blank : ∀ c ∈ before, Text.isBlank c = true
  after_blank : ∀ c ∈ after, Text.isBlank c = true

/-- A list of selectors with a comma before each one but the first. -/
def joined (first : WholeSelector) : List (Comma × WholeSelector) → List Char
  | [] => first.text
  | (comma, next) :: more =>
    first.text ++ (comma.before ++ ',' :: (comma.after ++ joined next more))

/-- What the splitter keeps of the text that it has passed. -/
structure Balance where
  depth : Int
  escaped : Bool
deriving DecidableEq, Repr

namespace Balance

def level : Balance := ⟨0, false⟩

def step (b : Balance) (c : Char) : Balance :=
  if b.escaped then ⟨b.depth, false⟩
  else if c == '\\' then ⟨b.depth, true⟩
  else if c == '(' || c == '[' then ⟨b.depth + 1, false⟩
  else if c == ')' || c == ']' then ⟨b.depth - 1, false⟩
  else ⟨b.depth, false⟩

/-- What is kept behind a text. -/
def after (b : Balance) (text : List Char) : Balance := text.foldl step b

/-- Whether a character divides the list. -/
def divides (b : Balance) (c : Char) : Bool := !b.escaped && c == ',' && b.depth == 0

/-- Whether no character of a text divides the list. -/
def keeps (b : Balance) : List Char → Bool
  | [] => true
  | c :: cs => !b.divides c && (b.step c).keeps cs

theorem after_append (b : Balance) (text more : List Char) :
    b.after (text ++ more) = (b.after text).after more := List.foldl_append

theorem keeps_append (b : Balance) (text more : List Char) :
    b.keeps (text ++ more) = (b.keeps text && (b.after text).keeps more) := by
  induction text generalizing b with
  | nil => rfl
  | cons c cs ih =>
      rw [List.cons_append, keeps, keeps, ih, Bool.and_assoc]
      rfl

theorem splitFrom_cons (b : Balance) (part : List Char) (c : Char) (cs : List Char) :
    splitFrom b.depth b.escaped part (c :: cs) =
      if b.divides c then part.reverse :: splitFrom b.depth b.escaped [] cs
      else splitFrom (b.step c).depth (b.step c).escaped (c :: part) cs := by
  obtain ⟨depth, escaped⟩ := b
  cases escaped with
  | true => rfl
  | false =>
      simp only [splitFrom, divides, step, Bool.false_eq_true, if_false, Bool.not_false,
        Bool.true_and]
      by_cases slash : c = '\\'
      · subst slash
        rfl
      by_cases opens : (c == '(' || c == '[') = true
      · have no_comma : (c == ',') = false := by
          rcases Bool.or_eq_true_iff.mp opens with h | h <;> rw [eq_of_beq h] <;> decide
        simp [slash, opens, no_comma]
      by_cases closes : (c == ')' || c == ']') = true
      · have no_comma : (c == ',') = false := by
          rcases Bool.or_eq_true_iff.mp closes with h | h <;> rw [eq_of_beq h] <;> decide
        simp [slash, opens, closes, no_comma]
      · simp [slash, opens, closes]

theorem splitFrom_keeps {b : Balance} {text : List Char} (h : b.keeps text = true)
    (part rest : List Char) :
    splitFrom b.depth b.escaped part (text ++ rest)
      = splitFrom (b.after text).depth (b.after text).escaped (text.reverse ++ part) rest := by
  induction text generalizing b part with
  | nil => rfl
  | cons c cs ih =>
      simp only [keeps, Bool.and_eq_true, Bool.not_eq_true'] at h
      rw [List.cons_append, splitFrom_cons, h.1, if_neg Bool.false_ne_true, ih h.2,
        List.reverse_cons, List.append_assoc]
      rfl

theorem step_blank {c : Char} (blank : Text.isBlank c = true) (depth : Int) :
    step ⟨depth, false⟩ c = ⟨depth, false⟩ := by
  have other : ∀ d, Text.isBlank d = false → (c == d) = false := by
    intro d mark
    rw [beq_eq_false_iff_ne]
    rintro rfl
    rw [blank] at mark
    cases mark
  simp [step, other '\\' (by decide), other '(' (by decide), other '[' (by decide),
    other ')' (by decide), other ']' (by decide)]

theorem divides_blank {c : Char} (blank : Text.isBlank c = true) (b : Balance) :
    b.divides c = false := by
  have other : (c == ',') = false := by
    rw [beq_eq_false_iff_ne]
    rintro rfl
    revert blank
    decide
  simp [divides, other]

theorem after_blanks {blanks : List Char} (blank : ∀ c ∈ blanks, Text.isBlank c = true)
    (depth : Int) : after ⟨depth, false⟩ blanks = ⟨depth, false⟩ := by
  induction blanks with
  | nil => rfl
  | cons c cs ih =>
      rw [after, List.foldl_cons, step_blank (blank c List.mem_cons_self)]
      exact ih fun d hd => blank d (List.mem_cons_of_mem c hd)

theorem depth_after_blanks {blanks : List Char} (blank : ∀ c ∈ blanks, Text.isBlank c = true)
    (b : Balance) : (b.after blanks).depth = b.depth := by
  obtain ⟨depth, escaped⟩ := b
  cases escaped with
  | false => rw [after_blanks blank]
  | true =>
      cases blanks with
      | nil => rfl
      | cons c cs =>
          have rest : after ⟨depth, true⟩ (c :: cs) = ⟨depth, false⟩ :=
            after_blanks (fun d hd => blank d (List.mem_cons_of_mem c hd)) depth
          rw [rest]

theorem keeps_blanks {blanks : List Char} (blank : ∀ c ∈ blanks, Text.isBlank c = true)
    (b : Balance) : b.keeps blanks = true := by
  induction blanks generalizing b with
  | nil => rfl
  | cons c cs ih =>
      rw [keeps, divides_blank (blank c List.mem_cons_self),
        ih fun d hd => blank d (List.mem_cons_of_mem c hd)]
      rfl

/-- Trimming a text takes away nothing that the splitter sees. -/
theorem trim_seen (text : List Char) :
    (level.keeps text = true → level.keeps (Text.trim text) = true) ∧
      (level.after (Text.trim text)).depth = (level.after text).depth := by
  obtain ⟨before, behind, split, front_blank, back_blank⟩ := Text.exists_around_trim text
  have front : level.after (before ++ Text.trim text) = level.after (Text.trim text) := by
    rw [after_append, level, after_blanks front_blank]
  constructor
  · intro kept
    rw [split, keeps_append, keeps_append, Bool.and_eq_true, Bool.and_eq_true] at kept
    have inside := kept.1.2
    rwa [level, after_blanks front_blank] at inside
  · have all : level.after text = level.after (before ++ Text.trim text ++ behind) := by
      rw [← split]
    rw [all, after_append, front, depth_after_blanks back_blank]

theorem splitFrom_ne_nil (b : Balance) (part text : List Char) :
    splitFrom b.depth b.escaped part text ≠ [] := by
  induction text generalizing b part with
  | nil => exact List.cons_ne_nil _ _
  | cons c cs ih =>
      rw [splitFrom_cons]
      split
      · exact List.cons_ne_nil _ _
      · exact ih _ _

/-- No part of a list is divided, and each one but the last closes the brackets that it opens. -/
theorem of_mem_splitFrom (part text : List Char) {b : Balance}
    (kept : level.keeps part.reverse = true) (here : level.after part.reverse = b) :
    (∀ p ∈ splitFrom b.depth b.escaped part text, level.keeps p = true) ∧
      ∀ p ∈ (splitFrom b.depth b.escaped part text).dropLast, (level.after p).depth = 0 := by
  induction text generalizing b part with
  | nil => simpa [splitFrom] using kept
  | cons c cs ih =>
      rw [splitFrom_cons]
      by_cases divided : b.divides c = true
      · rw [if_pos divided]
        simp only [divides, Bool.and_eq_true, Bool.not_eq_true', beq_iff_eq] at divided
        obtain ⟨⟨unescaped, -⟩, flat⟩ := divided
        have fresh : level = b := by rw [level, ← unescaped, ← flat]
        obtain ⟨whole, closed⟩ := ih [] rfl fresh
        constructor
        · intro p hp
          rcases List.mem_cons.mp hp with rfl | later
          · exact kept
          · exact whole p later
        · intro p hp
          have some_part : splitFrom b.depth b.escaped [] cs ≠ [] := splitFrom_ne_nil b [] cs
          rw [List.dropLast_cons_of_ne_nil some_part] at hp
          rcases List.mem_cons.mp hp with rfl | later
          · rw [here, flat]
          · exact closed p later
      · rw [if_neg divided]
        apply ih
        · rw [List.reverse_cons, keeps_append, here, kept, Bool.true_and, keeps]
          simp [divided, keeps]
        · rw [List.reverse_cons, after_append, here]
          rfl

theorem mem_dropLast_of_filter {p : List Char → Bool} {parts : List (List Char)} {s : List Char}
    (h : s ∈ (parts.filter p).dropLast) : s ∈ parts.dropLast := by
  rcases parts.eq_nil_or_concat with rfl | ⟨init, last, rfl⟩
  · exact h
  rw [List.concat_eq_append] at *
  rw [List.dropLast_concat]
  rw [List.filter_append] at h
  by_cases kept : p last = true
  · rw [List.filter_cons_of_pos kept, List.filter_nil, List.dropLast_concat] at h
    exact (List.mem_filter.mp h).1
  · rw [List.filter_cons_of_neg kept, List.filter_nil, List.append_nil] at h
    exact (List.mem_filter.mp (List.dropLast_subset _ h)).1

theorem of_mem_splitSelectorList (list : List Char) :
    (∀ s ∈ splitSelectorList list, level.keeps s = true) ∧
      ∀ s ∈ (splitSelectorList list).dropLast, (level.after s).depth = 0 := by
  obtain ⟨whole, closed⟩ := of_mem_splitFrom [] list rfl rfl
  constructor
  · intro s hs
    obtain ⟨p, hp, rfl⟩ := List.mem_map.mp (List.mem_filter.mp hs).1
    exact (trim_seen p).1 (whole p hp)
  · intro s hs
    have among : s ∈ ((splitFrom 0 false [] list).map Text.trim).dropLast :=
      mem_dropLast_of_filter hs
    rw [← List.map_dropLast] at among
    obtain ⟨p, hp, rfl⟩ := List.mem_map.mp among
    rw [(trim_seen p).2]
    exact closed p hp

/-- Whether the splitter is in a region only if it has seen the backslash that begins it; in a
comment it follows backslashes that mean nothing there, but none behind an asterisk. -/
def Follows : Region → Bool → Prop
  | .bare _, escaped | .quoted _, escaped => escaped = false
  | .escape _, escaped => escaped = true
  | .comment star, escaped => star = true → escaped = false

@[simp] theorem step_escaped (b : Balance) (c : Char) :
    (b.step c).escaped = (!b.escaped && c == '\\') := by
  rw [step]
  cases b.escaped with
  | true => rfl
  | false =>
      by_cases slash : c = '\\'
      · subst slash
        rfl
      · simp only [Bool.false_eq_true, if_false, beq_eq_false_iff_ne.mpr slash]
        split
        · rfl
        · split <;> rfl

theorem step_depth {c : Char} (no_bracket : isBracket c = false) (b : Balance) :
    (b.step c).depth = b.depth := by
  simp only [isBracket, Bool.or_eq_false_iff] at no_bracket
  obtain ⟨⟨⟨round, round'⟩, square⟩, square'⟩ := no_bracket
  rw [step, round, round', square, square']
  split
  · rfl
  · split <;> rfl

theorem divides_silent {pending : List Char} {c : Char} (silent : isSilent pending c = true)
    {b : Balance} (open_ : b.depth = pending.length) : b.divides c = false := by
  simp only [isSilent, Bool.and_eq_true, Bool.or_eq_true, bne_iff_ne, ne_eq, Bool.not_eq_true',
    List.isEmpty_eq_false_iff] at silent
  rcases silent.2 with other | inside
  · simp [divides, other]
  · have deep : b.depth ≠ 0 := by
      have some_bracket := List.length_pos_iff.mpr inside
      omega
    simp [divides, deep]

theorem Quote.of?_eq_some {c : Char} {quote : Quote} (h : Quote.of? c = some quote) :
    c = '\'' ∨ c = '"' := by
  fun_cases Quote.of? c with
  | case1 => exact .inl rfl
  | case2 => exact .inr rfl
  | case3 => simp_all [Quote.of?]

theorem closerOf?_eq_some {c closer : Char} (h : closerOf? c = some closer) :
    c = '(' ∨ c = '[' := by
  fun_cases closerOf? c with
  | case1 => exact .inl rfl
  | case2 => exact .inr rfl
  | case3 => simp_all [closerOf?]

theorem closes_of_isBracket {c : Char} (bracket : isBracket c = true)
    (no_opener : closerOf? c = none) : c = ')' ∨ c = ']' := by
  simp only [isBracket, Bool.or_eq_true, beq_iff_eq] at bracket
  rcases bracket with ((rfl | rfl) | rfl) | rfl
  · cases no_opener
  · exact .inl rfl
  · cases no_opener
  · exact .inr rfl

/-- Whether the splitter passes a character in front of a text that is whole behind it: it keeps
what it has to, and in a strict text it counts the pending brackets and finds no end of a part. -/
def Passes (strict : Bool) (pending : List Char) (b : Balance) (c : Char) (cs : List Char) : Prop :=
  ∃ region' pending', isWhole strict region' pending' cs = true ∧
    Follows region' (b.step c).escaped ∧
    (strict = true → b.depth = pending.length →
      b.divides c = false ∧ (b.step c).depth = pending'.length)

theorem passes_silent {strict : Bool} {region : Region} {pending cs : List Char} {b : Balance}
    {c : Char} (whole : isWhole strict region pending cs = true)
    (follows : Follows region (b.step c).escaped)
    (silent : (!strict || isSilent pending c) = true) : Passes strict pending b c cs := by
  refine ⟨region, pending, whole, follows, fun asked open_ => ?_⟩
  rw [asked, Bool.not_true, Bool.false_or] at silent
  refine ⟨divides_silent silent open_, ?_⟩
  simp only [isSilent, Bool.and_eq_true, Bool.not_eq_true'] at silent
  rw [step_depth silent.1, open_]

section

variable {strict : Bool} {pending cs : List Char} {b : Balance} {c : Char}

theorem passes_escape {quote : Option Quote} (escaped : b.escaped = true)
    (whole : isWhole strict (.escape quote) pending (c :: cs) = true) :
    Passes strict pending b c cs := by
  have step_eq : b.step c = ⟨b.depth, false⟩ := by rw [step, if_pos escaped]
  have kept : strict = true → b.depth = pending.length →
      b.divides c = false ∧ (b.step c).depth = pending.length := fun _ open_ =>
    ⟨by rw [divides, escaped]; rfl, by rw [step_eq, open_]⟩
  cases quote with
  | none => exact ⟨.bare false, pending, whole, by rw [step_eq]; rfl, kept⟩
  | some quote => exact ⟨.quoted quote, pending, whole, by rw [step_eq]; rfl, kept⟩

theorem passes_comment {star : Bool} (follows : Follows (.comment star) b.escaped)
    (whole : isWhole strict (.comment star) pending (c :: cs) = true) :
    Passes strict pending b c cs := by
  rw [isWhole] at whole
  split at whole
  · next ends =>
      simp only [Bool.and_eq_true, beq_iff_eq] at ends
      obtain ⟨rfl, rfl⟩ := ends
      have unescaped : b.escaped = false := follows rfl
      exact passes_silent whole (by simp [Follows, unescaped]) (by simp [isSilent, isBracket])
  · rw [Bool.and_eq_true] at whole
    have later : Follows (.comment (c == '*')) (b.step c).escaped := fun star' => by
      simp [eq_of_beq star']
    exact passes_silent whole.2 later whole.1

theorem passes_quoted {quote : Quote} (unescaped : b.escaped = false)
    (whole : isWhole strict (.quoted quote) pending (c :: cs) = true) :
    Passes strict pending b c cs := by
  rw [isWhole] at whole
  split at whole
  · next slash =>
      obtain rfl := eq_of_beq slash
      exact passes_silent whole (by simp [Follows, unescaped]) (by simp [isSilent, isBracket])
  next other =>
  have later : (b.step c).escaped = false := by simpa [unescaped] using other
  split at whole
  · next ends =>
      obtain rfl := eq_of_beq ends
      exact passes_silent whole later (by cases quote <;> simp [isSilent, isBracket, Quote.mark])
  · rw [Bool.and_eq_true] at whole
    exact passes_silent whole.2 later whole.1

theorem passes_bracket {closer : Char} (unescaped : b.escaped = false)
    (opens : closerOf? c = some closer)
    (whole : isWhole strict (.bare false) (closer :: pending) cs = true) :
    Passes strict pending b c cs := by
  refine ⟨.bare false, closer :: pending, whole, ?_, fun _ open_ => ?_⟩ <;>
    rcases closerOf?_eq_some opens with rfl | rfl <;>
    simp_all [divides, step, Follows]

theorem passes_closer (unescaped : b.escaped = false) (bracket : isBracket c = true)
    (no_opener : closerOf? c = none)
    (whole : (pending.head? == some c && isWhole strict (.bare false) pending.tail cs) = true) :
    Passes strict pending b c cs := by
  rw [Bool.and_eq_true, beq_iff_eq] at whole
  obtain ⟨more, rfl⟩ := List.head?_eq_some_iff.mp whole.1
  refine ⟨.bare false, more, whole.2, ?_, fun _ open_ => ?_⟩ <;>
    rcases closes_of_isBracket bracket no_opener with rfl | rfl <;>
    simp_all [divides, step, Follows]

theorem passes_bare {slash : Bool} (unescaped : b.escaped = false)
    (whole : isWhole strict (.bare slash) pending (c :: cs) = true) :
    Passes strict pending b c cs := by
  rw [isWhole] at whole
  split at whole
  · next begins =>
      simp only [Bool.and_eq_true, beq_iff_eq] at begins
      obtain ⟨-, rfl⟩ := begins
      exact passes_silent whole nofun (by simp [isSilent, isBracket])
  split at whole
  · next slash' =>
      obtain rfl := eq_of_beq slash'
      exact passes_silent whole (by simp [Follows, unescaped]) (by simp [isSilent, isBracket])
  next other =>
  have later : (b.step c).escaped = false := by simpa [unescaped] using other
  split at whole
  · next begins =>
      apply passes_silent whole later
      rcases Quote.of?_eq_some begins with rfl | rfl <;> simp [isSilent, isBracket]
  · next opens => exact passes_bracket unescaped opens whole
  · next no_opener =>
      split at whole
      · next bracket => exact passes_closer unescaped bracket no_opener whole
      · next plain =>
          rw [Bool.and_eq_true] at whole
          exact passes_silent whole.2 later (by simp [isSilent, plain, whole.1])

theorem passes_of_whole {region : Region} (follows : Follows region b.escaped)
    (whole : isWhole strict region pending (c :: cs) = true) : Passes strict pending b c cs := by
  cases region with
  | bare slash => exact passes_bare follows whole
  | escape quote => exact passes_escape follows whole
  | quoted quote => exact passes_quoted follows whole
  | comment star => exact passes_comment follows whole

end

theorem after_escaped {strict : Bool} {region : Region} {pending text : List Char}
    (whole : isWhole strict region pending text = true) {b : Balance}
    (follows : Follows region b.escaped) : (b.after text).escaped = false := by
  induction text generalizing region pending b with
  | nil =>
      cases region with
      | bare slash => exact follows
      | escape quote => cases quote <;> cases whole
      | quoted quote | comment star => cases whole
  | cons c cs ih =>
      obtain ⟨region', pending', later, follows', -⟩ := passes_of_whole follows whole
      exact ih later follows'

theorem after_strict {region : Region} {pending text : List Char}
    (whole : isWhole true region pending text = true) {b : Balance}
    (follows : Follows region b.escaped) (open_ : b.depth = pending.length) :
    b.keeps text = true ∧ (b.after text).depth = 0 := by
  induction text generalizing region pending b with
  | nil =>
      cases region with
      | bare slash =>
          have none_open : pending = [] := List.isEmpty_iff.mp whole
          exact ⟨rfl, by rw [after, List.foldl_nil, open_, none_open]; rfl⟩
      | escape quote => cases quote <;> cases whole
      | quoted quote | comment star => cases whole
  | cons c cs ih =>
      obtain ⟨region', pending', later, follows', kept⟩ := passes_of_whole follows whole
      obtain ⟨undivided, open_'⟩ := kept rfl open_
      obtain ⟨rest, flat⟩ := ih later follows' open_'
      exact ⟨by rw [keeps, undivided, rest]; rfl, flat⟩

theorem splitFrom_joined {first : WholeSelector} {more : List (Comma × WholeSelector)}
    (kept : ∀ s ∈ first :: more.map Prod.snd, level.keeps s.text = true)
    (closed : ∀ s ∈ (first :: more.map Prod.snd).dropLast, (level.after s.text).depth = 0)
    (lead : List Char) (blank : ∀ c ∈ lead, Text.isBlank c = true) :
    (splitFrom 0 false lead.reverse (joined first more)).map Text.trim
      = (first :: more.map Prod.snd).map WholeSelector.text := by
  induction more generalizing first lead with
  | nil =>
      have whole := splitFrom_keeps (kept first List.mem_cons_self) lead.reverse []
      rw [List.append_nil] at whole
      have alone : splitFrom 0 false lead.reverse first.text = [lead ++ first.text] := by
        rw [show splitFrom 0 false lead.reverse first.text = _ from whole, splitFrom,
          List.reverse_append, List.reverse_reverse, List.reverse_reverse]
      rw [joined, alone, List.map_cons, Text.trim_blanks_append blank, first.trimmed]
      rfl
  | cons m more ih =>
      obtain ⟨comma, next⟩ := m
      have some_next : next :: more.map Prod.snd ≠ [] := List.cons_ne_nil _ _
      have flat : level.after first.text = level := by
        have depth := closed first (by
          rw [List.map_cons, List.dropLast_cons_of_ne_nil some_next]
          exact List.mem_cons_self)
        have escaped := after_escaped first.whole (b := level) rfl
        rw [level, Balance.mk.injEq]
        exact ⟨depth, escaped⟩
      have passed : level.keeps (first.text ++ comma.before) = true := by
        rw [keeps_append, kept first List.mem_cons_self, keeps_blanks comma.before_blank]
        rfl
      have behind : level.after (first.text ++ comma.before) = level := by
        rw [after_append, flat, level, after_blanks comma.before_blank]
      have after_comma : level.keeps comma.after = true := keeps_blanks comma.after_blank level
      have apart : splitFrom 0 false lead.reverse (joined first ((comma, next) :: more))
          = (lead ++ first.text ++ comma.before)
            :: splitFrom 0 false comma.after.reverse (joined next more) := by
        have first_part := splitFrom_keeps passed lead.reverse
          (',' :: (comma.after ++ joined next more))
        have second_part := splitFrom_keeps after_comma [] (joined next more)
        rw [behind, splitFrom_cons] at first_part
        rw [level, after_blanks comma.after_blank, ← level, List.append_nil] at second_part
        rw [if_pos (show level.divides ',' = true from rfl), second_part] at first_part
        simpa [joined, level] using first_part
      have later := ih (fun s hs => kept s (List.mem_cons_of_mem first hs))
        (fun s hs => closed s (by
          rw [List.map_cons, List.dropLast_cons_of_ne_nil some_next]
          exact List.mem_cons_of_mem first hs)) comma.after comma.after_blank
      rw [apart, List.map_cons, later, Text.trim_append_blanks comma.before_blank,
        Text.trim_blanks_append blank, first.trimmed]
      rfl

end Balance

/-- The selectors of a joined list are given back if and only if the splitter sees no comma in one
of them outside of its brackets, and no bracket left open behind one before the last; in
particular, if no bracket stands in a string or a comment. -/
theorem splitSelectorList_joined (first : WholeSelector) (more : List (Comma × WholeSelector)) :
    (splitSelectorList (joined first more) = (first :: more.map Prod.snd).map WholeSelector.text ↔
      (∀ s ∈ first :: more.map Prod.snd, Balance.level.keeps s.text = true) ∧
        ∀ s ∈ (first :: more.map Prod.snd).dropLast, (Balance.level.after s.text).depth = 0) ∧
    ((∀ s ∈ first :: more.map Prod.snd, s.isStrict = true) →
      splitSelectorList (joined first more)
        = (first :: more.map Prod.snd).map WholeSelector.text) := by
  have given_back (kept : ∀ s ∈ first :: more.map Prod.snd, Balance.level.keeps s.text = true)
      (closed : ∀ s ∈ (first :: more.map Prod.snd).dropLast,
        (Balance.level.after s.text).depth = 0) :
      splitSelectorList (joined first more)
        = (first :: more.map Prod.snd).map WholeSelector.text := by
    have parts := Balance.splitFrom_joined kept closed [] nofun
    rw [List.reverse_nil] at parts
    rw [splitSelectorList, parts, List.filter_eq_self]
    intro t ht
    obtain ⟨s, -, rfl⟩ := List.mem_map.mp ht
    simpa using s.some_char
  refine ⟨⟨fun same => ?_, fun h => given_back h.1 h.2⟩, fun strict => ?_⟩
  · have seen := Balance.of_mem_splitSelectorList (joined first more)
    rw [same, ← List.map_dropLast] at seen
    exact ⟨fun s hs => seen.1 _ (List.mem_map_of_mem hs),
      fun s hs => seen.2 _ (List.mem_map_of_mem hs)⟩
  · have kept : ∀ s ∈ first :: more.map Prod.snd, Balance.level.keeps s.text = true ∧
        (Balance.level.after s.text).depth = 0 := fun s hs =>
      Balance.after_strict (strict s hs) rfl rfl
    exact given_back (fun s hs => (kept s hs).1)
      fun s hs => (kept s (List.dropLast_subset _ hs)).2

/-- Attributes with the characters in their quotes by which lists are divided. -/
def quotedComma : WholeSelector := ⟨"[title=\"a, \\(\"]".toList, by decide, by decide, by decide⟩

def quotedBracket : WholeSelector := ⟨"[title=\"(\"]".toList, by decide, by decide, by decide⟩

def classSelector : WholeSelector := ⟨".b".toList, by decide, by decide, by decide⟩

def spacedComma : Comma :=
  ⟨['\n'], [' ', ' '], List.all_eq_true.mp (by decide), List.all_eq_true.mp (by decide)⟩

/-- A comma and an escaped bracket in quotes leave the selector in one piece. -/
theorem splitSelectorList_joined_quotedComma :
    (∀ s ∈ [quotedComma, classSelector], s.isStrict = true) ∧
      splitSelectorList "[title=\"a, \\(\"]\n,  .b".toList
        = ["[title=\"a, \\(\"]".toList, ".b".toList] := by
  have strict : ∀ s ∈ [quotedComma, classSelector], s.isStrict = true := by decide
  exact ⟨strict, (splitSelectorList_joined quotedComma [(spacedComma, classSelector)]).2 strict⟩

/-- A bracket in quotes swallows the selector behind it. -/
theorem splitSelectorList_quotedBracket :
    splitSelectorList (joined quotedBracket [(spacedComma, classSelector)])
        = ["[title=\"(\"]\n,  .b".toList] ∧
      ["[title=\"(\"]\n,  .b".toList] ≠ [quotedBracket, classSelector].map WholeSelector.text := by
  decide

end Restyle.Sheet
