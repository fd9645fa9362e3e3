import Restyle.CommandLine.Usage
import Restyle.Text.Similarity
/-!
Reading the words of a command line. A word is the name of a command, an argument, or the value of
the argument before it; behind two dashes all words are values. A value is accepted only when the
next word makes plain that it is complete.
-/

namespace Restyle.CommandLine

/-- An argument with its value, where it has one. -/
structure Given where
  argument : Argument
  value : Option String
deriving DecidableEq, Repr, Inhabited

/-- What was read so far. -/
structure Progress where
  /-- The arguments that were given, the first one first. -/
  given : List Given := []
  /-- The last argument, as long as it is not accepted. -/
  pending : Option Given := none
  /-- The number of positional arguments that were given. -/
  positionals : Nat := 0
  /-- Whether two dashes were passed. -/
  onlyValues : Bool := false
deriving DecidableEq, Repr, Inhabited

/-- Why the reading of words ends before their end. -/
inductive Stop where
  | refused (e : UsageError)
  | help (detailed : Bool)
  | version
  | enter (word : String) (rest : List String)
deriving DecidableEq, Repr

namespace Progress

/-- Whether an argument was given. -/
def has (p : Progress) (a : Argument) : Bool := p.given.any (·.argument == a)

/-- The progress with an argument given. -/
def give (p : Progress) (g : Given) : Progress := { p with given := p.given ++ [g] }

/-- The arguments that were given. -/
def used (p : Progress) : List Argument := p.given.map (·.argument)

def awaitsValue (p : Progress) : Bool :=
  match p.pending with
  | some g => g.value.isNone
  | none => false

/-- The refusal of an argument that has no value. -/
def noValue (a : Argument) : UsageError := .missingValue a.shown (a.choices.map (·.name))

/-- The refusal of a value, if it is none for the argument. -/
def refusal? (a : Argument) (value : String) : Option UsageError :=
  match a.role with
  | .option .path => if value.isEmpty then some (noValue a) else none
  | .option (.choice cs) =>
    let names := cs.map (·.name)
    if names.contains value then none
    else if value.isEmpty then some (noValue a)
    else some (.invalidValue value a.shown names (Text.similarWords value names).getLast?)
  | _ => none

/-- Accepts an argument that is given once and with a proper value. What is given is kept also where
its value is refused; an argument given again is given no longer. -/
def accept (c : Command) (p : Progress) (g : Given) : Progress × Option UsageError :=
  let a := g.argument
  match a.role, g.value with
  | .option _, none => (p, some (noValue a))
  | _, value =>
    if p.has a then
      ({ p with given := p.given.filter (·.argument != a) }, some (.repeated a.shown c.usage))
    else (p.give g, value.bind (refusal? a))

def settle (c : Command) (p : Progress) : Progress × Option UsageError :=
  match p.pending with
  | none => (p, none)
  | some g => accept c { p with pending := none } g

def settled (c : Command) (p : Progress) : Except Stop Progress :=
  match p.settle c with
  | (p, none) => .ok p
  | (_, some e) => .error (.refused e)

/-- Takes a named argument that has no value ahead. -/
def takeFlag (c : Command) (p : Progress) (a : Argument) (isLong : Bool) :
    Except Stop Progress := do
  let p ← p.settled c
  match a.role with
  | .help => throw (.help isLong)
  | .version => throw .version
  | _ =>
    match p.accept c ⟨a, none⟩ with
    | (p, none) => return p
    | (_, some e) => throw (.refused e)

/-- Takes a named argument whose value is attached to it or follows. -/
def takeOption (c : Command) (p : Progress) (a : Argument) (attached : Option String) :
    Except Stop Progress := do
  let p ← p.settled c
  match attached with
  | none => return { p with pending := some ⟨a, none⟩ }
  | some value =>
    match p.accept c ⟨a, some value⟩ with
    | (p, none) => return p
    | (_, some e) => throw (.refused e)

/-- That an unknown word can be a value, where the command takes values. -/
def valueHint (c : Command) (p : Progress) : Option Hint :=
  if p.onlyValues || c.positionals.isEmpty then none else some .value

/-- The hint to the command for which an unknown argument is meant, and the place of that command
among the words that follow. -/
def placedHint? (name : String) (rest : List String) (sub : String × String) :
    Option (Nat × Hint) := do
  let c ← command? sub.1
  let similar ← (Text.similarWords name (c.named.map (·.name))).getLast?
  let place ← rest.findIdx? (· == sub.1)
  return (place, .under sub.1 similar)

/-- The first of some placed hints. -/
def firstPlaced : List (Nat × Hint) → Option Hint
  | [] => none
  | h :: hs =>
    some (hs.foldl (fun (best : Nat × Hint) h => if h.1 < best.1 then h else best) h).2

def hint? (c : Command) (p : Progress) (name : String) (rest : List String) : Option Hint :=
  match (Text.similarWords name (c.named.map (·.name))).getLast? with
  | some similar => some (.here similar)
  | none =>
    match firstPlaced (c.subcommands.filterMap (placedHint? name rest)) with
    | some h => some h
    | none => p.valueHint c

/-- Refuses an unknown argument. The usage that is shown has the argument for which it may stand. -/
def unknownLong (c : Command) (p : Progress) (name : String) (rest : List String) : Stop :=
  let (p, _) := p.settle c
  let hint := p.hint? c name rest
  let meant := match hint with
    | some (.here similar) => (c.long? similar).toList
    | _ => []
  .refused (.unknownArgument ("--" ++ name) hint (c.usageWith (p.used ++ meant)))

def takeLong (c : Command) (p : Progress) (name : String) (attached : Option String)
    (rest : List String) : Except Stop Progress :=
  match c.long? name with
  | none => .error (p.unknownLong c name rest)
  | some a =>
    match a.role, attached with
    | .option _, _ => p.takeOption c a attached
    | _, none => p.takeFlag c a true
    | _, some value =>
      .error (.refused (.unexpectedValue value a.shown (c.usageWith (p.used ++ [a]))))

/-- Takes the arguments of the letters behind a dash. -/
def takeShorts (c : Command) (p : Progress) : List Char → Except Stop Progress
  | [] => .ok p
  | letter :: letters =>
    match c.short? letter with
    | none =>
      let word := String.ofList ['-', letter]
      .error (.refused (.unknownArgument word (p.valueHint c) c.usage))
    | some a => do
      let p ← p.takeFlag c a false
      takeShorts c p letters

/-- Refuses a word for which there is no place. -/
def leftover (c : Command) (p : Progress) (word : String) : Stop :=
  if p.onlyValues && c.subcommands.any (·.1 == word) then .refused (.hiddenCommand word)
  else if c.subcommands.isEmpty then
    .refused (.unknownArgument word none c.usage)
  else
    .refused (.unknownCommand word (Text.similarWords word (c.subcommands.map (·.1))) c.usage)

def takePositional (c : Command) (p : Progress) (word : String) : Except Stop Progress :=
  match c.positionals[p.positionals]? with
  | none => .error (p.leftover c word)
  | some a => do
    let p ← p.settled c
    return { p with pending := some ⟨a, some word⟩, positionals := p.positionals + 1 }

/-- What a word is by its look. -/
inductive Look where
  | dashes
  | long (name : String) (attached : Option String)
  | short (letters : List Char)
  | plain
deriving DecidableEq, Repr

/-- Cuts a text at its first equals sign. -/
def cutAtEquals (cs : List Char) : String × Option String :=
  match cs.dropWhile (· != '=') with
  | [] => (String.ofList cs, none)
  | _ :: value => (String.ofList (cs.takeWhile (· != '=')), some (String.ofList value))

def lookOf (word : String) : Look :=
  match word.toList with
  | ['-', '-'] => .dashes
  | '-' :: '-' :: cs => .long (cutAtEquals cs).1 (cutAtEquals cs).2
  | '-' :: c :: cs => .short (c :: cs)
  | _ => .plain

def takePlain (c : Command) (p : Progress) (word : String) : Except Stop Progress :=
  match p.pending with
  | some ⟨a, none⟩ => .ok { p with pending := some ⟨a, some word⟩ }
  | _ => p.takePositional c word

/-- Takes one word. -/
def take (c : Command) (p : Progress) (word : String) (rest : List String) :
    Except Stop Progress :=
  if p.onlyValues then p.takePositional c word
  else if !p.awaitsValue && c.subcommands.any (·.1 == word) then .error (.enter word rest)
  else match lookOf word with
    | .dashes => .ok { p with onlyValues := true }
    | .long name attached => p.takeLong c name attached rest
    | .short letters => p.takeShorts c letters
    | .plain => p.takePlain c word

def complete (c : Command) (p : Progress) : Except Stop Progress :=
  if !c.subcommands.isEmpty then
    .error (.refused (if p.given.isEmpty then .nothingAsked else .missingCommand))
  else
    match c.positionals.filter fun a => !a.repeats && !p.has a with
    | [] => .ok p
    | missing =>
      .error (.refused (.missingArguments (missing.map (·.shown)) (c.usageWith (p.used ++ missing))))

def read (c : Command) : Progress → List String → Except Stop Progress
  | p, [] => do (← p.settled c).complete c
  | p, word :: rest => do read c (← p.take c word rest) rest

end Progress

end Restyle.CommandLine
