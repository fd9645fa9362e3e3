/-!
Shell scripts: words, redirections and commands.
-/

namespace Restyle.Shell

/-- What becomes of the value of a parameter before it stands in a word. -/
inductive Modifier where
  | asIs
  /-- A text in its place where the parameter is unset, or empty too. -/
  | orElse (evenIfEmpty : Bool) (text : List Char)
  /-- The value without the longest or shortest front that a pattern fits. -/
  | withoutFront (longest : Bool) (pattern : List Char)
  /-- The value without the longest or shortest end that a pattern fits. -/
  | withoutEnd (longest : Bool) (pattern : List Char)
  /-- The number of characters of the value. -/
  | count
deriving DecidableEq, Repr, Inhabited

/-- A part of a word. In plain text the characters of patterns have their meaning. -/
inductive Piece where
  | plain (text : List Char)
  | quoted (text : List Char)
  | parameter (name : String) (modifier : Modifier) (inQuotes : Bool)
  /-- The output of a script. -/
  | output (script : List Char) (inQuotes : Bool)
deriving DecidableEq, Repr, Inhabited

/-- A word before its parts are replaced by their values. -/
abbrev Word := List Piece

/-- How a stream is redirected. -/
inductive Direction where
  | fromFile | toFile | toEndOfFile | copyOf
deriving DecidableEq, Repr, Inhabited

/-- A redirection of the stream of a number. -/
structure Redirection where
  stream : Nat
  direction : Direction
  target : Word
deriving DecidableEq, Repr, Inhabited

/-- Commands. -/
inductive Command where
  | nothing
  /-- Assignments, and a command given by its words. -/
  | simple (assigned : List (String × Word)) (words : List Word)
  | both (a b : Command)
  | andThen (a b : Command)
  | orElse (a b : Command)
  | negated (a : Command)
  | pipe (a b : Command)
  | choose (test yes no : Command)
  /-- A loop that goes on while its test succeeds, or until it does. -/
  | loop (untilTrue : Bool) (test body : Command)
  | each (name : String) (words : List Word) (body : Command)
  | select (subject : Word) (arms : List (List Word × Command))
  | redirected (c : Command) (redirections : List Redirection)
  | subshell (c : Command)
  | define (name : String) (body : Command)
deriving Repr, Inhabited

end Restyle.Shell
