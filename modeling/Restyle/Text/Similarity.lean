/-!
How similar two words are, and the words of a list that are similar to a misspelt one.
-/

namespace Restyle.Text

/-- The letters of a word, each with whether it has its match in another word. -/
abbrev Marked := List (Char × Bool)

/-- Marks the first letter that is a given one and has no match yet, among those from a first place
up to a last one; there may be none. -/
def claim? (c : Char) (first last : Nat) : Nat → Marked → Option Marked
  | _, [] => none
  | place, (d, taken) :: rest =>
    if place ≥ last then none
    else if first ≤ place && d == c && !taken then some ((d, true) :: rest)
    else (claim? c first last (place + 1) rest).map ((d, taken) :: ·)

/-- The letters of the first word that find a match in the second one not far from their place, and
the second word with these matches marked. -/
def matchLetters (reach : Nat) : Nat → List Char → Marked → List Char × Marked
  | _, [], b => ([], b)
  | i, c :: cs, b =>
    match claim? c (i - reach) (i + reach + 1) 0 b with
    | some b =>
      let (matched, b) := matchLetters reach (i + 1) cs b
      (c :: matched, b)
    | none => matchLetters reach (i + 1) cs b

/-- The Jaro similarity of two words: the mean of the parts of either word that have matches and of
the part of the matches that are in the same order. -/
def similarity (a b : List Char) : Float :=
  if a.isEmpty && b.isEmpty then 1
  else
    let reach := max a.length b.length / 2 - 1
    let (left, marked) := matchLetters reach 0 a (b.map (·, false))
    let right := (marked.filter (·.2)).map (·.1)
    let swapped := ((left.zip right).filter fun (c, d) => c != d).length / 2
    let count := left.length
    if count == 0 then 0
    else
      (Float.ofNat count / Float.ofNat a.length + Float.ofNat count / Float.ofNat b.length
        + Float.ofNat (count - swapped) / Float.ofNat count) / 3

/-- Puts a rated word behind those that are rated no higher. -/
def insertRated (word : String) (rating : Float) :
    List (String × Float) → List (String × Float)
  | [] => [(word, rating)]
  | (w, r) :: rest =>
    if r > rating then (word, rating) :: (w, r) :: rest
    else (w, r) :: insertRated word rating rest

/-- The words that are similar to a misspelt one, the most similar last. -/
def similarWords (misspelt : String) (words : List String) : List String :=
  (words.foldl (fun rated word =>
    let rating := similarity misspelt.toList word.toList
    if rating > 0.7 then insertRated word rating rated else rated) []).map (·.1)

end Restyle.Text
