import Restyle.Syntax.Reader
/-!
Trees for sources that the grammar does not admit. Where the reader stops, it may supply a token or
give up a stretch of the source; several such attempts go on side by side, and an attempt that is
stuck gives way to one that reads on at a lower cost.
-/

namespace Restyle.Syntax

/-- What departures from the grammar cost. -/
structure Tariff where
  /-- Every error or supplied token. -/
  departure : Nat := 500
  /-- Every supplied token, besides. -/
  supplied : Nat := 110
  /-- Every part given up. -/
  part : Nat := 100
  /-- Every line begun in a stretch given up. -/
  line : Nat := 30

/-- The costs by which attempts are weighed; every byte given up costs one. -/
def Tariff.standard : Tariff := {}

/-- A reading of the source under some repairs. -/
structure Attempt where
  repairs : List Repair
  cost : Nat
  outcome : Except Frontier Node

namespace Attempt

/-- How far an attempt came, or nothing where it took the whole source. -/
def reach? (a : Attempt) : Option Nat :=
  match a.outcome with
  | .ok _ => none
  | .error f => some f.reach

/-- Whether an attempt reads on where another stops at `stop`. -/
def passes (a : Attempt) (stop : Nat) : Bool :=
  match a.reach? with
  | none => true
  | some r => stop < r

end Attempt

/-- A token that fits nowhere: its bytes and the text after it. -/
structure Stray where
  span : Span
  after : List Char

section

variable {Rule : Type} (g : Grammar Rule) (source : List Char)

/-- Reads the source once more under other repairs. -/
def attempt (repairs : List Repair) (cost : Nat) : Attempt :=
  ⟨repairs, cost, readWith g repairs source⟩

/-- The tokens of a text that fits nowhere, given the offset at which it begins. -/
def strays : Nat → Nat → List Char → List Stray
  | 0, _, _ => []
  | fuel + 1, offset, rest =>
    match rest with
    | [] => []
    | c :: cs =>
      if g.isBlank c then strays fuel (offset + c.utf8Size) cs
      else
        match g.comment rest with
        | n + 1 =>
          strays fuel (offset + Text.byteLength (rest.take (n + 1))) (rest.drop (n + 1))
        | 0 =>
          let n := max 1 (g.stray rest)
          let stop := offset + Text.byteLength (rest.take n)
          ⟨⟨offset, stop⟩, rest.drop n⟩ :: strays fuel stop (rest.drop n)

def linesIn (span : Span) : Nat :=
  (Text.slice span source).countP (· == '\n')

/-- A boundary of a stuck reading with the parts read since. -/
structure Retreat where
  offset : Nat
  parts : List Node

/-- Whether a reading goes back to one place before another: to a nearer one, or to the same with
fewer parts. -/
def Retreat.precedes (a b : Retreat) : Bool :=
  b.offset < a.offset || (a.offset == b.offset && a.parts.length ≤ b.parts.length)

/-- Puts a place into a list before those that it precedes. -/
def Retreat.insert (r : Retreat) : List Retreat → List Retreat
  | [] => [r]
  | s :: rs => if r.precedes s then r :: s :: rs else s :: insert r rs

/-- The places to which a stuck reading can go back, the nearest one first, each offset once. -/
def Frontier.retreats (f : Frontier) : List Retreat :=
  let all := f.sites.reverse.flatMap fun site =>
    (⟨site.offset, site.height⟩ :: site.boundaries).map fun b =>
      (⟨b.offset, (site.stack.take (site.height - b.height)).reverse⟩ : Retreat)
  let sorted := all.foldr Retreat.insert []
  sorted.foldr (fun r kept => r :: kept.filter fun k => k.offset != r.offset) []

/-- The repair that gives up the parts since a retreat together with the tokens skipped after them,
and its cost. -/
def giveUp (repairs : List Repair) (r : Retreat) (skipped : List Span) :
    List Repair × Nat :=
  let leaves := skipped.map fun s =>
    Node.mk (.token (String.ofList (Text.slice s source))) none s []
  let children := r.parts ++ leaves
  let span : Span := match children.head?, children.getLast? with
    | some first, some last => ⟨first.span.start, last.span.stop⟩
    | _, _ => ⟨r.offset, r.offset⟩
  let kept := repairs.filter fun p => p.offset < r.offset
  let t := Tariff.standard
  (kept ++ [.skip r.offset span children],
    t.departure + t.part * children.length + span.length + t.line * linesIn source span)

/-- The first retreat from which the reader, having given up `skipped`, takes the token at `stop`
(or, where there is none, the whole source). -/
def recoverAt (a : Attempt) (retreats : List Retreat) (skipped : List Span) (stop : Nat) :
    Option Attempt :=
  retreats.findSome? fun r =>
    if r.parts.isEmpty && skipped.isEmpty then none
    else
      let (repairs, cost) := giveUp source a.repairs r skipped
      let next := attempt g source repairs (a.cost + cost)
      if next.passes stop then some next else none

/-- Skips token after token until every way to go on is cheaper than to skip one more. `best` is the
cost of the cheapest way known. -/
def skipOn (a : Attempt) (retreats : List Retreat) :
    List Span → List Stray → Option Nat → List Attempt → List Attempt
  | skipped, [], _, found =>
    match recoverAt g source a retreats skipped (Text.byteLength source) with
    | some next => found ++ [next]
    | none => found
  | skipped, t :: ts, best, found =>
    let recovered := recoverAt g source a retreats skipped t.span.start
    let found := found ++ recovered.toList
    let best := match recovered, best with
      | some next, some b => some (min next.cost b)
      | some next, none => some next.cost
      | none, b => b
    let skipped := skipped ++ [t.span]
    let tariff := Tariff.standard
    let bytes := t.span.stop - ((skipped.head?.map (·.start)).getD t.span.start)
    let cost := a.cost + tariff.departure + tariff.part * skipped.length + bytes
    if best.any (· < cost) then found
    else skipOn a retreats skipped ts best found

/-- The first token that can be supplied so that the reader goes on. Nothing is supplied at the end
of a source. -/
def supplyOne (a : Attempt) (f : Frontier) : Option Attempt :=
  let sites := f.sites.reverse
  let (words, others) := sites.partition fun s => s.expected == "identifier"
  (words ++ others).findSome? fun s =>
    if f.rest.isEmpty then none
    else
      let next := attempt g source (a.repairs ++ [.supply s.offset s.expected])
        (a.cost + Tariff.standard.departure + Tariff.standard.supplied)
      if next.passes f.reach then some next else none

/-- The ways in which a stuck attempt can go on. `rival` is the cost of the cheapest other attempt
that reads on. -/
def continuations (a : Attempt) (f : Frontier) (rival : Option Nat) : List Attempt :=
  let supplied := supplyOne g source a f
  let best := match supplied, rival with
    | some s, some r => some (min s.cost r)
    | some s, none => some s.cost
    | none, r => r
  let tokens := strays g (f.rest.length + 1) f.reach f.rest
  supplied.toList ++ skipOn g source a f.retreats [] tokens best []

/-- Takes the attempt that stopped first out of a list, with the place where it stopped. -/
def takeStuck : List Attempt → Option (Attempt × Frontier × List Attempt)
  | [] => none
  | a :: as =>
    match a.outcome, takeStuck as with
    | .ok _, some (b, f, rest) => some (b, f, a :: rest)
    | .ok _, none => none
    | .error f, some (b, h, rest) =>
      if h.reach < f.reach then some (b, h, a :: rest) else some (a, f, as)
    | .error f, none => some (a, f, as)

/-- The attempt of least cost, the last one of several. -/
def cheapest : List Attempt → Option Attempt
  | [] => none
  | a :: as =>
    match cheapest as with
    | some b => if b.cost ≤ a.cost then some b else some a
    | none => some a

/-- Follows attempts side by side, the one that stopped first next, until all are finished or have
given way. -/
def settleAttempts : Nat → List Attempt → List Attempt
  | 0, pool => pool
  | fuel + 1, pool =>
    match takeStuck pool with
    | none => pool
    | some (a, f, others) =>
      let rivals := others.filter fun b => b.passes f.reach
      let rival := (cheapest rivals).map (·.cost)
      if rival.any (· < a.cost + Tariff.standard.departure) then settleAttempts fuel others
      else settleAttempts fuel (others ++ continuations g source a f rival)

/-- The tree of a source in which nothing can be made out. -/
def unreadable (f : Frontier) : Node :=
  let first := Cursor.start source
  let parts := match f.sites.getLast? with
    | some site => site.stack.reverse
    | none => []
  let leaves := (strays g (f.rest.length + 1) f.reach f.rest).map fun t =>
    Node.mk (.token (String.ofList (Text.slice t.span source))) none t.span []
  let children := parts ++ leaves
  let stop := first.offset + Text.byteLength first.rest
  let span : Span := match children.head?, children.getLast? with
    | some a, some b => ⟨a.span.start, b.span.stop⟩
    | _, _ => ⟨first.offset, stop⟩
  .mk (.category g.rootName) none ⟨first.offset, stop⟩ [.mk .error none span children]

def repairLimit : Nat := 64

def parse : Node :=
  match readWith g [] source with
  | .ok tree => tree
  | .error f =>
    let pool := settleAttempts g source repairLimit [⟨[], 0, .error f⟩]
    let finished := pool.filter fun a => a.reach?.isNone
    match cheapest finished with
    | some a => a.outcome.toOption.getD (unreadable g source f)
    | none => unreadable g source f

end

end Restyle.Syntax
