import Restyle.Proofs.Syntax.Faults
import Restyle.Proofs.Syntax.Repaired
/-!
The order of nodes in any tree. What is given up where a reader is stuck are nodes that it has read
and, behind them, tokens of the source, so they lie one after another as they would have in a tree
without faults. Hence in every parsed tree, however faulty, each node stands between characters with
its children in order inside of it.
-/

namespace Restyle.Syntax

open Cursor (Later)
open Text (byteLength)

variable {Rule : Type} {g : Grammar Rule} {source : List Char}

/-- Nodes in source order, each of which ends before the one after it begins; all are placed and lie
behind an offset. -/
structure Row (source : List Char) (low : Nat) (ns : List Node) : Prop where
  behind : ∀ n ∈ ns, low ≤ n.span.start
  apart : ns.Pairwise fun a b => a.span.stop ≤ b.span.start
  placed : ∀ n ∈ ns, n.Everywhere (Node.Placed source)

namespace Row

variable {low : Nat} {n first last : Node} {ms ns : List Node}

theorem nil : Row source low [] :=
  ⟨fun _ none => absurd none List.not_mem_nil, .nil, fun _ none => absurd none List.not_mem_nil⟩

theorem mono {below : Nat} (h : Row source low ns) (le : below ≤ low) : Row source below ns :=
  ⟨fun n member => Nat.le_trans le (h.behind n member), h.apart, h.placed⟩

theorem cons (placed : n.Everywhere (Node.Placed source)) (behind : low ≤ n.span.start)
    (h : Row source n.span.stop ns) : Row source low (n :: ns) := by
  have forward : low ≤ n.span.stop := Nat.le_trans behind placed.here.ordered
  exact ⟨List.forall_mem_cons.mpr ⟨behind, (h.mono forward).behind⟩,
    List.pairwise_cons.mpr ⟨h.behind, h.apart⟩, List.forall_mem_cons.mpr ⟨placed, h.placed⟩⟩

theorem append (h : Row source low ms) (h' : Row source low ns)
    (between : ∀ m ∈ ms, ∀ n ∈ ns, m.span.stop ≤ n.span.start) : Row source low (ms ++ ns) :=
  ⟨List.forall_mem_append.mpr ⟨h.behind, h'.behind⟩,
    List.pairwise_append.mpr ⟨h.apart, h'.apart, between⟩,
    List.forall_mem_append.mpr ⟨h.placed, h'.placed⟩⟩

theorem left (h : Row source low (ms ++ ns)) : Row source low ms :=
  ⟨(List.forall_mem_append.mp h.behind).1, (List.pairwise_append.mp h.apart).1,
    (List.forall_mem_append.mp h.placed).1⟩

theorem of_laid {stop : Nat} (laid : Laid stop ns)
    (placed : ∀ n ∈ ns, n.Everywhere (Node.Placed source)) (behind : ∀ n ∈ ns, low ≤ n.span.start) :
    Row source low ns.reverse :=
  ⟨fun n member => behind n (List.mem_reverse.mp member), laid.pairwise.1,
    fun n member => placed n (List.mem_reverse.mp member)⟩

theorem spanned (h : Row source low ns) (head : ns.head? = some first)
    (tail : ns.getLast? = some last) (kind : Kind) (role : Option Role) :
    low ≤ first.span.start ∧ (Node.mk kind role ⟨first.span.start, last.span.stop⟩ ns).Everywhere
      (Node.Placed source) := by
  have begins := h.placed first (List.mem_of_head? head)
  have ends := h.placed last (List.mem_of_getLast? tail)
  have from_first : ∀ n ∈ ns, first.span.start ≤ n.span.start := by
    obtain ⟨others, rfl⟩ := List.head?_eq_some_iff.mp head
    obtain ⟨apart, -⟩ := List.pairwise_cons.mp h.apart
    exact List.forall_mem_cons.mpr ⟨Nat.le_refl _, fun n member =>
      Nat.le_trans begins.here.ordered (apart n member)⟩
  have to_last : ∀ n ∈ ns, n.span.stop ≤ last.span.stop := by
    obtain ⟨others, rfl⟩ := List.getLast?_eq_some_iff.mp tail
    obtain ⟨-, -, apart⟩ := List.pairwise_append.mp h.apart
    refine List.forall_mem_append.mpr ⟨fun n member => ?_, List.forall_mem_singleton.mpr
      (Nat.le_refl _)⟩
    exact Nat.le_trans (apart n member last List.mem_cons_self) ends.here.ordered
  have ordered : first.span.start ≤ last.span.stop :=
    Nat.le_trans begins.here.ordered (to_last first (List.mem_of_head? head))
  exact ⟨h.behind first (List.mem_of_head? head), .mk ⟨ordered, begins.here.start, ends.here.stop,
    h.apart, fun n member => ⟨from_first n member, to_last n member⟩⟩ h.placed⟩

end Row

/-- The bytes from the first of some nodes to the last, or others where there are none. -/
def stretchOf (ns : List Node) (nothing : Span) : Span :=
  match ns.head?, ns.getLast? with
  | some first, some last => ⟨first.span.start, last.span.stop⟩
  | _, _ => nothing

theorem Row.around {low : Nat} {ns : List Node} (h : Row source low ns) {nothing : Span}
    {kind : Kind} {role : Option Role} (empty : ns = [] → low ≤ nothing.start ∧
      (Node.mk kind role nothing []).Everywhere (Node.Placed source)) :
    low ≤ (stretchOf ns nothing).start ∧
      (Node.mk kind role (stretchOf ns nothing) ns).Everywhere (Node.Placed source) := by
  cases ns with
  | nil => exact empty rfl
  | cons n ns =>
      have tail : (n :: ns).getLast? = some (ns.getLast?.getD n) := List.getLast?_cons
      rw [stretchOf, tail]
      exact h.spanned rfl tail kind role

def leafOver (source : List Char) (s : Span) : Node :=
  .mk (.token (String.ofList (Text.slice s source))) none s []

theorem leafOver_placed {before rest : List Char} (parts : source = before ++ rest) (n : Nat) :
    (leafOver source ⟨byteLength before, byteLength before + byteLength (rest.take n)⟩).Everywhere
      (Node.Placed source) := by
  have behind : source = (before ++ rest.take n) ++ rest.drop n := by
    rw [List.append_assoc, List.take_append_drop]
    exact parts
  refine .leaf ⟨Nat.le_add_right _ _, ?_, ?_, .nil, fun _ none => absurd none List.not_mem_nil⟩
  · rw [parts]
    exact Text.isBoundary_append before rest
  · change Text.isBoundary (byteLength before + byteLength (rest.take n)) source = true
    rw [behind, ← Text.byteLength_append]
    exact Text.isBoundary_append _ _

/-- The tokens of the rest of a source, none of which fits, are a row. -/
theorem strays_row {before rest : List Char} (fuel : Nat) (parts : source = before ++ rest) :
    Row source (byteLength before)
      ((strays g fuel (byteLength before) rest).map fun t => leafOver source t.span) := by
  induction fuel generalizing before rest with
  | zero => exact .nil
  | succ fuel ih =>
      have later : ∀ n, Row source (byteLength before + byteLength (rest.take n))
          ((strays g fuel (byteLength before + byteLength (rest.take n)) (rest.drop n)).map
            fun t => leafOver source t.span) := by
        intro n
        rw [← Text.byteLength_append]
        refine ih ?_
        rw [List.append_assoc, List.take_append_drop]
        exact parts
      unfold strays
      split
      · exact .nil
      · split
        · exact (later 1).mono (Nat.le_add_right _ _)
        · split
          · exact (later _).mono (Nat.le_add_right _ _)
          · exact .cons (leafOver_placed parts _) (Nat.le_refl _) (later _)

theorem Frontier.Sound.tokens_row {f : Frontier} (h : f.Sound source) :
    Row source f.reach ((f.tokens g).map fun t => leafOver source t.span) := by
  unfold Frontier.tokens
  rcases h.ahead with nothing | ⟨c, reached, rest, reach⟩
  · rw [nothing]
    exact .nil
  · obtain ⟨before, parts, bytes⟩ := reached.sited.ahead
    rw [← rest, ← reach, ← bytes]
    exact strays_row _ parts

theorem mem_insert {a r : Retreat} {rs : List Retreat} (h : r ∈ Retreat.insert a rs) :
    r ∈ a :: rs := by
  induction rs with
  | nil => exact h
  | cons s rs ih =>
      unfold Retreat.insert at h
      split at h
      · exact h
      · rcases List.mem_cons.mp h with rfl | later
        · exact List.mem_cons_of_mem a List.mem_cons_self
        · rcases List.mem_cons.mp (ih later) with rfl | member
          · exact List.mem_cons_self
          · exact List.mem_cons_of_mem a (List.mem_cons_of_mem s member)

theorem mem_of_mem_foldr {α : Type} {step : α → List α → List α}
    (keeps : ∀ a kept, ∀ r ∈ step a kept, r ∈ a :: kept) {r : α} {rs : List α}
    (h : r ∈ rs.foldr step []) : r ∈ rs := by
  induction rs with
  | nil => exact h
  | cons a rs ih =>
      rcases List.mem_cons.mp (keeps a _ r h) with rfl | later
      · exact List.mem_cons_self
      · exact List.mem_cons_of_mem a (ih later)

theorem mem_retreats {f : Frontier} {r : Retreat} (h : r ∈ f.retreats) :
    ∃ s ∈ f.sites, ∃ b ∈ (⟨s.offset, s.height⟩ :: s.boundaries : List Boundary),
      r = ⟨b.offset, (s.stack.take (s.height - b.height)).reverse⟩ := by
  have sorted := mem_of_mem_foldr (fun a kept r member => by
    rcases List.mem_cons.mp member with rfl | later
    · exact List.mem_cons_self
    · exact List.mem_cons_of_mem a (List.mem_filter.mp later).1) h
  have all := mem_of_mem_foldr (fun a kept r member => mem_insert member) sorted
  obtain ⟨s, member, own⟩ := List.mem_flatMap.mp all
  obtain ⟨b, passed, same⟩ := List.mem_map.mp own
  exact ⟨s, List.mem_reverse.mp member, b, passed, same.symm⟩

/-- What was read since a retreat is a row behind it that ends before the frontier. -/
theorem Frontier.Sound.retreats_row {f : Frontier} (h : f.Sound source) {r : Retreat}
    (member : r ∈ f.retreats) :
    Row source r.offset r.parts ∧ (∀ n ∈ r.parts, n.span.stop ≤ f.reach) ∧ r.offset ≤ f.reach := by
  obtain ⟨s, site, b, passed, rfl⟩ := mem_retreats member
  obtain ⟨⟨c, reached, offset, stack, height, boundaries⟩, le⟩ := h.sites s site
  have before : b.Before c := by
    rcases List.mem_cons.mp passed with rfl | earlier
    · exact ⟨c, offset, height, Later.refl c⟩
    · exact boundaries b earlier
  obtain ⟨e, e_offset, e_height, forward, above, below, parts, -, count, behind⟩ := before
  have since : s.stack.take (s.height - b.height) = above := by
    rw [← stack, parts, ← height, count, ← e_height, Nat.add_sub_cancel_left, List.take_left]
  have laid : Laid c.offset above := by
    have whole := reached.sited.laid
    rw [parts] at whole
    exact whole.of_append
  rw [since]
  refine ⟨.of_laid laid (fun n new => reached.sited.placed n ?_) ?_, fun n new => ?_, ?_⟩
  · rw [parts]
    exact List.mem_append_left below new
  · rw [← e_offset]
    exact behind
  · have ends := (laid.pairwise.2 n (List.mem_reverse.mp new)).2
    exact Nat.le_trans ends (offset ▸ le)
  · rw [← e_offset]
    exact Nat.le_trans forward (offset ▸ le)

theorem Row.append_strays {low : Nat} {parts : List Node} {f : Frontier}
    {skipped rest : List Stray} (h : Row source low parts)
    (ends : ∀ n ∈ parts, n.span.stop ≤ f.reach) (sound : f.Sound source)
    (le : f.rest ≠ [] → low ≤ f.reach)
    (tokens : f.tokens g = skipped ++ rest) :
    Row source low (parts ++ (skipped.map Stray.span).map (leafOver source)) := by
  have row := sound.tokens_row (g := g)
  rw [tokens, List.map_append] at row
  rw [List.map_map]
  by_cases nothing : f.rest = []
  · rw [Frontier.tokens, nothing] at tokens
    obtain ⟨rfl, -⟩ := List.append_eq_nil_iff.mp tokens.symm
    rw [List.map_nil, List.append_nil]
    exact h
  · refine h.append (row.left.mono (le nothing)) fun m part n token => ?_
    exact Nat.le_trans (ends m part) (row.left.behind n token)

/-- Giving up what was read since a retreat together with the first tokens behind the frontier adds
a placed repair. -/
theorem giveUp_placed {repairs : List Repair} {f : Frontier} {r : Retreat}
    {skipped rest : List Stray} (placed : ∀ p ∈ repairs, p.Placed source) (sound : f.Sound source)
    (member : r ∈ f.retreats)
    (tokens : f.tokens g = skipped ++ rest)
    (some_ : (r.parts.isEmpty && (skipped.map Stray.span).isEmpty) = false) :
    ∀ p ∈ (giveUp source repairs r (skipped.map Stray.span)).1, p.Placed source := by
  obtain ⟨parts, ends, forward⟩ := sound.retreats_row member
  have row := parts.append_strays ends sound (fun _ => forward) tokens
  refine List.forall_mem_append.mpr ⟨fun p kept => placed p (List.mem_filter.mp kept).1, ?_⟩
  refine List.forall_mem_singleton.mpr (row.around fun none => ?_)
  obtain ⟨no_parts, no_tokens⟩ := List.append_eq_nil_iff.mp none
  rw [no_parts, List.map_eq_nil_iff.mp no_tokens] at some_
  cases some_

theorem Tried.placed {repairs : List Repair} (h : Tried g source repairs) :
    ∀ p ∈ repairs, p.Placed source := by
  induction h with
  | none => exact fun _ none => absurd none List.not_mem_nil
  | supply s tried stuck ih =>
      exact List.forall_mem_append.mpr ⟨ih, List.forall_mem_singleton.mpr trivial⟩
  | giveUp tried stuck member tokens some_ ih =>
      exact giveUp_placed ih (readWith_sound ih stuck) member tokens some_

/-- The nodes at the first site of a frontier. -/
def Frontier.partsRead (f : Frontier) : List Node :=
  match f.sites.getLast? with
  | some site => site.stack.reverse
  | .none => []

theorem Frontier.Sound.partsRead_row {f : Frontier} (h : f.Sound source) :
    Row source (Cursor.start source).offset f.partsRead ∧
      ∀ n ∈ f.partsRead, n.span.stop ≤ f.reach := by
  unfold Frontier.partsRead
  split
  · rename_i s first
    obtain ⟨⟨c, reached, offset, stack, -, -⟩, le⟩ := h.sites s (List.mem_of_getLast? first)
    rw [← stack]
    refine ⟨.of_laid reached.sited.laid reached.sited.placed reached.behind, fun n member => ?_⟩
    have ends := (reached.sited.laid.pairwise.2 n (List.mem_reverse.mp member)).2
    exact Nat.le_trans ends (offset ▸ le)
  · exact ⟨.nil, fun _ none => absurd none List.not_mem_nil⟩

/-- Where nothing can be made out, one error stands for the whole source. -/
theorem unreadable_placed {f : Frontier} (sound : f.Sound source) :
    (unreadable g source f).Everywhere (Node.Placed source) := by
  have start := Cursor.start_sited source
  have ends := Text.isBoundary_length source
  have whole : (Cursor.start source).offset + byteLength (Cursor.start source).rest
      = byteLength source := by
    obtain ⟨before, parts, bytes⟩ := start.ahead
    rw [← bytes, ← Text.byteLength_append, ← parts]
  have forward := Text.le_of_isBoundary start.boundary
  have reach : f.rest ≠ [] → (Cursor.start source).offset ≤ f.reach := by
    intro more
    obtain ⟨c, reached, -, reach⟩ := sound.ahead.resolve_left more
    rw [← reach]
    exact reached.later.1
  obtain ⟨read, stops⟩ := sound.partsRead_row
  have row := read.append_strays (g := g) stops sound reach (List.append_nil _).symm
  rw [List.map_map] at row
  have nothing : (Node.mk .error none ⟨(Cursor.start source).offset, byteLength source⟩
      []).Everywhere (Node.Placed source) :=
    .leaf ⟨forward, start.boundary, ends, .nil, fun _ none => absurd none List.not_mem_nil⟩
  obtain ⟨behind, error⟩ := row.around fun _ => ⟨Nat.le_refl _, nothing⟩
  unfold unreadable
  dsimp only
  rw [whole]
  exact .mk ⟨forward, start.boundary, ends, List.pairwise_singleton _ _,
    List.forall_mem_singleton.mpr ⟨behind, Text.le_of_isBoundary error.here.stop⟩⟩
    (List.forall_mem_singleton.mpr error)

/-- In every parsed tree all nodes stand between characters of the source, and the children of each
lie one after another inside of it. -/
theorem parse_placed (g : Grammar Rule) (source : List Char) :
    (parse g source).Everywhere (Node.Placed source) := by
  rcases parse_tried g source with ⟨repairs, tried, reading⟩ | ⟨f, stuck, same⟩
  · exact readWith_placed tried.placed reading
  · rw [same]
    exact unreadable_placed (readWith_sound (fun _ none => absurd none List.not_mem_nil) stuck)

theorem Node.Everywhere.of_mem_preorder {P : Node → Prop} {n m : Node} (h : n.Everywhere P)
    (member : m ∈ n.preorder) : m.Everywhere P := by
  induction h with
  | @mk n here inside ih =>
      cases n
      rcases Node.mem_preorder.mp member with rfl | ⟨c, child, below⟩
      · exact .mk here inside
      · exact ih c child below

end Restyle.Syntax
