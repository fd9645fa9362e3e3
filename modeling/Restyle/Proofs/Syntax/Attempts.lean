import Mathlib.Tactic.SplitIfs
import Restyle.Syntax.Recovery
/-!
Attempts to read a faulty source. Each is the reading of the source under some repairs, which were
those of an attempt that got stuck, or part of them, and one repair more. So the tree that is chosen
in the end is what the reader makes of the source under repairs that came about step by step.
-/

namespace Restyle.Syntax

variable {Rule : Type} {g : Grammar Rule} {source : List Char}

def Frontier.tokens (g : Grammar Rule) (f : Frontier) : List Stray :=
  strays g (f.rest.length + 1) f.reach f.rest

/-- Repairs under which a source is read: none at first, and one more wherever the reader gets stuck
under others. It supplies the token expected at a site, or gives up what was read since a retreat
with the first tokens behind the place where the reader stopped. -/
inductive Tried (g : Grammar Rule) (source : List Char) : List Repair → Prop
  | none : Tried g source []
  | supply {repairs : List Repair} {f : Frontier} (s : Site) : Tried g source repairs →
      readWith g repairs source = .error f →
      Tried g source (repairs ++ [.supply s.offset s.expected])
  | giveUp {repairs : List Repair} {f : Frontier} {r : Retreat} {skipped rest : List Stray} :
      Tried g source repairs → readWith g repairs source = .error f → r ∈ f.retreats →
      f.tokens g = skipped ++ rest →
      (r.parts.isEmpty && (skipped.map Stray.span).isEmpty) = false →
      Tried g source (giveUp source repairs r (skipped.map Stray.span)).1

/-- An attempt is the reading of the source under repairs that are tried. -/
structure Attempt.Genuine (g : Grammar Rule) (source : List Char) (a : Attempt) : Prop where
  tried : Tried g source a.repairs
  outcome : a.outcome = readWith g a.repairs source

section

variable {a next : Attempt} {f : Frontier}

theorem Attempt.Genuine.stuck (own : a.Genuine g source) (stuck : a.outcome = .error f) :
    readWith g a.repairs source = .error f := own.outcome.symm.trans stuck

theorem recoverAt_genuine {skipped rest : List Stray} {stop : Nat} (own : a.Genuine g source)
    (stuck : a.outcome = .error f)
    (tokens : f.tokens g = skipped ++ rest)
    (h : recoverAt g source a f.retreats (skipped.map Stray.span) stop = some next) :
    next.Genuine g source := by
  obtain ⟨r, member, found⟩ := List.exists_of_findSome?_eq_some h
  split at found
  · cases found
  · rename_i some_
    dsimp only at found
    split at found
    · cases found
      exact ⟨.giveUp own.tried (own.stuck stuck) member tokens (Bool.eq_false_iff.mpr some_), rfl⟩
    · cases found

/-- The tokens skipped are always the first ones behind the place where the attempt stopped. -/
theorem skipOn_genuine {skipped rest : List Stray} {best : Option Nat} {found : List Attempt}
    (own : a.Genuine g source) (stuck : a.outcome = .error f)
    (tokens : f.tokens g = skipped ++ rest)
    (h : ∀ b ∈ found, b.Genuine g source) :
    ∀ b ∈ skipOn g source a f.retreats (skipped.map Stray.span) rest best found,
      b.Genuine g source := by
  induction rest generalizing skipped best found with
  | nil =>
      unfold skipOn
      split
      · rename_i next recovered
        intro b member
        rcases List.mem_append.mp member with old | new
        · exact h b old
        · rw [List.mem_singleton.mp new]
          exact recoverAt_genuine own stuck tokens recovered
      · exact h
  | cons t ts ih =>
      have more : ∀ b ∈ found ++ (recoverAt g source a f.retreats (skipped.map Stray.span)
          t.span.start).toList, b.Genuine g source := by
        intro b member
        rcases List.mem_append.mp member with old | new
        · exact h b old
        · exact recoverAt_genuine own stuck tokens (Option.mem_toList.mp new)
      have tokens' : f.tokens g = (skipped ++ [t]) ++ ts := by
        rw [tokens, List.append_assoc]
        rfl
      have further : skipped.map Stray.span ++ [t.span] = (skipped ++ [t]).map Stray.span := by
        rw [List.map_append, List.map_singleton]
      unfold skipOn
      dsimp only
      split_ifs
      · exact more
      · rw [further]
        exact ih tokens' more

theorem supplyOne_genuine (own : a.Genuine g source) (stuck : a.outcome = .error f)
    (h : supplyOne g source a f = some next) : next.Genuine g source := by
  obtain ⟨s, -, found⟩ := List.exists_of_findSome?_eq_some h
  split at found
  · cases found
  · dsimp only at found
    split at found
    · cases found
      exact ⟨.supply s own.tried (own.stuck stuck), rfl⟩
    · cases found

theorem continuations_genuine {rival : Option Nat} (own : a.Genuine g source)
    (stuck : a.outcome = .error f) :
    ∀ b ∈ continuations g source a f rival, b.Genuine g source := by
  intro b member
  rcases List.mem_append.mp member with supplied | skipped
  · exact supplyOne_genuine own stuck (Option.mem_toList.mp supplied)
  · exact skipOn_genuine own stuck (List.nil_append _).symm
      (fun _ none => absurd none List.not_mem_nil) b skipped

theorem takeStuck_mem {pool others : List Attempt} (h : takeStuck pool = some (a, f, others)) :
    a ∈ pool ∧ a.outcome = .error f ∧ ∀ b ∈ others, b ∈ pool := by
  induction pool generalizing a f others with
  | nil => cases h
  | cons p pool ih =>
      have here : ∀ {h : Frontier}, p.outcome = .error h →
          p ∈ p :: pool ∧ p.outcome = .error h ∧ ∀ b ∈ pool, b ∈ p :: pool :=
        fun failed => ⟨List.mem_cons_self, failed, fun b => List.mem_cons_of_mem p⟩
      have later : ∀ {b h rest}, takeStuck pool = some (b, h, rest) →
          b ∈ p :: pool ∧ b.outcome = .error h ∧ ∀ c ∈ p :: rest, c ∈ p :: pool := by
        intro b h rest stuck
        obtain ⟨member, outcome, kept⟩ := ih stuck
        exact ⟨List.mem_cons_of_mem p member, outcome, List.forall_mem_cons.mpr
          ⟨List.mem_cons_self, fun c other => List.mem_cons_of_mem p (kept c other)⟩⟩
      unfold takeStuck at h
      split at h
      · rename_i stuck
        cases h
        exact later stuck
      · cases h
      · rename_i failed stuck
        split at h
        · cases h
          exact later stuck
        · cases h
          exact here failed
      · rename_i failed _
        cases h
        exact here failed

theorem settleAttempts_genuine (fuel : Nat) {pool : List Attempt}
    (h : ∀ b ∈ pool, b.Genuine g source) :
    ∀ b ∈ settleAttempts g source fuel pool, b.Genuine g source := by
  induction fuel generalizing pool with
  | zero => exact h
  | succ fuel ih =>
      unfold settleAttempts
      split
      · exact h
      · rename_i a f others taken
        obtain ⟨member, stuck, rest⟩ := takeStuck_mem taken
        have kept : ∀ b ∈ others, b.Genuine g source := fun b member => h b (rest b member)
        dsimp only
        split
        · exact ih kept
        · refine ih fun b new => ?_
          rcases List.mem_append.mp new with old | new
          · exact kept b old
          · exact continuations_genuine (h a member) stuck b new

theorem cheapest_mem {pool : List Attempt} (h : cheapest pool = some a) : a ∈ pool := by
  induction pool generalizing a with
  | nil => cases h
  | cons p pool ih =>
      unfold cheapest at h
      split at h
      · rename_i b other
        split at h
        · cases h
          exact List.mem_cons_of_mem p (ih other)
        · cases h
          exact List.mem_cons_self
      · cases h
        exact List.mem_cons_self

end

/-- A parsed tree is that of a reading under repairs that are tried, or that of a source in which
nothing can be made out. -/
theorem parse_tried (g : Grammar Rule) (source : List Char) :
    (∃ repairs, Tried g source repairs ∧ readWith g repairs source = .ok (parse g source)) ∨
      ∃ f, readWith g [] source = .error f ∧ parse g source = unreadable g source f := by
  unfold parse
  split
  · rename_i tree reading
    exact .inl ⟨[], .none, reading⟩
  · rename_i f reading
    have first : ∀ b ∈ [(⟨[], 0, .error f⟩ : Attempt)], b.Genuine g source := by
      intro b member
      rw [List.mem_singleton.mp member]
      exact ⟨.none, reading.symm⟩
    have genuine := settleAttempts_genuine repairLimit first
    dsimp only
    split
    · rename_i a chosen
      have own := genuine a (List.mem_filter.mp (cheapest_mem chosen)).1
      cases outcome : a.outcome with
      | error f' => exact .inr ⟨f, reading, rfl⟩
      | ok tree => exact .inl ⟨a.repairs, own.tried, own.outcome.symm.trans outcome⟩
    · exact .inr ⟨f, reading, rfl⟩

end Restyle.Syntax
