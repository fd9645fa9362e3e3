import Mathlib.Data.List.Basic
import Mathlib.Data.List.Nodup
import Restyle.Sheet.Resolved
import Restyle.Proofs.OrderedTable
/-!
The style of some tokens as a union. Each context of their entries has one group, the free context
first, and a group has each property once, at its first place and with its last value.
-/

namespace Restyle.Sheet

open OrderedTable (upsert tabulate)

/-- The value that a property has last among some pairs. -/
def lastValue? (pairs : List (String × String)) (property : String) : Option String :=
  ((pairs.filter (·.1 == property)).getLast?).map Prod.snd

/-- Each property of some pairs, in order of first appearance, with its last value. -/
def orderedUnion (pairs : List (String × String)) : Declarations :=
  (pairs.map Prod.fst).eraseDups.filterMap fun property =>
    (lastValue? pairs property).map (property, ·)

/-- The contexts of some entries, each once, the free one in front of the others. -/
def contextsOf (entries : List Entry) : List Context :=
  let contexts := (entries.map (·.context)).eraseDups
  (if Context.free ∈ contexts then [Context.free] else [])
    ++ contexts.filter fun c => c ≠ Context.free

/-- The declarations of the entries of one context, one entry after the other. -/
def declaredIn (entries : List Entry) (c : Context) : List (String × String) :=
  (entries.filter (·.context == c)).flatMap (·.declarations)

/-- The union of what a table says of some tokens. -/
def unionOf (t : StyleTable) (tokens : List String) : ResolvedStyle where
  groups := (contextsOf (tokens.flatMap t.lookup)).map fun c =>
    (c, orderedUnion (declaredIn (tokens.flatMap t.lookup) c))
  dropped := tokens.filter fun token => t.lookup token = []

namespace Declarations

theorem put_eq_upsert (property value : String) (ds : Declarations) :
    ds.put property value = upsert "" property (fun _ => value) ds := by
  induction ds with
  | nil => rfl
  | cons d ds ih => simp only [put, upsert, ih]

theorem putAll_flatMap (ds : Declarations) (entries : List Entry) :
    entries.foldl (fun ds e => ds.putAll e.declarations) ds =
      ds.putAll (entries.flatMap (·.declarations)) := by
  simp only [putAll, List.foldl_flatMap]

end Declarations

theorem orderedUnion_eq_tabulate (pairs : List (String × String)) :
    orderedUnion pairs = tabulate Prod.fst "" (fun _ d => d.2) pairs := by
  rw [tabulate, orderedUnion]
  apply List.filterMap_eq_map_iff_forall_eq_some.mpr
  intro property member
  obtain ⟨d, there, rfl⟩ := List.mem_map.mp (List.mem_eraseDups.mp member)
  have some_pair : pairs.filter (·.1 == d.1) ≠ [] :=
    List.ne_nil_of_mem (List.mem_filter.mpr ⟨there, beq_self_eq_true d.1⟩)
  obtain ⟨before, last, parts⟩ := (List.eq_nil_or_concat _).resolve_left some_pair
  simp [lastValue?, parts]

theorem putAll_nil_eq_orderedUnion (pairs : List (String × String)) :
    Declarations.putAll [] pairs = orderedUnion pairs := by
  rw [orderedUnion_eq_tabulate, ← OrderedTable.foldl_upsert]
  simp only [Declarations.putAll, Declarations.put_eq_upsert]

@[simp] theorem orderedUnion_map_fst (pairs : List (String × String)) :
    (orderedUnion pairs).map Prod.fst = (pairs.map Prod.fst).eraseDups := by
  rw [orderedUnion_eq_tabulate, OrderedTable.tabulate_map_fst]

theorem mem_orderedUnion_declaredIn {entries : List Entry} {c : Context} {property : String} :
    property ∈ (orderedUnion (declaredIn entries c)).map Prod.fst ↔
      ∃ e ∈ entries, e.context = c ∧ property ∈ e.declarations.map Prod.fst := by
  rw [orderedUnion_map_fst, List.mem_eraseDups, declaredIn, List.map_flatMap, List.mem_flatMap]
  simp only [List.mem_filter, beq_iff_eq, and_assoc]

theorem contextsOf_nodup (entries : List Entry) : (contextsOf entries).Nodup := by
  have once := OrderedTable.nodup_eraseDups (entries.map (·.context))
  refine List.nodup_append.mpr ⟨?_, once.filter _, ?_⟩
  · split
    · exact List.nodup_singleton _
    · exact List.nodup_nil
  · intro c front d behind
    have other : d ≠ Context.free := by simpa using (List.mem_filter.mp behind).2
    split at front
    · rw [List.mem_singleton.mp front]
      exact other.symm
    · cases front

theorem mem_contextsOf {entries : List Entry} {c : Context} :
    c ∈ contextsOf entries ↔ ∃ e ∈ entries, e.context = c := by
  have there : c ∈ (entries.map (·.context)).eraseDups ↔ ∃ e ∈ entries, e.context = c := by
    rw [List.mem_eraseDups, List.mem_map]
  rw [← there, contextsOf, List.mem_append, List.mem_filter]
  by_cases free : c = Context.free
  · subst free
    split <;> simp_all
  · split <;> simp [free]

namespace ResolvedStyle

theorem addEntry_eq_upsert (e : Entry) (groups : List (Context × Declarations)) :
    addEntry e groups = upsert [] e.context (fun ds => Declarations.putAll ds e.declarations) groups := by
  induction groups with
  | nil => rfl
  | cons g gs ih => simp only [addEntry, upsert, ih]

theorem gather_eq (t : StyleTable) (tokens : List String) :
    gather t tokens = ((tokens.flatMap t.lookup).map (·.context)).eraseDups.map fun c =>
      (c, orderedUnion (declaredIn (tokens.flatMap t.lookup) c)) := by
  have table : gather t tokens = tabulate Entry.context []
      (fun ds e => Declarations.putAll ds e.declarations) (tokens.flatMap t.lookup) := by
    rw [← OrderedTable.foldl_upsert]
    simp only [gather, addEntry_eq_upsert]
  rw [table, tabulate]
  simp only [Declarations.putAll_flatMap, putAll_nil_eq_orderedUnion, declaredIn]

theorem freeFirst_map (contexts : List Context) (once : contexts.Nodup)
    (ds : Context → Declarations) :
    freeFirst (contexts.map fun c => (c, ds c)) =
      ((if Context.free ∈ contexts then [Context.free] else [])
        ++ contexts.filter fun c => c ≠ Context.free).map fun c => (c, ds c) := by
  have front : contexts.filter (· == Context.free) =
      if Context.free ∈ contexts then [Context.free] else [] := by
    rw [List.filter_beq, List.Nodup.count once]
    split <;> rfl
  rw [freeFirst, List.filter_map, List.filter_map, ← List.map_append, ← front]
  congr 2
  apply List.filter_congr
  intro c _
  by_cases same : c = Context.free
  · simp [same]
  · simp [same]

theorem resolve_eq (t : StyleTable) (tokens : List String) :
    resolve t tokens = unionOf t tokens := by
  have once := OrderedTable.nodup_eraseDups ((tokens.flatMap t.lookup).map (·.context))
  have groups : freeFirst (gather t tokens) = (unionOf t tokens).groups := by
    rw [gather_eq, freeFirst_map _ once]
    rfl
  have dropped : (tokens.filter fun token => (t.lookup token).isEmpty) =
      (unionOf t tokens).dropped := by
    apply List.filter_congr
    intro token _
    cases t.lookup token <;> rfl
  rw [resolve, groups, dropped]

theorem resolve_groups_map_fst (t : StyleTable) (tokens : List String) :
    (resolve t tokens).groups.map Prod.fst = contextsOf (tokens.flatMap t.lookup) := by
  rw [resolve_eq, unionOf, List.map_map]
  exact List.map_id _

/-- Nothing is lost, repeated or put elsewhere: the style of some tokens is the union of their
entries, contexts and properties stand once, and a property stands in the group of a context exactly
when an entry of that context, of one of the tokens, declares it. -/
theorem resolve_eq_unionOf (t : StyleTable) (tokens : List String) :
    resolve t tokens = unionOf t tokens ∧
    ((resolve t tokens).groups.map Prod.fst).Nodup ∧
    ((resolve t tokens).groups.all fun g => (g.2.map Prod.fst).Nodup) ∧
    ∀ c property, (∃ ds, (c, ds) ∈ (resolve t tokens).groups ∧ property ∈ ds.map Prod.fst) ↔
      ∃ token ∈ tokens, ∃ e ∈ t.lookup token,
        e.context = c ∧ property ∈ e.declarations.map Prod.fst := by
  refine ⟨resolve_eq t tokens, ?_, ?_, ?_⟩
  · rw [resolve_groups_map_fst]
    exact contextsOf_nodup _
  · rw [resolve_eq, List.all_eq_true]
    intro g member
    obtain ⟨c, -, rfl⟩ := List.mem_map.mp member
    simpa only [orderedUnion_map_fst, decide_eq_true_eq] using OrderedTable.nodup_eraseDups _
  · intro c property
    have entries : (∃ token ∈ tokens, ∃ e ∈ t.lookup token,
        e.context = c ∧ property ∈ e.declarations.map Prod.fst) ↔
        ∃ e ∈ tokens.flatMap t.lookup, e.context = c ∧
          property ∈ e.declarations.map Prod.fst := by
      simp only [List.mem_flatMap]
      constructor
      · rintro ⟨token, given, e, known, declares⟩
        exact ⟨e, ⟨token, given, known⟩, declares⟩
      · rintro ⟨e, ⟨token, given, known⟩, declares⟩
        exact ⟨token, given, e, known, declares⟩
    rw [entries, resolve_eq, ← mem_orderedUnion_declaredIn]
    constructor
    · rintro ⟨ds, member, there⟩
      obtain ⟨c', -, same⟩ := List.mem_map.mp member
      cases same
      exact there
    · intro there
      obtain ⟨e, member, rfl, -⟩ := mem_orderedUnion_declaredIn.mp there
      exact ⟨_, List.mem_map.mpr ⟨_, mem_contextsOf.mpr ⟨e, member, rfl⟩, rfl⟩, there⟩

end ResolvedStyle

end Restyle.Sheet
