import Mathlib.Data.List.Induction
import Restyle.Proofs.Sheet.Printed
import Restyle.Proofs.Sheet.Union
/-!
Tables filled by insertions. What a table says of a class is made of the insertions for that class
alone: an entry for each of their contexts, with the union of what was inserted in it. Bookkeeping
keys are left out everywhere.
-/

namespace Restyle

namespace OrderedTable

variable {κ α β : Type} [BEq κ] [LawfulBEq κ]

theorem eraseDups_append_eraseDups (ks js : List κ) :
    (ks ++ js.eraseDups).eraseDups = (ks ++ js).eraseDups := by
  induction js using List.reverseRecOn with
  | nil => rfl
  | append_singleton js j ih =>
      have whole : (ks ++ (js ++ [j])).eraseDups =
          if (ks ++ js).contains j then (ks ++ js).eraseDups else (ks ++ js).eraseDups ++ [j] := by
        rw [← List.append_assoc, eraseDups_concat]
      rw [whole, eraseDups_concat]
      cases there : js.contains j with
      | true =>
          rw [if_pos rfl, if_pos (by simp only [List.contains_append, there, Bool.or_true])]
          exact ih
      | false =>
          have same : (ks ++ js.eraseDups).contains j = (ks ++ js).contains j := by
            rw [Bool.eq_iff_iff]
            simp only [List.contains_iff_mem, List.mem_append, List.mem_eraseDups]
          rw [if_neg Bool.false_ne_true, ← List.append_assoc, eraseDups_concat, same, ih]

theorem lookup_tabulate (key : α → κ) (init : β) (build : β → α → β) (xs : List α) (k : κ) :
    ((tabulate key init build xs).lookup k).getD init =
      (xs.filter (key · == k)).foldl build init := by
  have found (ks : List κ) (value : κ → β) : (ks.map fun j => (j, value j)).lookup k =
      if k ∈ ks then some (value k) else none := by
    induction ks with
    | nil => rfl
    | cons j ks ih =>
        rw [List.map_cons, List.lookup_cons, ih]
        by_cases same : k = j
        · simp only [same, beq_self_eq_true, List.mem_cons_self, if_true]
        · have differs : (k == j) = false := beq_false_of_ne same
          simp only [differs, List.mem_cons, same, false_or]
  rw [tabulate, found]
  split
  · rfl
  · rename_i absent
    have no_item : xs.filter (key · == k) = [] := by
      apply List.filter_eq_nil_iff.mpr
      intro x member same
      exact absent (List.mem_eraseDups.mpr (List.mem_map.mpr ⟨x, member, eq_of_beq same⟩))
    rw [no_item]
    rfl

end OrderedTable

namespace Sheet

open OrderedTable (upsert tabulate eraseDups_append_eraseDups)

theorem lastValue?_append (a b : List (String × String)) (property : String) :
    lastValue? (a ++ b) property = (lastValue? b property).or (lastValue? a property) := by
  unfold lastValue?
  rw [List.filter_append, List.getLast?_append]
  cases (b.filter (·.1 == property)).getLast? <;> rfl

theorem lastValue?_orderedUnion (pairs : List (String × String)) (property : String) :
    lastValue? (orderedUnion pairs) property = lastValue? pairs property := by
  have once := OrderedTable.nodup_eraseDups (pairs.map Prod.fst)
  have own (q : String) : ((lastValue? pairs q).map (q, ·)).filter (·.1 == property) =
      if q == property then (lastValue? pairs q).map (q, ·) else none := by
    cases lastValue? pairs q <;> cases same : q == property <;> simp [Option.filter, same]
  have kept : (orderedUnion pairs).filter (·.1 == property) =
      ((pairs.map Prod.fst).eraseDups.filter (· == property)).filterMap fun q =>
        (lastValue? pairs q).map (q, ·) := by
    rw [orderedUnion, List.filter_filterMap, List.filterMap_filter]
    simp only [own]
  rw [lastValue?, kept, List.filter_beq, List.Nodup.count once]
  split
  · cases last : lastValue? pairs property <;> simp [last]
  · rename_i absent
    have none_there : pairs.filter (·.1 == property) = [] := by
      apply List.filter_eq_nil_iff.mpr
      intro d member same
      exact absent (List.mem_eraseDups.mpr (List.mem_map.mpr ⟨d, member, eq_of_beq same⟩))
    rw [lastValue?, none_there]
    rfl

theorem orderedUnion_append_orderedUnion (a b : List (String × String)) :
    orderedUnion (a ++ orderedUnion b) = orderedUnion (a ++ b) := by
  have keys : ((a ++ orderedUnion b).map Prod.fst).eraseDups
      = ((a ++ b).map Prod.fst).eraseDups := by
    rw [List.map_append, orderedUnion_map_fst, eraseDups_append_eraseDups, ← List.map_append]
  have values (property : String) : lastValue? (a ++ orderedUnion b) property
      = lastValue? (a ++ b) property := by
    rw [lastValue?_append, lastValue?_orderedUnion, ← lastValue?_append]
  rw [orderedUnion, keys]
  simp only [values]
  rfl

@[simp] theorem orderedUnion_orderedUnion (pairs : List (String × String)) :
    orderedUnion (orderedUnion pairs) = orderedUnion pairs :=
  orderedUnion_append_orderedUnion [] pairs

theorem orderedUnion_append_congr {a a' : List (String × String)}
    (h : orderedUnion a = orderedUnion a') (more : List (String × String)) :
    orderedUnion (a ++ more) = orderedUnion (a' ++ more) := by
  simp only [← putAll_nil_eq_orderedUnion] at h ⊢
  simp only [Declarations.putAll, List.foldl_append] at h ⊢
  rw [h]

theorem orderedUnion_flatMap {α : Type} (pairs : α → List (String × String)) (xs : List α) :
    orderedUnion (xs.flatMap fun x => orderedUnion (pairs x)) =
      orderedUnion (xs.flatMap pairs) := by
  -- Generalised over what is in front of the parts.
  suffices all : ∀ a, orderedUnion (a ++ xs.flatMap fun x => orderedUnion (pairs x)) =
      orderedUnion (a ++ xs.flatMap pairs) from all []
  induction xs with
  | nil => exact fun a => rfl
  | cons x xs ih =>
      intro a
      rw [List.flatMap_cons, List.flatMap_cons, ← List.append_assoc, ← List.append_assoc,
        orderedUnion_append_congr (orderedUnion_append_orderedUnion a (pairs x)), ih]

/-- None of the properties is the key of a bookkeeping entry. -/
def Unreserved (ds : List (String × String)) : Prop := ∀ d ∈ ds, d.1 ∉ reservedKeys

instance (ds : List (String × String)) : Decidable (Unreserved ds) :=
  inferInstanceAs (Decidable (∀ d ∈ ds, d.1 ∉ reservedKeys))

theorem withoutReserved_eq_self_iff {ds : List (String × String)} :
    withoutReserved ds = ds ↔ Unreserved ds := by
  simp only [withoutReserved, List.filter_eq_self, Bool.not_eq_true', Unreserved,
    List.contains_eq_mem, decide_eq_false_iff_not]

theorem unreserved_withoutReserved (pairs : List (String × String)) :
    Unreserved (withoutReserved pairs) :=
  withoutReserved_eq_self_iff.mp (List.filter_filter.trans (by simp only [Bool.and_self]; rfl))

theorem Unreserved.orderedUnion {pairs : List (String × String)} (h : Unreserved pairs) :
    Unreserved (orderedUnion pairs) := by
  intro d member
  have key : d.1 ∈ (Sheet.orderedUnion pairs).map Prod.fst := List.mem_map_of_mem member
  rw [orderedUnion_map_fst, List.mem_eraseDups] at key
  obtain ⟨e, there, same⟩ := List.mem_map.mp key
  exact same ▸ h e there

theorem withoutReserved_flatMap {α : Type} (pairs : α → List (String × String)) (xs : List α) :
    withoutReserved (xs.flatMap pairs) = xs.flatMap fun x => withoutReserved (pairs x) :=
  List.filter_flatMap

/-- Pairs that are inserted for a class in a context. -/
structure Insertion where
  class_ : String
  context : Context
  pairs : List (String × String)
deriving DecidableEq, Repr

namespace Insertion

def entry (i : Insertion) : Entry := .ofPairs i.context i.pairs

/-- The insertions for one class. -/
def under (class_ : String) (is : List Insertion) : List Insertion :=
  is.filter (·.class_ == class_)

def pairsIn (is : List Insertion) (c : Context) : List (String × String) :=
  (is.filter (·.context == c)).flatMap (·.pairs)

/-- What insertions for one class amount to: an entry for each context, in order of first appearance,
with the union of the pairs that are no bookkeeping. -/
def entries (is : List Insertion) : List Entry :=
  (is.map (·.context)).eraseDups.map fun c => ⟨c, orderedUnion (withoutReserved (pairsIn is c))⟩

theorem entry_declarations (i : Insertion) :
    i.entry.declarations = orderedUnion (withoutReserved i.pairs) :=
  putAll_nil_eq_orderedUnion _

theorem unreserved_entry (i : Insertion) : Unreserved i.entry.declarations := by
  rw [entry_declarations]
  exact (unreserved_withoutReserved i.pairs).orderedUnion

theorem withoutReserved_entry (i : Insertion) :
    withoutReserved i.entry.declarations = orderedUnion (withoutReserved i.pairs) := by
  rw [withoutReserved_eq_self_iff.mpr i.unreserved_entry, entry_declarations]

/-- Entries as a table from contexts to declarations. -/
def asTable (es : List Entry) : List (Context × Declarations) :=
  es.map fun e => (e.context, e.declarations)

theorem asTable_injective {es fs : List Entry} (h : asTable es = asTable fs) : es = fs := by
  refine List.map_injective_iff.mpr ?_ h
  rintro ⟨c, ds⟩ ⟨d, es⟩ same
  cases same
  rfl

/-- An entry takes another insertion of its context in as if its pairs were put one by one; so does
the entry that is still to be made. -/
theorem asTable_merge (i : Insertion) (es : List Entry) :
    asTable (StyleTable.merge i.entry es) =
      upsert [] i.context (Declarations.putAll · (withoutReserved i.entry.declarations))
        (asTable es) := by
  induction es with
  | nil =>
      have made : Declarations.putAll [] (withoutReserved i.entry.declarations)
          = i.entry.declarations := by
        rw [withoutReserved_entry, entry_declarations, putAll_nil_eq_orderedUnion,
          orderedUnion_orderedUnion]
      simp only [StyleTable.merge, asTable, List.map_cons, List.map_nil, upsert, made]
      rfl
  | cons e es ih =>
      have context : i.entry.context = i.context := rfl
      simp only [asTable, List.map_cons, upsert, StyleTable.merge, context] at ih ⊢
      split
      · rfl
      · rw [List.map_cons, ih]

theorem foldl_putAll (is : List Insertion) :
    is.foldl (fun ds i => Declarations.putAll ds (withoutReserved i.entry.declarations)) [] =
      orderedUnion (withoutReserved (is.flatMap (·.pairs))) := by
  have at_once : is.foldl
      (fun ds i => Declarations.putAll ds (withoutReserved i.entry.declarations)) [] =
        Declarations.putAll [] (is.flatMap fun i => withoutReserved i.entry.declarations) := by
    simp only [Declarations.putAll, List.foldl_flatMap]
  rw [at_once, putAll_nil_eq_orderedUnion, withoutReserved_flatMap]
  simp only [withoutReserved_entry]
  exact orderedUnion_flatMap _ is

theorem foldl_merge (is : List Insertion) :
    is.foldl (fun es i => StyleTable.merge i.entry es) [] = entries is := by
  apply asTable_injective
  have stepwise : ∀ es, asTable (is.foldl (fun es i => StyleTable.merge i.entry es) es) =
      is.foldl (fun table i => upsert [] i.context
        (Declarations.putAll · (withoutReserved i.entry.declarations)) table) (asTable es) := by
    induction is with
    | nil => exact fun es => rfl
    | cons i is ih =>
        intro es
        rw [List.foldl_cons, List.foldl_cons, ← asTable_merge, ih]
  rw [stepwise []]
  change is.foldl _ [] = _
  rw [OrderedTable.foldl_upsert (fun i : Insertion => i.context) []
    (fun ds i => Declarations.putAll ds (withoutReserved i.entry.declarations)) is, tabulate]
  simp only [foldl_putAll, asTable, entries, List.map_map, pairsIn]
  rfl

theorem entries_map_context (is : List Insertion) :
    (entries is).map (·.context) = (is.map (·.context)).eraseDups := by
  rw [entries, List.map_map]
  exact List.map_id _

theorem unreserved_of_mem_entries {is : List Insertion} {e : Entry} (member : e ∈ entries is) :
    Unreserved e.declarations := by
  obtain ⟨c, -, rfl⟩ := List.mem_map.mp member
  exact (unreserved_withoutReserved _).orderedUnion

end Insertion

namespace StyleTable

open Insertion (under entries)

theorem mergeInto_eq_upsert (class_ : String) (e : Entry) (cs : List (String × List Entry)) :
    mergeInto class_ e cs = upsert [] class_ (merge e) cs := by
  induction cs with
  | nil => rfl
  | cons c cs ih => simp only [mergeInto, upsert, ih]

def ofInsertions (is : List Insertion) : StyleTable :=
  empty.insertAll (is.map fun i => (i.class_, i.entry))

theorem ofInsertions_classes (is : List Insertion) :
    (ofInsertions is).classes =
      tabulate (·.class_) [] (fun es i => merge i.entry es) is := by
  have stepwise : ∀ t : StyleTable,
      (t.insertAll (is.map fun i => (i.class_, i.entry))).classes =
        is.foldl (fun cs i => upsert [] i.class_ (merge i.entry) cs) t.classes := by
    induction is with
    | nil => exact fun t => rfl
    | cons i is ih =>
        intro t
        rw [List.foldl_cons, ← mergeInto_eq_upsert]
        exact ih (t.insert i.class_ i.entry)
  rw [ofInsertions, stepwise empty, ← OrderedTable.foldl_upsert]
  rfl

theorem lookup_ofInsertions (is : List Insertion) (class_ : String) :
    (ofInsertions is).lookup class_ = entries (under class_ is) := by
  rw [lookup, ofInsertions_classes, OrderedTable.lookup_tabulate, ← Insertion.foldl_merge]
  rfl

theorem lookup_mergeInto (class_ other : String) (e : Entry) (cs : List (String × List Entry)) :
    (mergeInto class_ e cs).lookup other =
      if other = class_ then some (merge e ((cs.lookup class_).getD [])) else cs.lookup other := by
  induction cs with
  | nil =>
      rw [mergeInto, List.lookup_cons]
      by_cases same : other = class_
      · simp only [same, beq_self_eq_true, if_true]
        rfl
      · have differs : (other == class_) = false := beq_false_of_ne same
        simp only [same, differs, if_false]
  | cons c cs ih =>
      obtain ⟨c, es⟩ := c
      rw [mergeInto]
      by_cases here : c = class_
      · subst here
        by_cases same : other = c
        · simp [same]
        · have differs : (other == c) = false := beq_false_of_ne same
          simp [List.lookup_cons, same, differs]
      · have there : (c == class_) = false := beq_false_of_ne here
        have there' : (class_ == c) = false := beq_false_of_ne (Ne.symm here)
        rw [there, if_neg Bool.false_ne_true, List.lookup_cons, ih, List.lookup_cons,
          List.lookup_cons, there']
        by_cases same : other = c
        · subst same
          simp [here]
        · have differs : (other == c) = false := beq_false_of_ne same
          simp only [differs]

theorem lookup_insert_of_ne (t : StyleTable) {class_ other : String} (e : Entry)
    (h : other ≠ class_) : (t.insert class_ e).lookup other = t.lookup other := by
  rw [lookup, insert, lookup_mergeInto, if_neg h]
  rfl

theorem lookup_insert (t : StyleTable) (class_ : String) (e : Entry) :
    (t.insert class_ e).lookup class_ = merge e (t.lookup class_) := by
  rw [lookup, insert, lookup_mergeInto, if_pos rfl]
  rfl

theorem contains_insert (t : StyleTable) (class_ other : String) (e : Entry) :
    (t.insert class_ e).contains other = (decide (other = class_) || t.contains other) := by
  rw [contains, insert, lookup_mergeInto]
  by_cases same : other = class_
  · simp [same]
  · simp [same, contains]

theorem size_insert (t : StyleTable) (class_ : String) (e : Entry) :
    (t.insert class_ e).size = t.size + if t.contains class_ then 0 else 1 := by
  have counted (cs : List (String × List Entry)) : (mergeInto class_ e cs).length =
      cs.length + if (cs.lookup class_).isSome then 0 else 1 := by
    induction cs with
    | nil => rfl
    | cons c cs ih =>
        obtain ⟨c, es⟩ := c
        rw [mergeInto, List.lookup_cons]
        by_cases here : c = class_
        · simp [here]
        · have there : (c == class_) = false := beq_false_of_ne here
          have there' : (class_ == c) = false := beq_false_of_ne (Ne.symm here)
          rw [there, there', if_neg Bool.false_ne_true, List.length_cons, ih, List.length_cons]
          exact Nat.add_right_comm _ _ _
  exact counted t.classes

/-- No question tells the tables apart. -/
structure Agrees (t u : StyleTable) : Prop where
  lookup : ∀ class_, t.lookup class_ = u.lookup class_
  contains : ∀ class_, t.contains class_ = u.contains class_
  size : t.size = u.size
  skipped : t.skipped = u.skipped

theorem insert_comm (t : StyleTable) {a b : String} (apart : a ≠ b) (d e : Entry) :
    ((t.insert a d).insert b e).Agrees ((t.insert b e).insert a d) where
  lookup class_ := by
    by_cases first : class_ = a
    · subst first
      rw [lookup_insert_of_ne _ _ apart, lookup_insert, lookup_insert,
        lookup_insert_of_ne _ _ apart]
    · rw [lookup_insert_of_ne (t.insert b e) _ first]
      by_cases second : class_ = b
      · subst second
        rw [lookup_insert, lookup_insert, lookup_insert_of_ne _ _ first]
      · rw [lookup_insert_of_ne _ _ second, lookup_insert_of_ne _ _ second,
          lookup_insert_of_ne _ _ first]
  contains class_ := by
    simp only [contains_insert]
    exact Bool.or_left_comm _ _ _
  size := by
    simp only [size_insert, contains_insert, apart, Ne.symm apart, decide_false, Bool.false_or]
    exact Nat.add_right_comm _ _ _
  skipped := rfl

/-- A table that was filled by insertions says of each class what the insertions for that class alone
amount to: an entry for each of their contexts and no two for one, with the union of the pairs in
it that are no bookkeeping. Insertions for other classes change nothing of it, so that insertions
for different classes may change places, and no bookkeeping key is in the table or in a style that
comes from it. -/
theorem insertions_by_class (is : List Insertion) :
    (∀ class_, (ofInsertions is).lookup class_ = entries (under class_ is)) ∧
    (∀ class_, (((ofInsertions is).lookup class_).map (·.context)).Nodup) ∧
    (∀ (t : StyleTable) (i : Insertion) (class_ : String), class_ ≠ i.class_ →
      (t.insert i.class_ i.entry).lookup class_ = t.lookup class_) ∧
    (∀ (t : StyleTable) (i j : Insertion), i.class_ ≠ j.class_ →
      ((t.insert i.class_ i.entry).insert j.class_ j.entry).Agrees
        ((t.insert j.class_ j.entry).insert i.class_ i.entry)) ∧
    (∀ c ∈ (ofInsertions is).classes, ∀ e ∈ c.2, Unreserved e.declarations) ∧
    ∀ tokens, ∀ g ∈ (ResolvedStyle.resolve (ofInsertions is) tokens).groups, Unreserved g.2 := by
  refine ⟨lookup_ofInsertions is, ?_, ?_, ?_, ?_, ?_⟩
  · intro class_
    rw [lookup_ofInsertions, Insertion.entries_map_context]
    exact OrderedTable.nodup_eraseDups _
  · exact fun t i class_ other => lookup_insert_of_ne t i.entry other
  · exact fun t i j apart => insert_comm t apart i.entry j.entry
  · intro c member e there
    rw [ofInsertions_classes] at member
    obtain ⟨class_, -, rfl⟩ := List.mem_map.mp member
    rw [Insertion.foldl_merge] at there
    exact Insertion.unreserved_of_mem_entries there
  · intro tokens g member
    rw [ResolvedStyle.resolve_eq] at member
    obtain ⟨c, -, rfl⟩ := List.mem_map.mp member
    apply Unreserved.orderedUnion
    intro d there
    obtain ⟨e, known, declared⟩ := List.mem_flatMap.mp there
    obtain ⟨token, -, found⟩ := List.mem_flatMap.mp (List.mem_filter.mp known).1
    rw [lookup_ofInsertions] at found
    exact Insertion.unreserved_of_mem_entries found d declared

/-- Two classes that are filled in turns, one of them twice in a context. -/
def mixedInsertions : List Insertion :=
  [⟨"a", Context.free, [("color", "red"), ("__rule", "3"), ("margin", "0")]⟩,
    ⟨"b", Context.free, [("color", "green")]⟩,
    ⟨"a", ⟨["@media print"], none⟩, [("color", "black")]⟩,
    ⟨"a", Context.free, [("color", "blue")]⟩]

def otherInsertion : Insertion := ⟨"b", Context.free, [("top", "0")]⟩

theorem insertions_by_class_mixed :
    (ofInsertions mixedInsertions).lookup "a" =
      [⟨Context.free, [("color", "blue"), ("margin", "0")]⟩,
        ⟨⟨["@media print"], none⟩, [("color", "black")]⟩] ∧
    "a" ≠ otherInsertion.class_ ∧
    ((ofInsertions mixedInsertions).insert "b" otherInsertion.entry).lookup "a" =
      (ofInsertions mixedInsertions).lookup "a" ∧
    ∀ i ∈ mixedInsertions, i.class_ = "a" →
      (((ofInsertions mixedInsertions).insert i.class_ i.entry).insert "b"
          otherInsertion.entry).Agrees
        (((ofInsertions mixedInsertions).insert "b" otherInsertion.entry).insert i.class_ i.entry) := by
  obtain ⟨by_class, -, others, commute, -⟩ := insertions_by_class mixedInsertions
  have apart : "a" ≠ otherInsertion.class_ := by decide
  refine ⟨?_, apart, others _ otherInsertion "a" apart, fun i _ own => ?_⟩
  · rw [by_class "a"]
    decide +kernel
  · exact commute _ i otherInsertion (own ▸ apart)

end StyleTable

end Sheet

end Restyle
