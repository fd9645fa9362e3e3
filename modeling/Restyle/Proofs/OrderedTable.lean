/-!
Tables as lists of keys with values, in the order in which the keys came up. A table filled from a
list of items has each key once, at the place of its first item, with the value that the items of
that key build up one after the other.
-/

namespace Restyle.OrderedTable

variable {κ α β : Type} [BEq κ] [LawfulBEq κ]

theorem nodup_eraseDups : ∀ ks : List κ, ks.eraseDups.Nodup
  | [] => List.nodup_nil
  | k :: ks => by
      rw [List.eraseDups_cons, List.nodup_cons]
      refine ⟨?_, nodup_eraseDups _⟩
      intro member
      obtain ⟨-, other⟩ := List.mem_filter.mp (List.mem_eraseDups.mp member)
      simp only [beq_self_eq_true, Bool.not_true, Bool.false_eq_true] at other
termination_by ks => ks.length
decreasing_by exact Nat.lt_succ_of_le (List.length_filter_le _ _)

theorem eraseDups_concat (ks : List κ) (k : κ) :
    (ks ++ [k]).eraseDups = if ks.contains k then ks.eraseDups else ks.eraseDups ++ [k] := by
  rw [List.eraseDups_append]
  cases there : ks.contains k with
  | true =>
      have gone : [k].removeAll ks = [] := by
        simp only [List.removeAll, List.filter_cons, List.elem_eq_contains, there, Bool.not_true,
          Bool.false_eq_true, if_false, List.filter_nil]
      rw [gone, if_pos rfl, List.eraseDups_nil, List.append_nil]
  | false =>
      have kept : [k].removeAll ks = [k] := by
        simp only [List.removeAll, List.filter_cons, List.elem_eq_contains, there, Bool.not_false,
          if_true, List.filter_nil]
      rw [kept, if_neg Bool.false_ne_true, List.eraseDups_cons, List.filter_nil,
        List.eraseDups_nil]

/-- Updates the value of a key, which is `init` before the key is there. A new key comes last. -/
def upsert (init : β) (k : κ) (update : β → β) : List (κ × β) → List (κ × β)
  | [] => [(k, update init)]
  | (j, b) :: m => if j == k then (j, update b) :: m else (j, b) :: upsert init k update m

theorem upsert_of_not_mem (init : β) {k : κ} (update : β → β) {m : List (κ × β)}
    (absent : k ∉ m.map Prod.fst) : upsert init k update m = m ++ [(k, update init)] := by
  induction m with
  | nil => rfl
  | cons p m ih =>
      obtain ⟨other, later⟩ := not_or.mp (fun h => absent (List.mem_cons.mpr h))
      have differs : (p.1 == k) = false := beq_false_of_ne (Ne.symm other)
      simp only [upsert, differs, Bool.false_eq_true, if_false, ih later, List.cons_append]

theorem upsert_of_mem (init : β) {k : κ} (update : β → β) {ks : List κ} (value : κ → β)
    (once : ks.Nodup) (there : k ∈ ks) :
    upsert init k update (ks.map fun j => (j, value j)) =
      ks.map fun j => (j, if j == k then update (value j) else value j) := by
  induction ks with
  | nil => cases there
  | cons j ks ih =>
      obtain ⟨apart, once⟩ := List.nodup_cons.mp once
      simp only [List.map_cons, upsert]
      rcases List.mem_cons.mp there with rfl | later
      · have others : ks.map (fun j => (j, value j)) =
            ks.map fun j => (j, if j == k then update (value j) else value j) := by
          apply List.map_congr_left
          intro j member
          have differs : (j == k) = false :=
            beq_false_of_ne fun same => apart (same ▸ member)
          simp only [differs, Bool.false_eq_true, if_false]
        simp only [beq_self_eq_true, if_true, others]
      · have differs : (j == k) = false := beq_false_of_ne fun same => apart (same ▸ later)
        simp only [differs, Bool.false_eq_true, if_false, ih once later]

/-- The table of items: each key once, in order of first appearance, with the value that its items
build up. -/
def tabulate (key : α → κ) (init : β) (build : β → α → β) (xs : List α) : List (κ × β) :=
  (xs.map key).eraseDups.map fun k => (k, (xs.filter (key · == k)).foldl build init)

omit [LawfulBEq κ] in
@[simp] theorem tabulate_map_fst (key : α → κ) (init : β) (build : β → α → β) (xs : List α) :
    (tabulate key init build xs).map Prod.fst = (xs.map key).eraseDups := by
  simp only [tabulate, List.map_map]
  exact List.map_id _

theorem tabulate_concat (key : α → κ) (init : β) (build : β → α → β) (xs : List α) (x : α) :
    tabulate key init build (xs ++ [x]) =
      upsert init (key x) (build · x) (tabulate key init build xs) := by
  have items (k : κ) : ((xs ++ [x]).filter (key · == k)).foldl build init =
      if k == key x then build ((xs.filter (key · == k)).foldl build init) x
      else (xs.filter (key · == k)).foldl build init := by
    rw [List.filter_append, List.foldl_append]
    by_cases same : k = key x
    · subst same
      simp only [beq_self_eq_true, List.filter_cons, if_true, List.filter_nil, List.foldl_cons,
        List.foldl_nil]
    · have differs : (k == key x) = false := beq_false_of_ne same
      have differs' : (key x == k) = false := beq_false_of_ne (Ne.symm same)
      simp only [differs, differs', List.filter_cons, Bool.false_eq_true, if_false,
        List.filter_nil, List.foldl_nil]
  have values : tabulate key init build (xs ++ [x]) = (xs.map key ++ [key x]).eraseDups.map
      fun k => (k, if k == key x then build ((xs.filter (key · == k)).foldl build init) x
        else (xs.filter (key · == k)).foldl build init) := by
    simp only [tabulate, List.map_append, List.map_cons, List.map_nil, items]
  rw [values, eraseDups_concat]
  cases there : (xs.map key).contains (key x) with
  | true =>
      rw [if_pos rfl]
      exact (upsert_of_mem init (build · x) _ (nodup_eraseDups _)
        (List.mem_eraseDups.mpr (List.contains_iff_mem.mp there))).symm
  | false =>
      have absent : key x ∉ (xs.map key).eraseDups := by
        rw [List.mem_eraseDups, ← List.contains_iff_mem, there]
        exact Bool.false_ne_true
      rw [if_neg Bool.false_ne_true,
        upsert_of_not_mem init (build · x) (by rw [tabulate_map_fst]; exact absent),
        List.map_append, tabulate]
      congr 1
      · apply List.map_congr_left
        intro k member
        have differs : (k == key x) = false := beq_false_of_ne fun same => absent (same ▸ member)
        simp only [differs, Bool.false_eq_true, if_false]
      · have first : xs.filter (key · == key x) = [] := by
          apply List.filter_eq_nil_iff.mpr
          intro y member same
          exact absent (List.mem_eraseDups.mpr
            (List.mem_map.mpr ⟨y, member, eq_of_beq same⟩))
        simp only [List.map_cons, List.map_nil, beq_self_eq_true, if_true, first, List.foldl_nil]

theorem foldl_upsert (key : α → κ) (init : β) (build : β → α → β) (xs : List α) :
    xs.foldl (fun m x => upsert init (key x) (build · x) m) [] = tabulate key init build xs := by
  -- Generalised over the items that are in the table already.
  suffices all : ∀ done : List α,
      xs.foldl (fun m x => upsert init (key x) (build · x) m) (tabulate key init build done) =
        tabulate key init build (done ++ xs) from all []
  induction xs with
  | nil =>
      intro done
      rw [List.foldl_nil, List.append_nil]
  | cons x xs ih =>
      intro done
      rw [List.foldl_cons, ← tabulate_concat, ih (done ++ [x]), List.append_assoc]
      rfl

end Restyle.OrderedTable
