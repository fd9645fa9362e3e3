import Restyle.FileTree
import Restyle.Proofs.Path.Components
/-!
Trees under writes. A path names one place from a working directory, whatever the tree is; a write
below a directory that is there changes what stands at this place and nothing else.
-/

namespace Restyle

def Component.stepFrom (here : Location) : Component → Location
  | root => []
  | current => here
  | parent => here.dropLast
  | name s => here ++ [s]

/-- The place that a path names, seen from a working directory. -/
def Path.place (here : Location) (p : Path) : Location :=
  p.components.foldl Component.stepFrom here

theorem Component.foldl_stepFrom_names (here : Location) (names : List String) :
    (names.map Component.name).foldl stepFrom here = here ++ names := by
  induction names generalizing here with
  | nil => exact (List.append_nil here).symm
  | cons s names ih =>
      rw [List.map_cons, List.foldl_cons, stepFrom, ih, List.append_assoc]
      rfl

theorem Path.same_of_apart {here : Location} {p q : Path} (apart : p.place here ≠ q.place here) :
    p.same q = false := by
  rw [Bool.eq_false_iff]
  intro same
  apply apart
  rw [place, place, same_iff.mp same]

/-- What a tree holds at each place, under writes one after another. -/
def overlay {β : Type} (here : Location) (view : Location → Option β) (ws : List (Path × β)) :
    Location → Option β :=
  ws.foldl (fun view w l => if l = w.1.place here then some w.2 else view l) view

section overlay

variable {β γ : Type} {here l : Location} {view : Location → Option β} {ws : List (Path × β)}

theorem overlay_append (here : Location) (view : Location → Option β) (ws more : List (Path × β)) :
    overlay here view (ws ++ more) = overlay here (overlay here view ws) more :=
  List.foldl_append

theorem overlay_concat (here : Location) (view : Location → Option β) (ws : List (Path × β))
    (p : Path) (b : β) (l : Location) :
    overlay here view (ws ++ [(p, b)]) l
      = if l = p.place here then some b else overlay here view ws l := by
  rw [overlay_append]
  rfl

theorem overlay_of_ne (h : ∀ w ∈ ws, l ≠ w.1.place here) : overlay here view ws l = view l := by
  induction ws using List.reverseRecOn with
  | nil => rfl
  | append_singleton ws w ih =>
      have other := h w (List.mem_append_right _ List.mem_cons_self)
      rw [overlay_concat, if_neg other]
      exact ih fun w' member => h w' (List.mem_append_left _ member)

/-- A place that no later write is for holds what was written there last. -/
theorem overlay_of_last {before after : List (Path × β)} {p : Path} {b : β}
    (later : ∀ w ∈ after, p.place here ≠ w.1.place here) :
    overlay here view (before ++ (p, b) :: after) (p.place here) = some b := by
  have split : before ++ (p, b) :: after = (before ++ [(p, b)]) ++ after := by
    rw [List.append_assoc, List.singleton_append]
  rw [split, overlay_append, overlay_of_ne later, overlay_concat, if_pos rfl]

/-- Only the last of several writes for one path counts. -/
theorem overlay_same_path (p : Path) (bs : List β) (b : β) :
    overlay here view ((bs ++ [b]).map (p, ·)) = overlay here view [(p, b)] := by
  funext l
  rw [List.map_append, List.map_singleton, overlay_concat]
  by_cases at_ : l = p.place here
  · rw [if_pos at_, overlay, List.foldl_cons, List.foldl_nil, if_pos at_]
  · have other : ∀ w ∈ bs.map (p, ·), l ≠ w.1.place here := by
      intro w member
      obtain ⟨c, -, rfl⟩ := List.mem_map.mp member
      exact at_
    rw [if_neg at_, overlay_of_ne other, overlay, List.foldl_cons, List.foldl_nil, if_neg at_]

theorem overlay_map {α : Type} {f : Option β → Option γ} {g : α → β} {k : α → γ}
    (h : ∀ a, f (some (g a)) = some (k a)) (ws : List (Path × α)) (l : Location) :
    f (overlay here view (ws.map fun w => (w.1, g w.2)) l)
      = overlay here (fun l => f (view l)) (ws.map fun w => (w.1, k w.2)) l := by
  induction ws using List.reverseRecOn with
  | nil => rfl
  | append_singleton ws w ih =>
      rw [List.map_append, List.map_append, List.map_singleton, List.map_singleton, overlay_concat,
        overlay_concat]
      split
      · exact h w.2
      · exact ih

theorem overlay_of_there {p : Path} {b : β} (there : view (p.place here) = some b) :
    overlay here view [(p, b)] = view := by
  funext l
  change (if l = p.place here then some b else view l) = view l
  split
  · rename_i at_
    rw [at_, there]
  · rfl

theorem overlay_congr {view' : Location → Option β} (same : view l = view' l)
    (ws : List (Path × β)) : overlay here view ws l = overlay here view' ws l := by
  induction ws using List.reverseRecOn with
  | nil => exact same
  | append_singleton ws w ih =>
      rw [overlay_concat, overlay_concat, ih]

theorem overlay_comm {ws more : List (Path × β)}
    (apart : ∀ w ∈ ws, ∀ v ∈ more, w.1.place here ≠ v.1.place here) :
    overlay here view (ws ++ more) = overlay here view (more ++ ws) := by
  funext l
  rw [overlay_append, overlay_append]
  by_cases first : ∀ w ∈ ws, l ≠ w.1.place here
  · have kept : ∀ view : Location → Option β, overlay here view ws l = view l :=
      fun view => overlay_of_ne first
    rw [kept]
    exact overlay_congr (kept view) more
  · have later : ∀ v ∈ more, l ≠ v.1.place here := by
      intro v member at_
      apply first
      rintro w among rfl
      exact apart w among v member at_
    have kept : ∀ view : Location → Option β, overlay here view more l = view l :=
      fun view => overlay_of_ne later
    rw [kept]
    exact overlay_congr (kept view).symm ws

theorem overlay_flatMap_perm {α : Type} {f : α → List (Path × β)} {xs ys : List α}
    (perm : xs.Perm ys)
    (apart : xs.Pairwise fun x y => ∀ w ∈ f x, ∀ v ∈ f y, w.1.place here ≠ v.1.place here) :
    overlay here view (xs.flatMap f) = overlay here view (ys.flatMap f) := by
  induction perm generalizing view with
  | nil => rfl
  | cons x perm ih =>
      rw [List.flatMap_cons, List.flatMap_cons, overlay_append, overlay_append,
        ih (List.pairwise_cons.mp apart).2]
  | swap x y rest =>
      have others := (List.pairwise_cons.mp apart).1 x List.mem_cons_self
      rw [List.flatMap_cons, List.flatMap_cons, List.flatMap_cons, List.flatMap_cons,
        ← List.append_assoc, ← List.append_assoc, overlay_append here view (f y ++ f x),
        overlay_append here view (f x ++ f y), overlay_comm others]
  | trans perm perm' ih ih' =>
      rw [ih apart]
      refine ih' ((perm.pairwise_iff ?_).mp apart)
      intro x y other w mw v mv
      exact (other v mv w mw).symm

end overlay

namespace FileTree

variable {t t' : FileTree} {here l : Location} {p : Path}

theorem walk_cons_eq_ok_iff {c : Component} {cs : List Component} :
    t.walk here (c :: cs) = .ok l ↔
      t.find? here = some .directory ∧ t.walk (c.stepFrom here) cs = .ok l := by
  cases found : t.find? here with
  | none => simp [walk, found]
  | some n =>
      cases n with
      | directory => cases c <;> simp [walk, found, Component.stepFrom]
      | file content executable => simp [walk, found]

theorem eq_of_walk {cs : List Component} (h : t.walk here cs = .ok l) :
    l = cs.foldl Component.stepFrom here := by
  induction cs generalizing here with
  | nil => cases h; rfl
  | cons c cs ih => exact ih (walk_cons_eq_ok_iff.mp h).2

theorem walk_append_eq_ok_iff {cs ds : List Component} :
    t.walk here (cs ++ ds) = .ok l ↔ ∃ d, t.walk here cs = .ok d ∧ t.walk d ds = .ok l := by
  induction cs generalizing here with
  | nil =>
      constructor
      · intro h; exact ⟨here, rfl, h⟩
      · rintro ⟨d, h, h'⟩; cases h; exact h'
  | cons c cs ih =>
      rw [List.cons_append, walk_cons_eq_ok_iff, ih]
      constructor
      · rintro ⟨dir, d, h, h'⟩; exact ⟨d, walk_cons_eq_ok_iff.mpr ⟨dir, h⟩, h'⟩
      · rintro ⟨d, h, h'⟩
        obtain ⟨dir, h⟩ := walk_cons_eq_ok_iff.mp h
        exact ⟨dir, d, h, h'⟩

/-- Whether all directories of a tree are there in another, too. -/
def DirectoriesIn (t t' : FileTree) : Prop :=
  ∀ l, t.find? l = some .directory → t'.find? l = some .directory

theorem walk_mono (dirs : t.DirectoriesIn t') {cs : List Component} (h : t.walk here cs = .ok l) :
    t'.walk here cs = .ok l := by
  induction cs generalizing here with
  | nil => exact h
  | cons c cs ih =>
      obtain ⟨dir, h⟩ := walk_cons_eq_ok_iff.mp h
      exact walk_cons_eq_ok_iff.mpr ⟨dirs here dir, ih h⟩

theorem locate_eq_ok_iff :
    t.locate here p = .ok l ↔
      p.text.isEmpty = false ∧ p.text.toList.contains '\x00' = false ∧
        t.walk here p.components = .ok l := by
  unfold locate
  cases p.text.isEmpty with
  | true => simp
  | false => cases p.text.toList.contains '\x00' <;> simp

theorem eq_place_of_locate (h : t.locate here p = .ok l) : l = p.place here :=
  eq_of_walk (locate_eq_ok_iff.mp h).2.2

theorem locate_mono (dirs : t.DirectoriesIn t') (h : t.locate here p = .ok l) :
    t'.locate here p = .ok l := by
  rw [locate_eq_ok_iff] at h ⊢
  exact ⟨h.1, h.2.1, walk_mono dirs h.2.2⟩

/-- Whether the directory of a path is there. -/
def Holds (t : FileTree) (here : Location) (p : Path) : Prop :=
  ∃ d, t.walk here p.components.dropLast = .ok d ∧ t.find? d = some .directory

theorem Holds.mono (dirs : t.DirectoriesIn t') (h : t.Holds here p) : t'.Holds here p := by
  obtain ⟨d, walked, dir⟩ := h
  exact ⟨d, walk_mono dirs walked, dirs d dir⟩

theorem holds_of_walk {cs : List Component} {c : Component} (parts : p.components = cs ++ [c])
    (h : t.walk here p.components = .ok l) : t.Holds here p := by
  rw [parts, walk_append_eq_ok_iff] at h
  obtain ⟨d, walked, last⟩ := h
  refine ⟨d, ?_, (walk_cons_eq_ok_iff.mp last).1⟩
  rw [parts, List.dropLast_concat]
  exact walked

theorem readText_eq_ok_iff {s : String} :
    t.readText here p = .ok s ↔ ∃ l executable, t.locate here p = .ok l ∧
      t.find? l = some (.file (.text s) executable) ∧ asksDirectory p = false := by
  unfold readText read lookup
  constructor
  · intro h
    cases located : t.locate here p with
    | error e => simp [located] at h
    | ok l =>
        cases found : t.find? l with
        | none => simp [located, found] at h
        | some n =>
            cases n with
            | directory => simp [located, found] at h
            | file content executable =>
                cases asks : asksDirectory p with
                | true => simp [located, found, asks] at h
                | false =>
                    cases content with
                    | binary bytes => simp [located, found, asks] at h
                    | text s' =>
                        simp only [located, found, asks, Bool.false_eq_true, if_false,
                          Except.ok.injEq] at h
                        subst h
                        exact ⟨l, executable, rfl, found, rfl⟩
  · rintro ⟨l, executable, located, found, asks⟩
    simp only [located, found, asks, Bool.false_eq_true, if_false]

theorem holds_of_locate (h : t.locate here p = .ok l) : t.Holds here p := by
  obtain ⟨some_text, -, walked⟩ := locate_eq_ok_iff.mp h
  have some_component : p.components ≠ [] := by
    apply Path.components_ne_nil
    simpa using some_text
  obtain ⟨cs, c, parts⟩ := (List.eq_nil_or_concat p.components).resolve_left some_component
  rw [List.concat_eq_append] at parts
  exact holds_of_walk parts walked

theorem holds_of_readText {s : String} (h : t.readText here p = .ok s) : t.Holds here p := by
  obtain ⟨l, -, located, -⟩ := readText_eq_ok_iff.mp h
  exact holds_of_locate located

theorem find?_map_replaceAt {l k : Location} (n : FileNode) {es : List (Location × FileNode)}
    (member : l ∈ es.map (·.1)) :
    ((es.map (replaceAt l n)).find? fun e => e.1 == k).map (·.2)
      = if k = l then some n else (es.find? fun e => e.1 == k).map (·.2) := by
  have same_keys : ((fun e : Location × FileNode => e.1 == k) ∘ replaceAt l n)
      = fun e => e.1 == k := by
    funext e
    rw [Function.comp_apply, replaceAt_fst]
  rw [List.find?_map, same_keys]
  cases found : es.find? fun e => e.1 == k with
  | none =>
      have other : k ≠ l := by
        rintro rfl
        obtain ⟨e, he, here⟩ := List.mem_map.mp member
        exact List.find?_eq_none.mp found e he (by rw [here]; exact beq_self_eq_true k)
      rw [if_neg other]
      rfl
  | some e =>
      have here : e.1 = k := by simpa using List.find?_some found
      rw [Option.map_some, Option.map_some, Option.map_some, replaceAt, here]
      by_cases same : k = l
      · rw [if_pos same, if_pos (by rw [same]; exact beq_self_eq_true l)]
      · rw [if_neg same, if_neg (by simpa using same)]

theorem find?_set {k : Location} (below : l ≠ []) (n : FileNode) :
    (t.set l n).find? k = if k = l then some n else t.find? k := by
  by_cases top : k = []
  · subst top
    rw [if_neg (Ne.symm below)]
    rfl
  have entries : ∀ t : FileTree, t.find? k = (t.entries.find? fun e => e.1 == k).map (·.2) := by
    intro t
    rw [find?, if_neg (by simpa using top)]
  rw [entries, entries]
  unfold set
  split
  · rename_i member
    exact find?_map_replaceAt n member
  · rename_i absent
    rw [List.find?_append]
    by_cases same : k = l
    · have none_before : t.entries.find? (fun e => e.1 == k) = none := by
        rw [List.find?_eq_none]
        intro e he found
        exact absent (List.mem_map.mpr ⟨e, he, (eq_of_beq found).trans same⟩)
      rw [if_pos same, none_before, same]
      simp
    · have none_added : [(l, n)].find? (fun e => e.1 == k) = none := by
        rw [List.find?_eq_none]
        intro e he found
        rw [List.mem_singleton.mp he] at found
        exact same (eq_of_beq found).symm
      rw [if_neg same, none_added, Option.or_none]

theorem makeDirectories_of_walk {d : Location} {cs : List Component}
    (walked : t.walk here cs = .ok d) (dir : t.find? d = some .directory) :
    t.makeDirectories here cs = .ok t := by
  induction cs generalizing here with
  | nil => rfl
  | cons c cs ih =>
      obtain ⟨-, walked⟩ := walk_cons_eq_ok_iff.mp walked
      have next : t.find? (c.stepFrom here) = some .directory := by
        cases cs with
        | nil => cases walked; exact dir
        | cons c' cs' => exact (walk_cons_eq_ok_iff.mp walked).1
      have later := ih walked
      cases c with
      | root | current | parent => exact later
      | name s =>
          have there : t.find? (here ++ [s]) = some .directory := next
          rw [makeDirectories]
          simp only [there]
          exact later

def put (t : FileTree) (here : Location) (p : Path) (s : String) : Except FileError FileTree :=
  match t.locate here p with
  | .error e => .error e
  | .ok l =>
    match t.find? l with
    | some .directory => .error .isDirectory
    | _ =>
      if t.isDirectoryAt l.dropLast then .ok (t.set l (.file (.text s) false))
      else .error .notDirectory

theorem write_eq_put {q : Path} (parent : p.parent? = some q) (s : String) :
    t.write here p s = (if q.text.isEmpty || t.isPresent here q then .ok t
      else t.makeDirectories here q.components) >>= fun made => made.put here p s := by
  unfold write put
  simp only [parent, bind, Except.bind, pure, Except.pure]
  by_cases there : (q.text.isEmpty || t.isPresent here q) = true
  · rw [if_pos there, if_pos there]
    dsimp only
    cases t.locate here p with
    | error e => rfl
    | ok l => cases t.find? l with
      | none => rfl
      | some n => cases n <;> rfl
  · rw [if_neg there, if_neg there]
    cases t.makeDirectories here q.components with
    | error e => rfl
    | ok made =>
        dsimp only
        cases made.locate here p with
        | error e => rfl
        | ok l => cases made.find? l with
          | none => rfl
          | some n => cases n <;> rfl

theorem write_of_parent {q : Path} (parent : p.parent? = some q)
    (made : t.makeDirectories here q.components = .ok t) (s : String) :
    t.write here p s = t.put here p s := by
  rw [write_eq_put parent, made, ite_self]
  rfl

theorem put_eq_ok {s : String} (h : t.put here p s = .ok t') :
    t.locate here p = .ok (p.place here) ∧ t.find? (p.place here) ≠ some .directory ∧
      t' = t.set (p.place here) (.file (.text s) false) := by
  unfold put at h
  cases located : t.locate here p with
  | error e =>
      rw [located] at h
      cases h
  | ok l =>
      obtain rfl := eq_place_of_locate located
      rw [located] at h
      dsimp only at h
      split at h
      · cases h
      · rename_i no_directory
        split at h
        · cases h
          exact ⟨rfl, no_directory, rfl⟩
        · cases h

/-- Below a directory that is there, a write that succeeds puts the text at the place of the path
and leaves all else as it is. -/
theorem write_eq_ok {s : String} (holds : t.Holds here p) (h : t.write here p s = .ok t') :
    t.locate here p = .ok (p.place here) ∧ t.DirectoriesIn t' ∧
      ∀ l, t'.find? l = if l = p.place here then some (.file (.text s) false) else t.find? l := by
  obtain ⟨d, walked, dir⟩ := holds
  cases parent : p.parent? with
  | none =>
      unfold write at h
      rw [parent] at h
      cases h
  | some q =>
      have made : t.makeDirectories here q.components = .ok t := by
        rw [Path.components_of_parent? parent]
        exact makeDirectories_of_walk walked dir
      rw [write_of_parent parent made] at h
      obtain ⟨located, no_directory, rfl⟩ := put_eq_ok h
      have below : p.place here ≠ [] := by
        intro top
        rw [top] at no_directory
        exact no_directory rfl
      have found : ∀ l, (t.set (p.place here) (.file (.text s) false)).find? l
          = if l = p.place here then some (.file (.text s) false) else t.find? l :=
        fun l => find?_set below _
      refine ⟨located, ?_, found⟩
      intro l directory
      rw [found, if_neg]
      · exact directory
      · rintro rfl
        exact no_directory directory

end FileTree

end Restyle
