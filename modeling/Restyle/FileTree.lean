import Restyle.Path
import Restyle.Text.Utf8
/-!
Trees of files and directories as values. A place in a tree is named by the names on the way to it
from the root; a path is followed from a working directory, each step through a directory that is
there.
-/

namespace Restyle

/-- A place in a tree: the names on the way from the root. -/
abbrev Location := List String

/-- What a file holds: a text, or bytes that are none. -/
inductive Content where
  | text (s : String)
  | binary (bytes : List UInt8)
deriving DecidableEq, Repr, Inhabited

namespace Content

def ofBytes (bytes : List UInt8) : Content :=
  match Text.Utf8.decode? bytes with
  | some cs => text (String.ofList cs)
  | none => binary bytes

def bytes : Content → List UInt8
  | text s => Text.Utf8.encode s.toList
  | binary bs => bs

end Content

/-- A directory, or a file that may be one that can be run. -/
inductive FileNode where
  | directory
  | file (content : Content) (executable : Bool)
deriving DecidableEq, Repr, Inhabited

/-- Why an operation on files fails. -/
inductive FileError where
  | notFound | permissionDenied | alreadyExists | notDirectory | isDirectory
  | notProgram | notText | nulInName
deriving DecidableEq, Repr

namespace FileError

/-- What is said of a failed operation, without the number of the failure. -/
def description : FileError → String
  | notFound => "No such file or directory"
  | permissionDenied => "Permission denied"
  | alreadyExists => "File exists"
  | notDirectory => "Not a directory"
  | isDirectory => "Is a directory"
  | notProgram => "Exec format error"
  | notText => "stream did not contain valid UTF-8"
  | nulInName => "file name contained an unexpected NUL byte"

/-- The number under which the operating system knows a failure, where it comes from there. -/
def number? : FileError → Option Nat
  | notFound => some 2
  | notProgram => some 8
  | permissionDenied => some 13
  | alreadyExists => some 17
  | notDirectory => some 20
  | isDirectory => some 21
  | notText | nulInName => none

def message (e : FileError) : String :=
  match e.number? with
  | some n => s!"{e.description} (os error {n})"
  | none => e.description

end FileError

/-- The files and directories below a root, each place once. The root itself is a directory. -/
structure FileTree where
  entries : List (Location × FileNode)
  nodup : (entries.map (·.1)).Nodup

namespace FileTree

/-- A tree that has only its root. -/
def empty : FileTree := ⟨[], List.nodup_nil⟩

instance : Inhabited FileTree := ⟨empty⟩

def find? (t : FileTree) (l : Location) : Option FileNode :=
  if l.isEmpty then some .directory else (t.entries.find? fun e => e.1 == l).map (·.2)

def replaceAt (l : Location) (n : FileNode) (e : Location × FileNode) : Location × FileNode :=
  if e.1 == l then (l, n) else e

theorem replaceAt_fst (l : Location) (n : FileNode) (e : Location × FileNode) :
    (replaceAt l n e).1 = e.1 := by
  unfold replaceAt
  split
  · next h => exact (eq_of_beq h).symm
  · rfl

def set (t : FileTree) (l : Location) (n : FileNode) : FileTree :=
  if h : l ∈ t.entries.map (·.1) then
    ⟨t.entries.map (replaceAt l n), by
      have : (t.entries.map (replaceAt l n)).map (·.1) = t.entries.map (·.1) := by
        simp [List.map_map, Function.comp_def, replaceAt_fst]
      rw [this]
      exact t.nodup⟩
  else
    ⟨t.entries ++ [(l, n)], by
      rw [List.map_append, List.nodup_append]
      refine ⟨t.nodup, by simp, ?_⟩
      intro a ha b hb hab
      simp only [List.map_cons, List.map_nil, List.mem_singleton] at hb
      exact h (hb ▸ hab ▸ ha)⟩

/-- The tree without a place and all below it. -/
def remove (t : FileTree) (l : Location) : FileTree :=
  ⟨t.entries.filter fun e => !l.isPrefixOf e.1,
    t.nodup.sublist (List.Sublist.map _ List.filter_sublist)⟩

def isDirectoryAt (t : FileTree) (l : Location) : Bool := t.find? l == some .directory

/-- The files below a place with their ways from there, in no order that matters. -/
def filesBelow (t : FileTree) (l : Location) : List (Location × Content) :=
  t.entries.filterMap fun e =>
    match e.2 with
    | .file content _ =>
      if l.isPrefixOf e.1 && l != e.1 then some (e.1.drop l.length, content) else none
    | .directory => none

/-- What a node is called in a place, where it stands right in it, and the node. -/
def childOf (l : Location) (e : Location × FileNode) : Option (String × FileNode) :=
  if e.1.dropLast == l then e.1.getLast?.map (·, e.2) else none

/-- What stands right in a place, in no order that matters. -/
def childrenOf (t : FileTree) (l : Location) : List (String × FileNode) :=
  t.entries.filterMap (childOf l)

theorem childOf_eq_some_iff {l : Location} {e : Location × FileNode} {x : String × FileNode} :
    childOf l e = some x ↔ e = (l ++ [x.1], x.2) := by
  constructor
  · intro found
    obtain ⟨parent, named⟩ := Option.ite_none_right_eq_some.mp found
    obtain ⟨last, at_end, rfl⟩ := Option.map_eq_some_iff.mp named
    obtain ⟨front, split⟩ := List.getLast?_eq_some_iff.mp at_end
    rw [split, List.dropLast_concat, beq_iff_eq] at parent
    exact Prod.ext (parent ▸ split) rfl
  · rintro rfl
    simp [childOf]

theorem mem_childrenOf_iff {t : FileTree} {l : Location} {x : String × FileNode} :
    x ∈ t.childrenOf l ↔ (l ++ [x.1], x.2) ∈ t.entries := by
  simp [childrenOf, childOf_eq_some_iff]

/-- The length of the longest way in a tree. -/
def height (t : FileTree) : Nat := t.entries.foldr (fun e n => max e.1.length n) 0

theorem length_le_height {t : FileTree} {e : Location × FileNode} (h : e ∈ t.entries) :
    e.1.length ≤ t.height := by
  unfold height
  generalize t.entries = entries at h ⊢
  induction entries with
  | nil => cases h
  | cons e' es ih =>
      rcases List.mem_cons.mp h with rfl | later
      · exact Nat.le_max_left _ _
      · exact Nat.le_trans (ih later) (Nat.le_max_right _ _)

/-- Follows components from a place. All places on the way must be directories; the last one need
not exist. -/
def walk (t : FileTree) : Location → List Component → Except FileError Location
  | here, [] => .ok here
  | here, c :: cs =>
    match t.find? here, c with
    | some .directory, .root => walk t [] cs
    | some .directory, .current => walk t here cs
    | some .directory, .parent => walk t here.dropLast cs
    | some .directory, .name s => walk t (here ++ [s]) cs
    | some (.file ..), _ => .error .notDirectory
    | none, _ => .error .notFound

/-- The place that a path names, seen from a working directory. -/
def locate (t : FileTree) (here : Location) (p : Path) : Except FileError Location :=
  if p.text.isEmpty then .error .notFound
  else if p.text.toList.contains '\x00' then .error .nulInName
  else t.walk here p.components

/-- Whether a path is written as one of a directory, with a slash or a dot at its end. -/
def asksDirectory (p : Path) : Bool :=
  match p.segments.getLast? with
  | some s => Path.isIdle s
  | none => false

def lookup (t : FileTree) (here : Location) (p : Path) : Except FileError FileNode :=
  match t.locate here p with
  | .error e => .error e
  | .ok l =>
    match t.find? l with
    | none => .error .notFound
    | some .directory => .ok .directory
    | some (.file c x) => if asksDirectory p then .error .notDirectory else .ok (.file c x)

def isPresent (t : FileTree) (here : Location) (p : Path) : Bool :=
  (t.lookup here p).toOption.isSome

def isDirectory (t : FileTree) (here : Location) (p : Path) : Bool :=
  match t.lookup here p with
  | .ok .directory => true
  | _ => false

def isFile (t : FileTree) (here : Location) (p : Path) : Bool :=
  match t.lookup here p with
  | .ok (.file ..) => true
  | _ => false

def read (t : FileTree) (here : Location) (p : Path) : Except FileError Content :=
  match t.lookup here p with
  | .error e => .error e
  | .ok .directory => .error .isDirectory
  | .ok (.file content _) => .ok content

def readText (t : FileTree) (here : Location) (p : Path) : Except FileError String :=
  match t.read here p with
  | .ok (.text s) => .ok s
  | .ok (.binary _) => .error .notText
  | .error e => .error e

/-- Makes a directory and those on the way to it, where they are not there yet. -/
def makeDirectories (t : FileTree) : Location → List Component → Except FileError FileTree
  | _, [] => .ok t
  | here, c :: cs =>
    match c with
    | .root => makeDirectories t [] cs
    | .current => makeDirectories t here cs
    | .parent => makeDirectories t here.dropLast cs
    | .name s =>
      let next := here ++ [s]
      match t.find? next with
      | some .directory => makeDirectories t next cs
      | some (.file ..) => .error (if cs.isEmpty then .alreadyExists else .notDirectory)
      | none => makeDirectories (t.set next .directory) next cs

/-- Puts a text at a path in one step, in the place of any file there, and makes the directory that
holds it. -/
def write (t : FileTree) (here : Location) (p : Path) (s : String) :
    Except FileError FileTree := do
  let parent ← match p.parent? with
    | some parent => pure parent
    | none => throw .notFound
  let t ← if parent.text.isEmpty || t.isPresent here parent then pure t
    else t.makeDirectories here parent.components
  let place ← t.locate here p
  match t.find? place with
  | some .directory => throw .isDirectory
  | _ =>
    if t.isDirectoryAt place.dropLast then return t.set place (.file (.text s) false)
    else throw .notDirectory

end FileTree

end Restyle
