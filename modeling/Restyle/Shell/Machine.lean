import Restyle.Program
import Restyle.Shell.Match
import Restyle.Shell.Reader
/-!
The state of a running shell script, and the values of its words.
-/

namespace Restyle.Shell

/-- Where a stream is written. -/
inductive Sink where
  | output | errors | nowhere
  | file (place : Location)
deriving DecidableEq, Repr, Inhabited

/-- A running script. Its streams hold what was written last in front. -/
structure Machine where
  tree : FileTree
  here : Location
  searchPath : List Path
  script : String
  arguments : List String
  bindings : List (String × String) := []
  functions : List (String × Command) := []
  status : Nat := 0
  input : List UInt8 := []
  output : List (List UInt8) := []
  errors : List (List UInt8) := []
  standard : Sink := .output
  diagnostic : Sink := .errors
deriving Inhabited

/-- How a script goes on behind a command. -/
inductive Flow where
  | onward | exits | killed | returns
  | leaves (loops : Nat)
  | again (loops : Nat)
deriving DecidableEq, Repr, Inhabited

def processNumber : String := "4242"

def bytesOf (s : String) : List UInt8 := Text.Utf8.encode s.toList

def textOf (bytes : List UInt8) : String := String.ofList (Text.Utf8.decodeLossy bytes)

namespace Machine

def append (t : FileTree) (place : Location) (bytes : List UInt8) : FileTree :=
  match t.find? place with
  | some (.file content executable) =>
    t.set place (.file (Content.ofBytes (content.bytes ++ bytes)) executable)
  | _ => t

def send (m : Machine) (s : Sink) (bytes : List UInt8) : Machine :=
  match s with
  | .output => { m with output := bytes :: m.output }
  | .errors => { m with errors := bytes :: m.errors }
  | .nowhere => m
  | .file place => { m with tree := append m.tree place bytes }

def put (m : Machine) (bytes : List UInt8) : Machine := m.send m.standard bytes

def complain (m : Machine) (s : String) : Machine := m.send m.diagnostic (bytesOf (s ++ "\n"))

def withStatus (m : Machine) (n : Nat) : Machine := { m with status := n }

/-- The value of a parameter, where it is set. -/
def value? (m : Machine) (name : String) : Option String :=
  match name with
  | "#" => some (toString m.arguments.length)
  | "*" | "@" => some (" ".intercalate m.arguments)
  | "?" => some (toString m.status)
  | "$" => some processNumber
  | "0" => some m.script
  | _ =>
    if name.toList.all Char.isDigit then
      let n := name.toList.foldl (fun n c => 10 * n + Text.hexValue c) 0
      m.arguments[n - 1]?
    else (m.bindings.find? (·.1 == name)).map (·.2)

def assign (m : Machine) (name value : String) : Machine :=
  { m with bindings := (name, value) :: m.bindings.filter (·.1 != name) }

/-- The file that a redirection writes to, emptied first unless it is written at its end. -/
def openSink (m : Machine) (target : String) (atEnd : Bool) : Except FileError (Machine × Sink) :=
  if target == "/dev/null" then .ok (m, .nowhere)
  else
    match m.tree.locate m.here ⟨target⟩ with
    | .error e => .error e
    | .ok place =>
      match m.tree.find? place, atEnd with
      | some .directory, _ => .error .isDirectory
      | some (.file ..), true => .ok (m, .file place)
      | some (.file _ x), false =>
        .ok ({ m with tree := m.tree.set place (.file (.text "") x) }, .file place)
      | none, _ =>
        .ok ({ m with tree := m.tree.set place (.file (.text "") false) }, .file place)

def openSource (m : Machine) (target : String) : Except FileError (List UInt8) :=
  if target == "/dev/null" then .ok []
  else (m.tree.read m.here ⟨target⟩).map Content.bytes

def names (m : Machine) : List String :=
  (m.tree.entries.filterMap fun e =>
    if e.1.dropLast == m.here then e.1.getLast? else none).mergeSort (· ≤ ·)

end Machine

/-- The value of a piece of a word. -/
inductive Value where
  | text (s : List Char) (inQuotes splits : Bool)
  /-- The arguments of the script, each by itself. -/
  | arguments (as : List String)
deriving Inhabited

/-- A field: characters, each of which may be quoted. -/
abbrev Field := List (Char × Bool)

def Field.text (f : Field) : String := String.ofList (f.map (·.1))

/-- Fields so far, last one first, and the one that is not finished. -/
structure Splitting where
  finished : List Field := []
  current : Option Field := none

namespace Splitting

def add (s : Splitting) (inQuotes : Bool) (cs : List Char) : Splitting :=
  { s with current := some (s.current.getD [] ++ cs.map fun c => (c, inQuotes)) }

def cut (s : Splitting) : Splitting :=
  match s.current with
  | some f => ⟨f :: s.finished, none⟩
  | none => s

def addSplit (s : Splitting) : List Char → Splitting
  | [] => s
  | c :: cs => addSplit (if c == ' ' || c == '\t' || c == '\n' then s.cut else s.add false [c]) cs

/-- Adds the arguments of a script, each as a field of its own. -/
def addAll (s : Splitting) : List String → Splitting
  | [] => s
  | [a] => s.add true a.toList
  | a :: as => addAll (s.add true a.toList).cut as

def addValue (s : Splitting) : Value → Splitting
  | .text cs inQuotes splits =>
    if splits then s.addSplit cs
    else if cs.isEmpty && !inQuotes then s
    else s.add inQuotes cs
  | .arguments as => s.addAll as

end Splitting

def fieldsOf (vs : List Value) : List Field :=
  (vs.foldl Splitting.addValue {}).cut.finished.reverse

/-- The characters of the values of a word that is not split. -/
def fieldOf (vs : List Value) : Field :=
  vs.flatMap fun
    | .text cs inQuotes _ => cs.map fun c => (c, inQuotes)
    | .arguments as => (" ".intercalate as).toList.map fun c => (c, true)

/-- The names in the working directory that a field with pattern characters fits, or the field
itself. -/
def expandNames (m : Machine) (f : Field) : List String :=
  if f.any (fun (c, inQuotes) => !inQuotes && "*?[".toList.contains c)
      && !f.any (fun (c, _) => c == '/') then
    match m.names.filter fun n => n.toList.head? != some '.' && fits f n.toList with
    | [] => [f.text]
    | found => found
  else [f.text]

def Modifier.apply (v : Option String) : Modifier → List Char
  | .asIs => (v.getD "").toList
  | .orElse evenIfEmpty text =>
    match v with
    | some s => if s.isEmpty && evenIfEmpty then text else s.toList
    | none => text
  | .count => (toString (v.getD "").length).toList
  | .withoutFront longest p =>
    let cs := (v.getD "").toList
    let cuts := (List.range (cs.length + 1)).filter fun n =>
      fits (p.map fun c => (c, false)) (cs.take n)
    cs.drop ((if longest then cuts.getLast? else cuts.head?).getD 0)
  | .withoutEnd longest p =>
    let cs := (v.getD "").toList
    let cuts := (List.range (cs.length + 1)).filter fun n =>
      fits (p.map fun c => (c, false)) (cs.drop n)
    cs.take ((if longest then cuts.head? else cuts.getLast?).getD cs.length)

/-- The value of a piece that needs no command to be run. -/
def Piece.value (m : Machine) : Piece → Value
  | .plain cs => .text cs false false
  | .quoted cs => .text cs true false
  | .parameter name modifier inQuotes =>
    if name == "@" && inQuotes then .arguments m.arguments
    else .text (modifier.apply (m.value? name)) inQuotes (!inQuotes)
  | .output _ inQuotes => .text [] inQuotes (!inQuotes)

end Restyle.Shell
