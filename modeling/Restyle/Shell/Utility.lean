import Restyle.Shell.Machine
/-!
The utilities that scripts use: writing texts, tests, and the few programs for files.
-/

namespace Restyle.Shell

/-! ### Texts -/

/-- The value of octal digits, of which at most `n` are taken, and the text behind them. -/
def octal (n : Nat) (cs : List Char) : UInt8 × List Char :=
  let digits := (cs.take n).takeWhile fun c => '0' ≤ c && c ≤ '7'
  (UInt8.ofNat (digits.foldl (fun v c => 8 * v + Text.hexValue c) 0), cs.drop digits.length)

/-- The character that a letter stands for behind a backslash. -/
def escapedChar? : Char → Option Char
  | 'a' => some '\x07'
  | 'b' => some '\x08'
  | 'f' => some '\x0c'
  | 'n' => some '\n'
  | 'r' => some '\r'
  | 't' => some '\t'
  | 'v' => some '\x0b'
  | '\\' => some '\\'
  | _ => none

/-- The bytes of a text with its escapes replaced, and whether it asks for nothing more to be
written. `zeroLed` tells whether octal digits stand behind a zero of their own. -/
def unescape (zeroLed : Bool) : Nat → List Char → List UInt8 × Bool
  | 0, _ => ([], false)
  | _ + 1, [] => ([], false)
  | fuel + 1, '\\' :: c :: cs =>
    if c == 'c' then ([], true)
    else if '0' ≤ c && c ≤ '7' && (!zeroLed || c == '0') then
      let (b, rest) := if zeroLed then octal 3 cs else octal 3 (c :: cs)
      let (bytes, stop) := unescape zeroLed fuel rest
      (b :: bytes, stop)
    else
      let here := match escapedChar? c with
        | some e => [e]
        | none => ['\\', c]
      let (bytes, stop) := unescape zeroLed fuel cs
      (Text.Utf8.encode here ++ bytes, stop)
  | fuel + 1, c :: cs =>
    let (bytes, stop) := unescape zeroLed fuel cs
    (String.utf8EncodeChar c ++ bytes, stop)

/-- Writes arguments with spaces between them. -/
def echo (m : Machine) (args : List String) : Machine :=
  let (bare, args) := if args.head? == some "-n" then (true, args.drop 1) else (false, args)
  let text := (" ".intercalate args).toList
  let (bytes, stop) := unescape true (text.length + 1) text
  (m.put (bytes ++ if bare || stop then [] else [10])).withStatus 0

/-- The bytes that a format gives for arguments, with the arguments left. -/
def format : Nat → List Char → List String → List UInt8 × List String
  | 0, _, args => ([], args)
  | _ + 1, [], args => ([], args)
  | fuel + 1, '%' :: c :: cs, args =>
    if c == '%' then
      let (bytes, left) := format fuel cs args
      (37 :: bytes, left)
    else
      let arg := args.headD ""
      let here : List UInt8 :=
        if c == 'b' then (unescape true (arg.length + 1) arg.toList).1
        else if c == 'c' then Text.Utf8.encode (arg.toList.take 1)
        else if c == 'd' || c == 'i' || c == 'u' then bytesOf (toString (arg.toInt?.getD 0))
        else bytesOf arg
      let (bytes, left) := format fuel cs args.tail
      (here ++ bytes, left)
  | fuel + 1, '\\' :: c :: cs, args =>
    let taken := if '0' ≤ c && c ≤ '7' then '\\' :: (c :: cs).take 3 else ['\\', c]
    let digits := ((c :: cs).take 3).takeWhile fun d => '0' ≤ d && d ≤ '7'
    let used := if digits.isEmpty then 1 else digits.length
    let (bytes, left) := format fuel ((c :: cs).drop used) args
    ((unescape false 2 (taken.take (used + 1))).1 ++ bytes, left)
  | fuel + 1, c :: cs, args =>
    let (bytes, left) := format fuel cs args
    (String.utf8EncodeChar c ++ bytes, left)

/-- The bytes of a format used again until no arguments are left. -/
def formatAll : Nat → List Char → List String → List UInt8
  | 0, _, _ => []
  | fuel + 1, f, args =>
    let (bytes, left) := format (f.length + 1) f args
    if left.isEmpty || left.length == args.length then bytes else bytes ++ formatAll fuel f left

def printf (m : Machine) (args : List String) : Machine :=
  match args with
  | [] => m.withStatus 2
  | f :: args => (m.put (formatAll (args.length + 1) f.toList args)).withStatus 0

/-- Whether a byte is a blank between fields. -/
def isFieldBlank (b : UInt8) : Bool := b == 32 || b == 9 || b == 10

/-- Gives variables the fields of a line; the last one takes all that is left. -/
def assignFields (m : Machine) : List String → List UInt8 → Machine
  | [], _ => m
  | [name], line =>
    let text := line.dropWhile isFieldBlank
    m.assign name (textOf (text.reverse.dropWhile isFieldBlank).reverse)
  | name :: names, line =>
    let text := line.dropWhile isFieldBlank
    let field := text.takeWhile fun b => !isFieldBlank b
    assignFields (m.assign name (textOf field)) names (text.drop field.length)

/-- Reads a line of the input into bindings. At the end of the input it fails. -/
def readLine (m : Machine) (args : List String) : Machine :=
  let names := args.filter fun a => a.toList.head? != some '-'
  let line := m.input.takeWhile (· != 10)
  let rest := m.input.drop line.length
  (assignFields { m with input := rest.drop 1 } names line).withStatus
    (if rest.isEmpty then 1 else 0)

/-! ### Tests -/

/-- A test of one argument. -/
def unaryTest (m : Machine) (op arg : String) : Option Bool :=
  let node := m.tree.lookup m.here ⟨arg⟩
  match op with
  | "-n" => some (!arg.isEmpty)
  | "-z" => some arg.isEmpty
  | "-e" | "-r" | "-w" => some node.toOption.isSome
  | "-f" => some (m.tree.isFile m.here ⟨arg⟩)
  | "-d" => some (m.tree.isDirectory m.here ⟨arg⟩)
  | "-s" => some (match node with
    | .ok (.file c _) => !c.bytes.isEmpty
    | .ok .directory => true
    | .error _ => false)
  | "-x" => some (match node with
    | .ok (.file _ x) => x
    | .ok .directory => true
    | .error _ => false)
  | _ => none

def binaryTest (a op b : String) : Option Bool :=
  match op with
  | "=" | "==" => some (a == b)
  | "!=" => some (a != b)
  | _ => do
    let x ← a.toInt?
    let y ← b.toInt?
    match op with
    | "-eq" => some (x == y)
    | "-ne" => some (x != y)
    | "-lt" => some (x < y)
    | "-le" => some (x ≤ y)
    | "-gt" => some (y < x)
    | "-ge" => some (y ≤ x)
    | _ => none

/-- The value of a test, where it is well formed. -/
def testValue (m : Machine) : Nat → List String → Option Bool
  | 0, _ => none
  | fuel + 1, args =>
    match args with
    | [] => some false
    | [a] => some (!a.isEmpty)
    | ["!", a] => some a.isEmpty
    | [op, a] => unaryTest m op a
    | [a, op, b] =>
      match binaryTest a op b with
      | some v => some v
      | none =>
        if a == "!" then (testValue m fuel [op, b]).map (!·)
        else if op == "-a" then some (!a.isEmpty && !b.isEmpty)
        else if op == "-o" then some (!a.isEmpty || !b.isEmpty)
        else none
    | _ =>
      let before := args.takeWhile (· != "-o")
      if before.length < args.length then do
        let x ← testValue m fuel before
        let y ← testValue m fuel (args.drop (before.length + 1))
        return x || y
      else
        let before := args.takeWhile (· != "-a")
        if before.length < args.length then do
          let x ← testValue m fuel before
          let y ← testValue m fuel (args.drop (before.length + 1))
          return x && y
        else if args.head? == some "!" then (testValue m fuel args.tail).map (!·)
        else none

def test (m : Machine) (args : List String) : Machine :=
  match testValue m (args.length + 1) args with
  | some true => m.withStatus 0
  | some false => m.withStatus 1
  | none => (m.complain s!"{m.script}: test: unexpected operator").withStatus 2

/-! ### Programs for files -/

def splitOptions (args : List String) : List Char × List String :=
  let options := args.takeWhile fun a => a != "-" && a != "--" && a.toList.head? == some '-'
  let rest := args.drop options.length
  (options.flatMap fun o => o.toList.drop 1, if rest.head? == some "--" then rest.drop 1 else rest)

/-- Writes files one after the other; a dash stands for the input. -/
def catFiles (m : Machine) : List String → Machine
  | [] => m
  | a :: as =>
    if a == "-" then catFiles { m.put m.input with input := [] } as
    else
      match m.tree.read m.here ⟨a⟩ with
      | .ok content => catFiles (m.put content.bytes) as
      | .error e => catFiles ((m.complain s!"/bin/cat: {a}: {e.description}").withStatus 1) as

/-- Writes files, or the input where none is given. -/
def cat (m : Machine) (args : List String) : Machine :=
  let (_, files) := splitOptions args
  catFiles (m.withStatus 0) (if files.isEmpty then ["-"] else files)

def linesOf (bytes : List UInt8) : List (List Char) :=
  let parts := Text.splitOnChar '\n' (Text.Utf8.decodeLossy bytes)
  if parts.getLast? == some [] then parts.dropLast else parts

/-- The lines in which a pattern is found, numbered from one. -/
def grepLines (options : List Char) (pattern : List Char) (bytes : List UInt8) :
    List (Nat × List Char) :=
  let fold (cs : List Char) := if options.contains 'i' then cs.map Char.toLower else cs
  let found (line : List Char) : Bool :=
    if options.contains 'x' then line == pattern
    else if options.contains 'F' then (List.range (line.length + 1)).any fun n =>
        pattern.isPrefixOf (line.drop n)
    else isFound (options.contains 'E') (fold pattern) (fold line)
  ((linesOf bytes).mapIdx fun i line => (i + 1, line)).filter fun (_, line) =>
    found line != options.contains 'v'

/-- Searches files, or the input, for lines in which a pattern is found. -/
def grep (m : Machine) (args : List String) : Machine :=
  match splitOptions args with
  | (_, []) => m.withStatus 2
  | (options, pattern :: files) =>
    let sources : List (String × Except FileError (List UInt8)) :=
      if files.isEmpty then [("(standard input)", .ok m.input)]
      else files.map fun f => (f, (m.tree.read m.here ⟨f⟩).map Content.bytes)
    let m := if files.isEmpty then { m with input := [] } else m
    let (m, any, failed) := sources.foldl (fun (m, any, failed) (name, source) =>
      match source with
      | .error e =>
        (m.complain s!"/bin/grep: {name}: {e.description}", any, true)
      | .ok bytes =>
        let found := grepLines options pattern.toList bytes
        let label := if files.length < 2 then "" else name ++ ":"
        let shown :=
          if options.contains 'q' then ""
          else if options.contains 'c' then label ++ toString found.length ++ "\n"
          else if options.contains 'l' then if found.isEmpty then "" else name ++ "\n"
          else String.join (found.map fun (n, line) =>
            label ++ (if options.contains 'n' then toString n ++ ":" else "")
              ++ String.ofList line ++ "\n")
        (m.put (bytesOf shown), any || !found.isEmpty, failed)) (m, false, false)
    m.withStatus (if failed && !(any && options.contains 'q') then 2 else if any then 0 else 1)

/-- Copies what stands at a place, and all below it, to another place. -/
def copyTree (t : FileTree) (source target : Location) : FileTree :=
  let copied := t.entries.filter fun e => source.isPrefixOf e.1
  copied.foldl (fun t e =>
    let place := target ++ e.1.drop source.length
    if e.2 == .directory && t.isDirectoryAt place then t else t.set place e.2) t

/-- The last name of a path, as it is given to what is copied into a directory. -/
def lastName (p : String) : String := ((Path.mk p).fileName?).getD ""

/-- Copies one operand. -/
def copyOne (recursive : Bool) (source target : String) (m : Machine) : Machine :=
  let fails (s : String) : Machine := (m.complain ("/bin/cp: " ++ s)).withStatus 1
  match m.tree.lookup m.here ⟨source⟩, m.tree.locate m.here ⟨source⟩ with
  | .error e, _ => fails s!"cannot stat '{source}': {e.description}"
  | _, .error e => fails s!"cannot stat '{source}': {e.description}"
  | .ok node, .ok place =>
    if node == .directory && !recursive then
      fails s!"-r not specified; omitting directory '{source}'"
    else
      let into := m.tree.isDirectory m.here ⟨target⟩
      let path : Path := if into then (Path.mk target).push ⟨lastName source⟩ else ⟨target⟩
      match m.tree.locate m.here path with
      | .error e => fails s!"cannot create '{path.text}': {e.description}"
      | .ok destination => { m with tree := copyTree m.tree place destination }

def cp (m : Machine) (args : List String) : Machine :=
  let (options, operands) := splitOptions args
  let recursive := options.any "rRa".toList.contains
  match operands.getLast? with
  | none => (m.complain "/bin/cp: missing file operand").withStatus 1
  | some target =>
    if operands.length < 2 then
      (m.complain s!"/bin/cp: missing destination file operand after '{target}'").withStatus 1
    else if 2 < operands.length && !m.tree.isDirectory m.here ⟨target⟩ then
      (m.complain s!"/bin/cp: target '{target}' is not a directory").withStatus 1
    else operands.dropLast.foldl (fun m s => copyOne recursive s target m) (m.withStatus 0)

/-- Makes one directory. -/
def makeOne (parents : Bool) (m : Machine) (path : String) : Machine :=
  let fails (e : FileError) : Machine :=
    (m.complain s!"/bin/mkdir: cannot create directory '{path}': {e.description}").withStatus 1
  if parents then
    match m.tree.makeDirectories m.here (Path.mk path).components with
    | .ok t => { m with tree := t }
    | .error e => fails e
  else
    match m.tree.locate m.here ⟨path⟩ with
    | .error e => fails e
    | .ok place =>
      match m.tree.find? place with
      | some _ => fails .alreadyExists
      | none => { m with tree := m.tree.set place .directory }

def mkdir (m : Machine) (args : List String) : Machine :=
  let (options, operands) := splitOptions args
  operands.foldl (makeOne (options.contains 'p')) (m.withStatus 0)

def fileProgram? : String → Option (Machine → List String → Machine)
  | "/bin/cat" => some cat
  | "/bin/cp" => some cp
  | "/bin/grep" => some grep
  | "/bin/mkdir" => some mkdir
  | _ => none

end Restyle.Shell
