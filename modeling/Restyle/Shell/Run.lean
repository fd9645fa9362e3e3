import Restyle.Shell.Utility
import Restyle.Workspace
/-!
Running shell scripts over a tree of files. A script is a program whose first line names the shell;
its run changes the tree and leaves behind a status and what it wrote.
-/

namespace Restyle.Shell

/-- A command that runs, given a shorter allowance. -/
abbrev Runner := Command → Machine → Machine × Flow

/-- The value of a piece, for which a script may have to run. -/
def valueOf (run : Runner) (p : Piece) (m : Machine) : Value × Machine :=
  match p with
  | .output script inQuotes =>
    match read? script with
    | none => (.text [] inQuotes (!inQuotes), m.withStatus 2)
    | some c =>
      let (after, _) := run c { m with output := [], standard := .output }
      let text := Text.Utf8.decodeLossy after.output.reverse.flatten
      (.text (Text.dropWhileEnd (· == '\n') text) inQuotes (!inQuotes),
        { m with tree := after.tree, errors := after.errors, input := after.input,
                 status := after.status })
  | p => (p.value m, m)

def valuesOf (run : Runner) : Word → Machine → List Value × Machine
  | [], m => ([], m)
  | p :: ps, m =>
    let (v, m) := valueOf run p m
    let (vs, m) := valuesOf run ps m
    (v :: vs, m)

def expandWords (run : Runner) : List Word → Machine → List String × Machine
  | [], m => ([], m)
  | w :: ws, m =>
    let (vs, m) := valuesOf run w m
    let (rest, m) := expandWords run ws m
    ((fieldsOf vs).flatMap (expandNames m) ++ rest, m)

/-- The text that one word stands for. -/
def expandOne (run : Runner) (w : Word) (m : Machine) : Field × Machine :=
  let (vs, m) := valuesOf run w m
  (fieldOf vs, m)

def assignAll (run : Runner) : List (String × Word) → Machine → Machine
  | [], m => m
  | (name, w) :: rest, m =>
    let (f, m) := expandOne run w m
    assignAll run rest (m.assign name f.text)

/-- Points the streams of a machine elsewhere, or says why not. -/
def redirect (run : Runner) : List Redirection → Machine → Except (String × Machine) Machine
  | [], m => .ok m
  | r :: rs, m =>
    let (f, m) := expandOne run r.target m
    let target := f.text
    let place (m : Machine) (s : Sink) : Machine :=
      if r.stream == 2 then { m with diagnostic := s } else { m with standard := s }
    match r.direction with
    | .fromFile =>
      match m.openSource target with
      | .ok bytes => redirect run rs { m with input := bytes }
      | .error e => .error (s!"{m.script}: cannot open {target}: {e.description}", m)
    | .copyOf =>
      redirect run rs <|
        if target == "2" then place m m.diagnostic
        else if target == "1" then place m m.standard
        else if target == "-" then place m .nowhere
        else m
    | d =>
      match m.openSink target (d == .toEndOfFile) with
      | .ok (m, s) => redirect run rs (place m s)
      | .error e => .error (s!"{m.script}: cannot create {target}: {e.description}", m)

/-- The number that an argument gives, or another one. -/
def numberOr (default : Nat) : Option String → Nat
  | some s => (s.toNat?).getD default
  | none => default

/-- Sends a signal. Any but the empty one ends the script where it is sent to itself. -/
def kill (m : Machine) (args : List String) : Machine × Flow :=
  if args.contains processNumber then
    if args.contains "-0" then (m.withStatus 0, .onward) else (m, .killed)
  else ((m.complain s!"{m.script}: kill: No such process").withStatus 1, .onward)

def builtin? (name : String) (args : List String) (m : Machine) : Option (Machine × Flow) :=
  let code := numberOr m.status args.head?
  let loops := numberOr 1 args.head?
  match name with
  | ":" | "true" | "export" | "set" | "umask" | "wait" => some (m.withStatus 0, .onward)
  | "false" => some (m.withStatus 1, .onward)
  | "echo" => some (echo m args, .onward)
  | "printf" => some (printf m args, .onward)
  | "read" => some (readLine m args, .onward)
  | "test" => some (test m args, .onward)
  | "[" => some (test m args.dropLast, .onward)
  | "exit" => some (m.withStatus (code % 256), .exits)
  | "return" => some (m.withStatus (code % 256), .returns)
  | "break" => some (m.withStatus 0, .leaves loops)
  | "continue" => some (m.withStatus 0, .again loops)
  | "kill" => some (kill m args)
  | "shift" => some ({ m with arguments := m.arguments.drop loops, status := 0 }, .onward)
  | "pwd" => some ((m.put (bytesOf ("/" ++ "/".intercalate m.here ++ "\n"))).withStatus 0, .onward)
  | "cd" =>
    match m.tree.locate m.here ⟨args.headD ""⟩ with
    | .ok place =>
      if m.tree.isDirectoryAt place then some ({ m with here := place, status := 0 }, .onward)
      else some ((m.complain (m.script ++ ": cd: can't cd to " ++ args.headD "")).withStatus 2, .onward)
    | .error _ =>
      some ((m.complain (m.script ++ ": cd: can't cd to " ++ args.headD "")).withStatus 2, .onward)
  | _ => none

/-- The command of a script that can be run, or why it cannot: its first line has to name the
shell. -/
def scriptOf : Content → Except FileError (Option Command)
  | .text s =>
    let cs := s.toList
    if "#!/bin/sh".toList.isPrefixOf cs then .ok (read? cs)
    else if "#!".toList.isPrefixOf cs then .error .notFound
    else .error .notProgram
  | .binary _ => .error .notProgram

/-- Runs another script from within one. -/
def runScript (run : Runner) (path : Path) (args : List String) (m : Machine) : Machine × Flow :=
  match (m.tree.read m.here path).toOption.map scriptOf with
  | some (.ok (some c)) =>
    let inner := { m with
      script := path.text, arguments := args, bindings := [], functions := [], status := 0 }
    let (after, flow) := run c inner
    let after := { after with
      here := m.here, script := m.script, arguments := m.arguments, bindings := m.bindings,
      functions := m.functions }
    (if flow == .killed then after.withStatus 137 else after, .onward)
  | _ => ((m.complain s!"{m.script}: {path.text}: Exec format error").withStatus 126, .onward)

/-- Runs a command given by its name and arguments. -/
def runNamed (run : Runner) (name : String) (args : List String) (m : Machine) : Machine × Flow :=
  match m.functions.find? (·.1 == name), builtin? name args m, fileProgram? name with
  | some (_, body), _, _ =>
    let (after, flow) := run body { m with arguments := args }
    ({ after with arguments := m.arguments }, if flow == .returns then .onward else flow)
  | none, some result, _ => result
  | none, none, some program => (program m args, .onward)
  | none, none, none =>
    match Program.resolve m.searchPath m.tree m.here ⟨name⟩ with
    | .ok path => runScript run path args m
    | .error .permissionDenied =>
      ((m.complain s!"{m.script}: {name}: Permission denied").withStatus 126, .onward)
    | .error _ => ((m.complain s!"{m.script}: {name}: not found").withStatus 127, .onward)

/-- Runs a command in a place of its own: only the files, the streams and the status remain. -/
def runApart (run : Runner) (c : Command) (m : Machine) : Machine × Flow :=
  let (after, flow) := run c m
  let after := { after with
    here := m.here, bindings := m.bindings, functions := m.functions, arguments := m.arguments }
  (after, if flow == .killed then .killed else .onward)

/-- What a loop does when its body ends in some way: goes on, or ends in the way given. -/
def afterBody : Flow → Option Flow
  | .onward | .again 0 | .again 1 => none
  | .again (n + 2) => some (.again (n + 1))
  | .leaves 0 | .leaves 1 => some .onward
  | .leaves (n + 2) => some (.leaves (n + 1))
  | f => some f

/-- Runs a body once for each value of a variable. -/
def runEach (run : Runner) (name : String) (body : Command) :
    List String → Machine → Machine × Flow
  | [], m => (m, .onward)
  | v :: vs, m =>
    let (m, flow) := run body (m.assign name v)
    match afterBody flow with
    | none => runEach run name body vs m
    | some f => (m, f)

/-- The body of the first arm of which a pattern fits. -/
def firstArm (run : Runner) (subject : List Char) :
    List (List Word × Command) → Machine → Option Command × Machine
  | [], m => (none, m)
  | (patterns, body) :: arms, m =>
    let (found, m) := patterns.foldl (fun (found, m) w =>
      if found then (found, m)
      else
        let (f, m) := expandOne run w m
        (fits f subject, m)) (false, m)
    if found then (some body, m) else firstArm run subject arms m

/-- Runs a command. `fuel` bounds the depth of the run and the turns of its loops. -/
def exec : Nat → Command → Machine → Machine × Flow
  | 0, _, m => (m.withStatus 2, .exits)
  | fuel + 1, c, m =>
    let run := exec fuel
    match c with
    | .nothing => (m, .onward)
    | .simple assigned words =>
      let (args, m) := expandWords run words m
      match args with
      | [] => (assignAll run assigned (m.withStatus 0), .onward)
      | name :: args => runNamed run name args (assignAll run assigned m)
    | .both a b =>
      match run a m with
      | (m, .onward) => run b m
      | other => other
    | .andThen a b =>
      match run a m with
      | (m, .onward) => if m.status == 0 then run b m else (m, .onward)
      | other => other
    | .orElse a b =>
      match run a m with
      | (m, .onward) => if m.status == 0 then (m, .onward) else run b m
      | other => other
    | .negated a =>
      match run a m with
      | (m, .onward) => (m.withStatus (if m.status == 0 then 1 else 0), .onward)
      | other => other
    | .pipe a b =>
      match runApart run a { m with output := [], standard := .output } with
      | (after, .killed) => (after, .killed)
      | (after, _) =>
        let next := { after with
          input := after.output.reverse.flatten, output := m.output, standard := m.standard }
        let (last, flow) := runApart run b next
        ({ last with input := after.input }, flow)
    | .choose test yes no =>
      match run test m with
      | (m, .onward) => if m.status == 0 then run yes m else run no (m.withStatus 0)
      | other => other
    | .loop untilTrue test body =>
      match run test m with
      | (m, .onward) =>
        if (m.status == 0) == untilTrue then (m.withStatus 0, .onward)
        else
          let (m, flow) := run body m
          match afterBody flow with
          | none => run (.loop untilTrue test body) m
          | some f => (m, f)
      | other => other
    | .each name words body =>
      let (values, m) := expandWords run words m
      runEach run name body values (m.withStatus 0)
    | .select subject arms =>
      let (f, m) := expandOne run subject m
      match firstArm run (f.map (·.1)) arms m with
      | (some body, m) => run body (m.withStatus 0)
      | (none, m) => (m.withStatus 0, .onward)
    | .redirected inner rs =>
      match redirect run rs m with
      | .error (message, m) => ((m.complain message).withStatus 2, .onward)
      | .ok open_ =>
        let (after, flow) := run inner open_
        let reads := rs.any (·.direction == .fromFile)
        ({ after with
          standard := m.standard, diagnostic := m.diagnostic,
          input := if reads then m.input else after.input }, flow)
    | .subshell inner => runApart run inner m
    | .define name body =>
      ({ m with functions := (name, body) :: m.functions, status := 0 }, .onward)

/-- The number of nested commands and turns of loops after which a script is given up. -/
def patience : Nat := 100000

/-- The place where a called program works. -/
def workplace (t : FileTree) (here : Location) (dir : Option Path) :
    Except FileError Location :=
  match dir with
  | none => .ok here
  | some p =>
    match t.lookup here p with
    | .error e => .error e
    | .ok .directory => t.locate here p
    | .ok (.file ..) => .error .notDirectory

/-- Runs a called program over a tree: what it leaves behind, or why it did not start, and the
tree afterwards. -/
def launch (searchPath : List Path) (t : FileTree) (here : Location) (i : Invocation) :
    Except FileError Completion × FileTree :=
  let prepared : Except FileError (Location × Path × Option Command) := do
    let place ← workplace t here i.directory
    let path ← Program.resolve searchPath t place i.program
    let c ← scriptOf (← t.read place path)
    return (place, path, c)
  match prepared with
  | .error e => (.error e, t)
  | .ok (_, path, none) =>
    (.ok ⟨2, "", s!"{path.text}: Syntax error\n"⟩, t)
  | .ok (place, path, some c) =>
    let m : Machine :=
      { tree := t, here := place, searchPath := searchPath, script := path.text,
        arguments := i.arguments, input := (i.input.map bytesOf).getD [] }
    let (after, flow) := exec patience c m
    let code : Int := if flow == .killed then -1 else after.status
    (.ok ⟨code, textOf after.output.reverse.flatten, textOf after.errors.reverse.flatten⟩,
      after.tree)

def programs {σ : Type} (searchPath : List Path) : Programs σ where
  find? name w := Program.find? searchPath w.tree w.here name
  launch i := fun w =>
    let (result, t) := launch searchPath w.tree w.here i
    (result, { w with tree := t })

end Restyle.Shell
