import Restyle.CommandLine.Run
import Restyle.Shell.Run
/-!
The program. The files that it works on are named on standard input, one path a line; they are read
into a workspace, the command line is run there, and what it wrote is put back.
-/

namespace Restyle

private def placeOf (p : Path) : Location :=
  p.normalize.components.filterMap fun
    | .name s => some s
    | _ => none

private def withDirectories (t : FileTree) (here : Location) : FileTree :=
  match t.makeDirectories [] (here.map Component.name) with
  | .ok t => t
  | .error _ => t

/-- Puts a file from the disk into a tree. A script can be run. -/
private def load (here : Path) (t : FileTree) (name : String) : IO FileTree := do
  let path := here.push ⟨name⟩
  let bytes ← IO.FS.readBinFile path.text
  let content := Content.ofBytes bytes.toList
  let runnable := bytes.toList.take 2 == "#!".toUTF8.toList
  let place := placeOf path
  return (withDirectories t place.dropLast).set place (.file content runnable)

/-- The lines that standard input has, for at most `fuel` lines. -/
private def readLines (input : IO.FS.Stream) : Nat → IO (List String)
  | 0 => return []
  | fuel + 1 => do
    let line ← input.getLine
    if line.isEmpty then return []
    let name := String.ofList (Text.trim line.toList)
    let rest ← readLines input fuel
    return if name.isEmpty then rest else name :: rest

private def logLine (n : Notice) : String :=
  let level := match n.level with
    | .information => "INFO"
    | .warning => "WARN"
  s!"{level} {n.origin}: {n.text}"

/-- Writes what a run left to be seen, and gives its exit code. -/
private def show_ (o : CommandLine.Outcome) (log : List Notice) : IO UInt32 := do
  log.forM fun n => IO.eprintln (logLine n)
  IO.print o.output
  o.usage.forM fun s => IO.eprint s
  o.failure.forM fun e => IO.eprintln ("Error: " ++ e.account.render)
  return o.code.toUInt32

private def runOnDisk (words : List String) : IO UInt32 := do
  let here : Path := ⟨(← IO.currentDir).toString⟩
  let names ← readLines (← IO.getStdin) 1000000
  let tree ← names.foldlM (load here) (withDirectories .empty (placeOf here))
  let searchPath := ((← IO.getEnv "PATH").getD "").splitOn ":"
  let programs : Programs Unit := Shell.programs (searchPath.map Path.mk)
  let (outcome, after) :=
    CommandLine.run programs words { tree := tree, here := placeOf here, memory := () }
  after.tree.entries.forM fun (place, node) => do
    match node with
    | .file content _ =>
      if tree.find? place != some node then
        let directory := "/" ++ "/".intercalate place.dropLast
        IO.FS.createDirAll directory
        IO.FS.writeBinFile (directory ++ "/" ++ place.getLastD "") ⟨content.bytes.toArray⟩
    | .directory => pure ()
  show_ outcome after.log

end Restyle

def main (arguments : List String) : IO UInt32 := Restyle.runOnDisk arguments
