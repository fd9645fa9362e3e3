import Restyle.Json.Value
import Restyle.Path
/-!
What a migration did, or would have done. Paths are shown from the root of the project.
-/

namespace Restyle.Migration

/-- What became of one file: the components made from it, the number of elements that found theirs
already made, the tokens without styles, and whether the file was written. -/
structure FileReport where
  path : Path
  components : List String
  reused : Nat
  droppedTokens : List String
  written : Bool
deriving DecidableEq, Repr, Inhabited

/-- A style file and the components that it defines. -/
structure StyleFileReport where
  path : Path
  components : List String
deriving DecidableEq, Repr, Inhabited

/-- What a migration did. -/
structure Report where
  projectRoot : Path
  dryRun : Bool
  /-- The number of classes with styles. -/
  styleTableClasses : Nat
  files : List FileReport
  styleFiles : List StyleFileReport
  globalStylesheet : Option Path
  /-- The tokens without styles of all files, each once. -/
  droppedTokens : List String
deriving DecidableEq, Repr, Inhabited

namespace Report

def componentCount (r : Report) : Nat := (r.files.flatMap (·.components)).length

open Json (Value)

private def strings (ss : List String) : Value := .list (ss.map Value.text)

private def ofFile (f : FileReport) : Value :=
  .object [("path", .text f.path.text), ("components", strings f.components),
    ("reused", .number f.reused), ("dropped_tokens", strings f.droppedTokens),
    ("written", .bool f.written)]

private def ofStyleFile (f : StyleFileReport) : Value :=
  .object [("path", .text f.path.text), ("components", strings f.components)]

def toJson (r : Report) : Value :=
  .object [("project_root", .text r.projectRoot.text), ("dry_run", .bool r.dryRun),
    ("style_table_classes", .number r.styleTableClasses), ("files", .list (r.files.map ofFile)),
    ("style_files", .list (r.styleFiles.map ofStyleFile)),
    ("global_stylesheet", match r.globalStylesheet with
      | some p => .text p.text
      | none => .null),
    ("dropped_tokens", strings r.droppedTokens)]

end Report

end Restyle.Migration
