import Restyle.Scaffold
import Restyle.Text.Account
/-!
How a command fails, and the account of the failure by its parts that ends the run.
-/

namespace Restyle

def FileError.kind : FileError → String
  | notFound => "NotFound"
  | permissionDenied => "PermissionDenied"
  | alreadyExists => "AlreadyExists"
  | notDirectory => "NotADirectory"
  | isDirectory => "IsADirectory"
  | notProgram => "Uncategorized"
  | notText => "InvalidData"
  | nulInName => "InvalidInput"

def FileError.account (e : FileError) : Account :=
  let told := [("kind", .word e.kind), ("message", .text e.description)]
  match e.number? with
  | some n => .record "Os" (("code", .number n) :: told)
  | none => .record "Error" told

/-- The account of a tool that does not do its work. -/
def ToolError.account : ToolError → Account
  | notFound name => .record "ToolNotFound" [("tool", .text name)]
  | notExecuted name cause =>
    .record "ToolExecution" [("tool", .text name), ("source", cause.account)]
  | failed name code errors =>
    .record "Failed" [("tool", .text name), ("code", .number code), ("stderr", .text errors)]
  | destinationExists p => .record "DestinationExists" [("path", .text p.text)]
  | files cause => .tuple "Io" [cause.account]

def CompileError.account : CompileError → Account
  | compilerNotFound name => .record "CompilerNotFound" [("tool", .text name)]
  | unreadable sheet cause =>
    .record "Read" [("path", .text sheet.text), ("source", cause.account)]
  | tool cause => .tuple "Tool" [cause.account]

def Syntax.Fault.account (f : Syntax.Fault) : Account :=
  .record "SyntaxError" [("line", .number f.line), ("column", .number f.column),
    ("context", .text f.context), ("node_kind", .text f.nodeKind)]

/-- The account of edits that are not accepted. -/
def EditConflict.account : EditConflict → Account
  | overlapping a b =>
    .record "Overlapping" [("a_label", .text a.label), ("a_start", .number a.span.start),
      ("a_end", .number a.span.stop), ("b_label", .text b.label),
      ("b_start", .number b.span.start), ("b_end", .number b.span.stop)]
  | outOfBounds e size =>
    .record "OutOfBounds" [("label", .text e.label), ("start", .number e.span.start),
      ("end", .number e.span.stop), ("source_len", .number size)]
  | splitsCharacter e offset =>
    .record "NotCharBoundary" [("label", .text e.label), ("offset", .number offset)]

def RewriteError.account : RewriteError → Account
  | inconsistent file m =>
    .record "InternalConsistency" [("file", .text file.text), ("message", .text m)]
  | noMarkup file l count =>
    .record "NotMarkup" [("file", .text file.text), ("language", .text l.name),
      ("count", .number count)]
  | conflict c => .tuple "Edit" [c.account]
  | invalidResult before after faults =>
    .record "InvalidResult" [("before", .number before), ("after", .number after),
      ("errors", .list (faults.map (·.account)))]

def MigrationError.account : MigrationError → Account
  | compile cause => .tuple "Compile" [cause.account]
  | inconsistent file m =>
    .record "InternalConsistency" [("file", .text file.text), ("message", .text m)]
  | unscannable file l =>
    .record "Scan" [("file", .text file.text),
      ("source", .record "NotMarkup" [("language", .text l.name)])]
  | unsupported file e =>
    .record "UnsupportedFile" [("file", .text file.text),
      ("source", .tuple "Unsupported" [.text e])]
  | unformatted file cause =>
    .record "Format" [("file", .text file.text), ("source", cause.account)]
  | invalidResult file cause =>
    .record "InvalidResult" [("file", .text file.text), ("source", cause.account)]
  | files p cause => .record "Io" [("path", .text p.text), ("source", cause.account)]
  | config cause => .tuple "Config" [.text cause.message]

def ScaffoldError.account : ScaffoldError → Account
  | name r => .tuple "Project" [.text r.message]
  | taken p => .tuple "Project" [.text s!"'{p.text}' already exists"]
  | tool cause => .tuple "Tool" [cause.account]
  | migration cause => .tuple "Migrate" [cause.account]

/-- Why a command fails. -/
inductive CommandError where
  | scaffold (cause : ScaffoldError)
  | migration (cause : MigrationError)
  /-- The root of the project is not there. -/
  | root (cause : FileError)
deriving DecidableEq, Repr

def CommandError.account : CommandError → Account
  | scaffold cause => cause.account
  | migration cause => cause.account
  | root cause => .tuple "Io" [cause.account]

end Restyle
