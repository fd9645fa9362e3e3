import Restyle.Migration.Error
import Restyle.Migration.Report
import Restyle.Project
import Restyle.Sheet.Load
import Restyle.Tool
/-!
The run of a migration. First the styles are compiled, then the files are chosen, then each is
rewritten, then the style files are written, and last the stylesheet of the project is replaced. A
stage works on what the one before it gives. What was written before a failure stays.
-/

namespace Restyle

open Component (Collection Styled)
open Migration (Config Report FileReport StyleFileReport)
open Sheet (StyleTable)

/-- A migration of the project at a root. A dry run writes nothing. -/
structure Migration (σ : Type) where
  root : Path
  config : Config
  compiler : StyleCompiler σ
  formatter : Formatter σ
  dryRun : Bool

namespace Migration

/-- The styles of a project: their table, the sheet that will replace the one of the project, and
where that one is. -/
structure Styles where
  table : StyleTable
  baseCss : String
  sheet : Path

/-- What the rewriting of files gives. -/
structure Rewriting where
  components : Collection
  files : List FileReport

/-- The tokens without styles of all files, each once. -/
def Rewriting.droppedTokens (r : Rewriting) : List String :=
  (r.files.flatMap (·.droppedTokens)).eraseDups

def styleFileHeader (clientDirective : Bool) : String :=
  (if clientDirective then "'use client'\n" else "") ++ "import styled from 'styled-components'\n"

variable {σ : Type} (m : Migration σ)

def shown (p : Path) : Path := Project.shown m.root p

def place (p : String) : Task σ MigrationError Path :=
  match Project.resolve m.root ⟨p⟩ with
  | .ok q => pure q
  | .error r => throw (.config (.rejectedPath r))

/-- Writes a text unless the run is dry; tells whether it was written. -/
def persist (p : Path) (s : String) : Task σ MigrationError Bool :=
  if m.dryRun then pure false
  else do
    (Task.writeText p s).mapError (.files p)
    return true

def format (p : Path) (s : String) : Task σ MigrationError String :=
  (m.formatter.format s p m.root).mapError (.unformatted (m.shown p))

def compile (source : String) : Task σ MigrationError String :=
  (m.compiler.compile source m.root).mapError fun e => .compile (.tool e)

/-- Compiles the stylesheet of the project and the one that will replace it. -/
def extractStyles : Task σ MigrationError Styles := do
  let sheet ← m.place m.config.globalStylesheet
  let source ← (Task.readText sheet).mapError fun e => .compile (.unreadable sheet e)
  let css ← m.compile source
  let baseCss ← m.compile m.config.baseLayerSource
  return ⟨StyleTable.ofCss css, baseCss, sheet⟩

/-- The files of one source directory that are rewritten. -/
def targetsIn (dir : String) : Task σ MigrationError (List Path) := do
  let p ← m.place dir
  Task.look fun w =>
    .ok (Project.selectTargets (Project.listFiles w.tree w.here p) m.config.targetNames
      m.config.extensions)

/-- The files that are rewritten, the source directories in the order of the configuration. -/
def targets : Task σ MigrationError (List Path) := do
  return (← m.config.sourceDirs.mapM m.targetsIn).flatten

/-- Rewrites one file, adding the components that its elements still lack. -/
def rewriteFile (table : StyleTable) (components : Collection) (file : Path) :
    Task σ MigrationError (Collection × FileReport) := do
  let name := m.shown file
  let language ← match Language.ofExtension (file.extension?.getD "") with
    | .ok l => pure l
    | .error e => throw (.unsupported name e)
  let source ← (Task.readText file).mapError (.files file)
  let elements ← match Markup.scanSource m.config.classAttribute file source language with
    | .ok es => pure es
    | .error l => throw (.unscannable name l)
  let synthesizer : Component.Synthesizer := ⟨table, m.config.componentSuffix⟩
  let (synthesis, components) := synthesizer.synthesizeFile file elements components
  let rewritten ←
    match Rewrite.run m.config.classAttribute file source language components with
    | .ok r => pure r
    | .error e => throw (.ofRewrite name e)
  let formatted ← m.format file rewritten.content
  let written ← if formatted != source then m.persist file formatted else pure false
  return (components, ⟨name, synthesis.created, synthesis.reused, synthesis.droppedTokens, written⟩)

/-- Rewrites files one after the other. -/
def rewriteAll (table : StyleTable) : Collection → List Path → Task σ MigrationError Rewriting
  | components, [] => pure ⟨components, []⟩
  | components, file :: files => do
    let (components, report) ← m.rewriteFile table components file
    let rest ← rewriteAll table components files
    return { rest with files := report :: rest.files }

def rewriteFiles (styles : Styles) (files : List Path) : Task σ MigrationError Rewriting :=
  m.rewriteAll styles.table [] files

/-- Adds components to the text of a style file, which is formatted and written after each. -/
def appendAll (companion : Path) : String → List Styled → Task σ MigrationError Unit
  | _, [] => pure ()
  | text, c :: cs => do
    let text ← m.format companion (text ++ "\n" ++ c.definition)
    let _ ← m.persist companion text
    appendAll companion text cs

/-- Writes one style file. -/
def writeStyleFile (companion : Path) (owned : List Styled) :
    Task σ MigrationError StyleFileReport := do
  m.appendAll companion (styleFileHeader m.config.clientDirective) owned
  return ⟨m.shown companion, owned.map (·.name)⟩

/-- Writes the style files, one for each companion. -/
def writeStyleFiles (components : Collection) :
    Task σ MigrationError (List StyleFileReport) :=
  components.byCompanion.mapM fun (companion, owned) => m.writeStyleFile companion owned

def replaceSheet (styles : Styles) : Task σ MigrationError Path := do
  let _ ← m.persist styles.sheet styles.baseCss
  return m.shown styles.sheet

def report (styles : Styles) (rewriting : Rewriting) (styleFiles : List StyleFileReport)
    (sheet : Path) : Report where
  projectRoot := m.root
  dryRun := m.dryRun
  styleTableClasses := styles.table.size
  files := rewriting.files
  styleFiles := styleFiles
  globalStylesheet := some sheet
  droppedTokens := rewriting.droppedTokens

def run : Task σ MigrationError Report := do
  let styles ← m.extractStyles
  let files ← m.targets
  let rewriting ← m.rewriteFiles styles files
  let styleFiles ← m.writeStyleFiles rewriting.components
  let sheet ← m.replaceSheet styles
  return m.report styles rewriting styleFiles sheet

end Migration

end Restyle
