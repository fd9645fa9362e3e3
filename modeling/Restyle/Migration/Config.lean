import Restyle.Component.Naming
import Restyle.Json.Typed
import Restyle.Markup.Scan
import Restyle.Project
/-!
The configuration of a migration: where its files are, what is rewritten in them and what the new
components are called. It is read from JSON, each setting on its own having a default.
-/

namespace Restyle.Migration

open Json (Failure Place Reader)

/-- The settings of a migration. -/
structure Config where
  /-- Directories of the project in which files are looked for. -/
  sourceDirs : List String := ["src", "app"]
  /-- Names, without extension, of the files that are rewritten. -/
  targetNames : List String := ["Layout", "Instructions"]
  extensions : List String := ["jsx", "tsx"]
  /-- The stylesheet of the project, which is compiled and then replaced. -/
  globalStylesheet : String := "app/global.css"
  tailwindConfig : String := "tailwind.config.js"
  /-- The sheet that is compiled for the replacement. -/
  baseLayerSource : String := "@tailwind base;"
  classAttribute : String := Markup.defaultClassAttribute
  componentSuffix : String := Component.defaultSuffix
  /-- Whether style files begin with the directive of client code. -/
  clientDirective : Bool := true
deriving DecidableEq, Repr, Inhabited

/-- The settings by name. -/
inductive Setting where
  | sourceDirs | targetNames | extensions | globalStylesheet | tailwindConfig | baseLayerSource
  | classAttribute | componentSuffix | clientDirective
deriving DecidableEq, Repr, Inhabited

namespace Setting

/-- The settings in the order in which a list gives them. -/
def all : List Setting :=
  [sourceDirs, targetNames, extensions, globalStylesheet, tailwindConfig, baseLayerSource,
    classAttribute, componentSuffix, clientDirective]

def key : Setting → String
  | sourceDirs => "source_dirs"
  | targetNames => "target_names"
  | extensions => "extensions"
  | globalStylesheet => "global_stylesheet"
  | tailwindConfig => "tailwind_config"
  | baseLayerSource => "base_layer_source"
  | classAttribute => "class_attribute"
  | componentSuffix => "component_suffix"
  | clientDirective => "client_directive"

def ofKey? (k : String) : Option Setting := all.find? fun s => s.key == k

def read (s : Setting) (c : Config) : Reader Config := fun p => do
  match s with
  | sourceDirs => let (v, p) ← Json.readStrings p; return ({ c with sourceDirs := v }, p)
  | targetNames => let (v, p) ← Json.readStrings p; return ({ c with targetNames := v }, p)
  | extensions => let (v, p) ← Json.readStrings p; return ({ c with extensions := v }, p)
  | globalStylesheet =>
    let (v, p) ← Json.readString p; return ({ c with globalStylesheet := v }, p)
  | tailwindConfig => let (v, p) ← Json.readString p; return ({ c with tailwindConfig := v }, p)
  | baseLayerSource => let (v, p) ← Json.readString p; return ({ c with baseLayerSource := v }, p)
  | classAttribute => let (v, p) ← Json.readString p; return ({ c with classAttribute := v }, p)
  | componentSuffix => let (v, p) ← Json.readString p; return ({ c with componentSuffix := v }, p)
  | clientDirective => let (v, p) ← Json.readBool p; return ({ c with clientDirective := v }, p)

end Setting

/-- Why there is no configuration. -/
inductive ConfigError where
  | malformed (source : String) (f : Failure)
  | emptyAttribute
  | badSuffix (s : String)
  | rejectedPath (r : Project.PathRejection)
deriving DecidableEq, Repr

def ConfigError.message : ConfigError → String
  | malformed source f => f.message source
  | emptyAttribute => "class_attribute must not be empty"
  | badSuffix s => s!"component_suffix '{s}' is not an identifier fragment"
  | rejectedPath r => r.message

namespace Config

/-- Whether one more key of an object follows, with the place behind its opening quote. -/
def nextKey (isFirst : Bool) : Reader Bool := fun p =>
  let p := p.skipBlanks
  match p.rest with
  | [] => p.failAhead .endInObject
  | '\x7d' :: _ => .ok (false, p)
  | c :: _ =>
    if isFirst then
      if c == '"' then .ok (true, p.next) else p.failAhead .keyNotString
    else if c == ',' then
      let p := p.next.skipBlanks
      match p.rest with
      | [] => p.failAhead .endInValue
      | '"' :: _ => .ok (true, p.next)
      | '\x7d' :: _ => p.failAhead .trailingComma
      | _ => p.failAhead .keyNotString
    else p.failAhead .expectedObjectEnd

/-- Passes over the colon behind a key. -/
def passColon : Reader Unit := fun p =>
  let p := p.skipBlanks
  match p.rest with
  | ':' :: _ => .ok ((), p.next)
  | [] => p.failAhead .endInObject
  | _ => p.failAhead .expectedColon

/-- The failure of a setting that is given twice, told behind its key and the blanks and the end of
the object that may follow it. -/
def duplicate {α : Type} (s : Setting) : Reader α := fun p =>
  let p := p.skipBlanks
  let p := if p.rest.head? == some '\x7d' then p.next else p
  p.fail (.duplicateField s.key)

/-- Reads the settings of an object behind its brace. Keys that name none are passed over. -/
def readFields : Nat → Bool → List Setting → Config → Reader Config
  | 0, _, _, c, p => .ok (c, p)
  | fuel + 1, isFirst, seen, c, p => do
    let (more, p) ← nextKey isFirst p
    if !more then return (c, p.next)
    else
      let (key, p) ← Json.readQuoted p
      match Setting.ofKey? key with
      | some s =>
        if seen.contains s then duplicate s p
        else
          let ((), p) ← passColon p
          let (c, p) ← s.read c p
          readFields fuel false (s :: seen) c p
      | none =>
        let ((), p) ← passColon p
        let ((), p) ← Json.passValue p
        readFields fuel false seen c p

/-- Reads the settings of a list behind its bracket, in their order, as far as they are given. -/
def readInOrder : List Setting → Bool → Config → Reader Config
  | [], _, c, p => .ok (c, p)
  | s :: ss, isFirst, c, p => do
    let (more, p) ← Json.nextElement isFirst p
    if more then
      let (c, p) ← s.read c p
      readInOrder ss false c p
    else return (c, p)

def read : Reader Config := fun p => do
  let p ← Json.valuePlace p
  match p.rest with
  | '\x7b' :: _ => readFields (p.rest.length + 1) true [] {} p.next
  | '[' :: _ => do
    let (c, p) ← readInOrder Setting.all true {} p.next
    let ((), p) ← Json.endList p
    return (c, p)
  | _ => Json.wrongType "struct MigrationConfig" p

def isIdentifierPart (c : Char) : Bool := Text.isAlphanumeric c || c == '_' || c == '$'

def check (c : Config) : Except ConfigError Config :=
  if c.classAttribute.isEmpty then .error .emptyAttribute
  else if c.componentSuffix.toList.all isIdentifierPart then .ok c
  else .error (.badSuffix c.componentSuffix)

def ofJson (source : String) : Except ConfigError Config := do
  let result : Except Failure Config := do
    let (c, p) ← read (Place.start source)
    let _ ← Json.readEnd p
    return c
  match result with
  | .ok c => c.check
  | .error f => .error (.malformed source f)

end Config

end Restyle.Migration
