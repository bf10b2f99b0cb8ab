import RpcStubs.Failure
import RpcStubs.Log.Level
import RpcStubs.Text.Split
import RpcStubs.Toml.Document
import RpcStubs.Wire.ContentType
import RpcStubs.Wire.Route

namespace RpcStubs.Stub

open Wire

inductive Mode where
  | api
  | server
  deriving DecidableEq, Repr

namespace Mode

def word : Mode → String
  | .api => "api"
  | .server => "server"

def ofWord? (s : String) : Option Mode := [api, server].find? (·.word == s)

def emitsClients (m : Mode) : Bool := m = .api

end Mode

inductive PathsMode where
  | sourceRelative
  | importPath
  deriving DecidableEq, Repr

namespace PathsMode

def word : PathsMode → String
  | .sourceRelative => "source_relative"
  | .importPath => "import"

def ofWord? (s : String) : Option PathsMode := [sourceRelative, importPath].find? (·.word == s)

end PathsMode

structure Config where
  mode : Mode := .api
  /-- The import path below which the runtime packages are found. -/
  framework : String := "github.com/donutloop/xservice/framework"
  pathPrefix : String := defaultPrefix
  logLevel : String := "warn"
  paths : PathsMode := .sourceRelative
  contentTypes : List ContentType := ContentType.all
  deriving DecidableEq, Repr

namespace Config

def isSegmentChar (c : Char) : Bool := c.isAlphanum || c == '_' || c == '-' || c == '.'

def fault? (c : Config) : Option String :=
  let root := c.framework.toList
  if c.contentTypes.isEmpty then some "content_types must name at least one encoding"
  else if (Text.trim root).isEmpty then some "framework import root is empty"
  else if root.head? = some '/' ∨ root.getLast? = some '/' then
    some ("framework import root " ++ Text.quote c.framework ++ " must not start or end with '/'")
  else if c.pathPrefix.isEmpty ∨ !c.pathPrefix.toList.all isSegmentChar then
    some ("path_prefix " ++ Text.quote c.pathPrefix ++ " must be a single URL path segment")
  else if (LogLevel.ofName? c.logLevel).isNone then
    some ("unknown log level " ++ Text.quote c.logLevel)
  else none

def validate (c : Config) : Build Unit :=
  match c.fault? with
  | none => .ok ()
  | some detail => .error (.config detail)

def level (c : Config) : LogLevel := (LogLevel.ofName? c.logLevel).getD .warn

def orderedContentTypes (c : Config) : List ContentType :=
  ContentType.all.filter c.contentTypes.contains

def isEmptyValue (value : Toml.Value) : Bool :=
  value.items?.any List.isEmpty || value.entries?.any List.isEmpty

/-- A choice is its word, or a table that maps its word to something empty. -/
def choice? {α : Type} (ofWord? : String → Option α) (value : Toml.Value) : Option α :=
  match value.text?, value.entries? with
  | some word, _ => ofWord? word
  | _, some [(word, value)] => if isEmptyValue value then ofWord? word else none
  | _, _ => none

def contentTypes? (value : Toml.Value) : Option (List ContentType) := do
  (← value.items?).mapM (choice? ContentType.ofWord?)

def set? (c : Config) (key : String) (value : Toml.Value) : Option Config :=
  match key with
  | "mode" => return { c with mode := ← choice? Mode.ofWord? value }
  | "framework" => return { c with framework := ← value.text? }
  | "path_prefix" => return { c with pathPrefix := ← value.text? }
  | "log_level" => return { c with logLevel := ← value.text? }
  | "paths" => return { c with paths := ← choice? PathsMode.ofWord? value }
  | "content_types" => return { c with contentTypes := ← contentTypes? value }
  | _ => none

def ofToml (text : String) : Build Config := do
  match (Toml.parse? text).bind fun table ↦ table.foldlM (fun c (k, v) ↦ set? c k v) {} with
  | none => throw (.config "TOML parse error")
  | some c =>
    c.validate
    return c

abbrev Entry := String × String

def trimmed (s : List Char) : String := String.ofList (Text.trim s)

def entries (parameter : String) : Build (List Entry) :=
  let pieces := ((Text.pieces ',' parameter.toList).map Text.trim).filter (!·.isEmpty)
  pieces.mapM fun entry ↦
    match Text.cutFirst '=' entry with
    | some (key, value) => .ok (trimmed key, trimmed value)
    | none =>
      .error (.config ("expected key=value, got " ++ Text.quote (String.ofList entry)))

/-- The encodings named between plus signs, each once. -/
def contentTypesOf? (value : String) : Option (List ContentType) := do
  let named ← (Text.pieces '+' value.toList).mapM fun name ↦ ContentType.ofWord? (trimmed name)
  return named.eraseDups

def levelWord? (value : String) : Option String := (LogLevel.ofName? value).map fun _ ↦ value

def apply (c : Config) (entry : Entry) : Build Config :=
  let (key, value) := entry
  let orInvalid {α : Type} (x : Option α) (f : α → Config) : Build Config :=
    match x with
    | some a => .ok (f a)
    | none => .error (.config ("invalid value " ++ Text.quote value ++ " for " ++ key))
  match key with
  | "config" => .ok c
  | "mode" => orInvalid (Mode.ofWord? value) fun mode ↦ { c with mode }
  | "framework" => .ok { c with framework := value }
  | "path_prefix" => .ok { c with pathPrefix := value }
  | "log_level" => orInvalid (levelWord? value) fun logLevel ↦ { c with logLevel }
  | "paths" => orInvalid (PathsMode.ofWord? value) fun paths ↦ { c with paths }
  | "content_types" => orInvalid (contentTypesOf? value) fun contentTypes ↦ { c with contentTypes }
  | _ => .error (.config ("unknown generator option " ++ Text.quote key))

/-- The configuration before its entries: what the first `config` entry loads, or the defaults. -/
def base (load : String → Build Config) (entries : List Entry) : Build Config :=
  match entries.lookup "config" with
  | some path => load path
  | none => .ok {}

/-- The configuration of a parameter, in which `load` reads the files that it names. -/
def ofParameter (load : String → Build Config) (parameter : String) : Build Config := do
  let entries ← entries parameter
  let c ← entries.foldlM apply (← base load entries)
  c.validate
  return c

end Config

end RpcStubs.Stub
