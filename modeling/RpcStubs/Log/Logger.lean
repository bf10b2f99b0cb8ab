import RpcStubs.Log.Filter

namespace RpcStubs

inductive Subscriber where
  | absent
  | listening
  | gone
  deriving DecidableEq, Repr

structure LevelHandle where
  subscriber : Subscriber := .absent
  level : Option LogLevel := none
  pinned : Bool := false
  deriving DecidableEq, Repr

inductive ReloadFailure where
  | uninitialized
  | gone
  deriving DecidableEq, Repr

def ReloadFailure.message : ReloadFailure → String
  | .uninitialized => "Reload handle not initialized"
  | .gone => "Failed to reload filter: subscriber no longer exists"

namespace LevelHandle

def install (level : LogLevel) (pinned : Bool) : LevelHandle := ⟨.listening, some level, pinned⟩

def uninstall (h : LevelHandle) : LevelHandle :=
  if h.subscriber = .listening then { h with subscriber := .gone } else h

def reload (h : LevelHandle) (level : LogLevel) : Except ReloadFailure Bool × LevelHandle :=
  if h.pinned then (.ok false, h)
  else
    match h.subscriber with
    | .absent => (.error .uninitialized, h)
    | .gone => (.error .gone, h)
    | .listening => (.ok true, { h with level := some level })

def admits (h : LevelHandle) (e : Event) : Bool :=
  match h.subscriber, h.level with
  | .listening, some threshold => threshold.admits e.level
  | _, _ => false

def write (h : LevelHandle) (e : Event) : String := if h.admits e then e.render else ""

end LevelHandle

structure Logger where
  handle : LevelHandle := {}
  directives : Option (List Directive) := none
  text : String := ""
  deriving Repr

namespace Logger

def admits (l : Logger) (e : Event) : Bool :=
  l.handle.admits e && (l.directives.map (Directive.allow · e)).getD true

def emit (l : Logger) (e : Event) : Logger :=
  if l.admits e then { l with text := l.text ++ e.render } else l

def emitAll (l : Logger) (es : List Event) : Logger := es.foldl emit l

def settingName : String := "XSERVICE_LOG"

def rejectedEvent : Event :=
  ⟨.warn, "xservice_logging::layer", "ignoring invalid log directives",
    [("variable", Text.quote settingName), ("error", "invalid filter directive")]⟩

/-- A log that listens from the given level on. Directives pin the level to the lowest, so that
they alone decide. -/
def start (level : LogLevel) : FilterSetting → Logger
  | .unset => { handle := .install level false }
  | .directives ds => { handle := .install .trace true, directives := some ds }
  | .rejected => emit { handle := .install level false } rejectedEvent

def levelEvent (result : Except ReloadFailure Bool) (level : LogLevel) : Event :=
  let tell (message : String) (fields : List (String × String)) : Event :=
    ⟨.debug, "protoc_gen_xservice::plugin", message, fields⟩
  match result with
  | .ok true => tell "applied configured log level" [("level", level.name)]
  | .ok false => tell "log level pinned by XSERVICE_LOG" []
  | .error failure => tell "configured log level not applied" [("error", failure.message)]

def applyLevel (l : Logger) (level : LogLevel) : Logger :=
  let (result, handle) := l.handle.reload level
  { l with handle }.emit (levelEvent result level)

end Logger

end RpcStubs
