import RpcStubs.OrderedMap
import RpcStubs.Wire.ErrorCode
import RpcStubs.Wire.Json
import RpcStubs.Wire.Route

namespace RpcStubs.Wire

structure ErrorBody where
  code : ErrorCode
  msg : String
  details : OrderedMap String String := []
  deriving DecidableEq, Repr

namespace ErrorBody

def withMeta (b : ErrorBody) (key value : String) : ErrorBody :=
  { b with details := b.details.insert key value }

def badRoute (msg method path : String) : ErrorBody :=
  withMeta ⟨.badRoute, msg, []⟩ invalidRouteMeta (method ++ " " ++ path)

def unsupportedMethod (method path : String) : ErrorBody :=
  badRoute (routingMessage unsupportedMethodFormat method) method path

def noHandler (method path : String) : ErrorBody :=
  badRoute (routingMessage noHandlerFormat path) method path

def unexpectedContentType (header method path : String) : ErrorBody :=
  badRoute (routingMessage unexpectedContentTypeFormat header) method path

def httpStatus (b : ErrorBody) : Nat := b.code.httpStatus

def renderDetail (entry : String × String) : String :=
  Json.renderString entry.1 ++ ":" ++ Json.renderString entry.2

/-- The compact JSON text; empty metadata is left out. -/
def toJson (b : ErrorBody) : String :=
  let details :=
    if b.details.isEmpty then ""
    else ",\"meta\":\x7b" ++ ",".intercalate (b.details.map renderDetail) ++ "\x7d"
  "\x7b\"code\":" ++ Json.renderString b.code.word ++ ",\"msg\":" ++ Json.renderString b.msg ++
    details ++ "\x7d"

/-- A code is its word, or an object that maps its word to null. -/
def codeOf? : Json → Option ErrorCode
  | .string raw => (Json.rawString? raw).bind ErrorCode.ofWord?
  | .object [(key, .null)] => (Json.rawString? key).bind ErrorCode.ofWord?
  | _ => none

/-- Of two entries with one key the later counts. -/
def detailsFrom? (done : OrderedMap String String) :
    List (RawText × Json) → Option (OrderedMap String String)
  | [] => some done
  | (key, value) :: rest => do
    let key ← Json.rawString? key
    let value ← value.string?
    detailsFrom? (done.insert key value) rest

def detailsOf? : Json → Option (OrderedMap String String)
  | .object fields => detailsFrom? [] fields
  | _ => none

structure Fields where
  code : Option ErrorCode := none
  msg : Option String := none
  details : Option (OrderedMap String String) := none

/-- Reads fields in any order. A known field may occur once; others are passed over. -/
def fieldsFrom? (f : Fields) : List (RawText × Json) → Option Fields
  | [] => some f
  | (key, value) :: rest => do
    match ← Json.rawString? key with
    | "code" =>
      if f.code.isSome then none
      fieldsFrom? { f with code := some (← codeOf? value) } rest
    | "msg" =>
      if f.msg.isSome then none
      fieldsFrom? { f with msg := some (← value.string?) } rest
    | "meta" =>
      if f.details.isSome then none
      fieldsFrom? { f with details := some (← detailsOf? value) } rest
    | _ => fieldsFrom? f rest

def ofValue? : Json → Option ErrorBody
  | .object fields => do
    let f ← fieldsFrom? {} fields
    return ⟨← f.code, ← f.msg, f.details.getD []⟩
  | .array [code, msg] => do return ⟨← codeOf? code, ← msg.string?, []⟩
  | .array [code, msg, details] => do
    return ⟨← codeOf? code, ← msg.string?, ← detailsOf? details⟩
  | _ => none

def ofJson? (bytes : List UInt8) : Option ErrorBody :=
  (Json.parse? (Text.decodeUtf8 bytes)).bind ofValue?

end ErrorBody

end RpcStubs.Wire
