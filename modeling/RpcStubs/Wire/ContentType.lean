import RpcStubs.Text.Blank

namespace RpcStubs.Wire

inductive ContentType where
  | json
  | protobuf
  deriving DecidableEq, Repr

namespace ContentType

def all : List ContentType := [.json, .protobuf]

def word : ContentType → String
  | .json => "json"
  | .protobuf => "protobuf"

def ofWord? (s : String) : Option ContentType := all.find? (·.word == s)

def mediaType : ContentType → String
  | .json => "application/json"
  | .protobuf => "application/protobuf"

def clientSuffix : ContentType → String
  | .json => "JSON"
  | .protobuf => "Protobuffer"

/-- The media type named by a header: what stands before the first semicolon, trimmed, in lower
case. -/
def headerMedia (header : String) : String :=
  String.ofList ((Text.trim (header.toList.takeWhile (· ≠ ';'))).map Char.toLower)

def negotiate (header : String) : Option ContentType :=
  all.find? (·.mediaType == headerMedia header)

end ContentType

end RpcStubs.Wire
