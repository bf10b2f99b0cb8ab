import RpcStubs.Text.Quoted
import RpcStubs.Text.Split

namespace RpcStubs.Wire

def defaultPrefix : String := "xservice"

def versionHeader : String := "XService-Version"

def contentTypeHeader : String := "Content-Type"

def invalidRouteMeta : String := "xservice_invalid_route"

def unsupportedMethodFormat : String := "unsupported method %q (only POST is allowed)"

def noHandlerFormat : String := "no handler for path %q"

def unexpectedContentTypeFormat : String := "unexpected Content-Type: %q"

def fillQuoted (value : List Char) : List Char → List Char
  | '%' :: 'q' :: rest => value ++ rest
  | c :: rest => c :: fillQuoted value rest
  | [] => []

def routingMessage (format value : String) : String :=
  String.ofList (fillQuoted (Text.quote value).toList format.toList)

def fullServiceName (package service : String) : String :=
  if package.isEmpty then service else package ++ "." ++ service

def pathPrefix (root fullName : String) : String := "/" ++ root ++ "/" ++ fullName ++ "/"

def methodPath (root fullName method : String) : String := pathPrefix root fullName ++ method

inductive ReservedHeader where
  | contentType
  | version
  deriving DecidableEq, Repr

def ReservedHeader.name : ReservedHeader → String
  | .contentType => contentTypeHeader
  | .version => versionHeader

def ReservedHeader.message (h : ReservedHeader) : String := "provided header cannot set " ++ h.name

/-- Equality up to the case of ASCII letters. -/
def sameHeader (a b : String) : Bool :=
  a.toList.map Char.toLower == b.toList.map Char.toLower

def reservedHeader? : List String → Option ReservedHeader
  | [] => none
  | name :: rest =>
    if sameHeader name contentTypeHeader then some .contentType
    else if sameHeader name versionHeader then some .version
    else reservedHeader? rest

end RpcStubs.Wire
