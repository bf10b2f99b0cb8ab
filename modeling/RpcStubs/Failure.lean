import RpcStubs.Text.Quoted

namespace RpcStubs

/-- Why a step of generation failed. A failure inside a named builder is wrapped by `within`. -/
inductive Failure where
  | invalidIdentifier (ident reason : String)
  | missingField (builder field : String)
  | missingPackage
  | invalidFileName (name : String)
  | conflictingPackageName (setting first second : String)
  | unknownMessage (name : String)
  | unknownFile (name : String)
  | emptyComment
  | invalidOperator (op scope : String)
  | format (reason source : String)
  | invariantViolation (detail : String)
  | within (builder : String) (cause : Failure)
  | encode (detail : String)
  | config (detail : String)
  deriving DecidableEq, Repr

abbrev Build := Except Failure

namespace Failure

def sourceBanner : String :=
  "||||||||||||||||||||||||||||||||||||||| source code |||||||||||||||||||||||||||||||||||||||"

def message : Failure → String
  | .invalidIdentifier ident reason => "invalid identifier " ++ Text.quote ident ++ ": " ++ reason
  | .missingField builder field => builder ++ ": " ++ field ++ " is missing"
  | .missingPackage => "package of go file is missing"
  | .invalidFileName name => "invalid output file name " ++ Text.quote name
  | .conflictingPackageName setting first second =>
    "files have conflicting " ++ setting ++ ": " ++ Text.quote first ++ " and " ++ Text.quote second
  | .unknownMessage name => "could not find message for " ++ name
  | .unknownFile name =>
    "file to generate " ++ Text.quote name ++ " is not among the input files"
  | .emptyComment => "comment is empty"
  | .invalidOperator op scope => "operation is invalid in " ++ scope ++ " scope (" ++ op ++ ")"
  | .format reason source =>
    "while formatting the source code an error occurred (" ++ reason ++ ")\n" ++ sourceBanner ++
      "\n" ++ source ++ "\n" ++ sourceBanner
  | .invariantViolation detail => "internal invariant violated: " ++ detail
  | .within builder cause => builder ++ ": " ++ cause.message
  | .encode detail => "descriptor encoding failed: " ++ detail
  | .config detail => "configuration error: " ++ detail

def root : Failure → Failure
  | .within _ cause => cause.root
  | other => other

def code : Failure → Nat
  | .invalidIdentifier .. => 1
  | .missingField .. => 2
  | .missingPackage => 3
  | .invalidFileName _ => 4
  | .conflictingPackageName .. => 5
  | .unknownMessage _ => 6
  | .unknownFile _ => 7
  | .emptyComment => 8
  | .invalidOperator .. => 9
  | .format .. => 10
  | .invariantViolation _ => 11
  | .within _ cause => cause.code
  | .encode _ => 12
  | .config _ => 13

def isConstruction (f : Failure) : Bool :=
  match f.root with
  | .invalidIdentifier .. | .missingField .. | .missingPackage | .invalidFileName _
  | .invalidOperator .. => true
  | _ => false

def isResolution (f : Failure) : Bool :=
  match f.root with
  | .conflictingPackageName .. | .unknownMessage _ | .unknownFile _ => true
  | _ => false

def isFormat (f : Failure) : Bool :=
  match f.root with
  | .format .. => true
  | _ => false

end Failure

def Build.inBuilder {α : Type} (builder : String) (x : Build α) : Build α :=
  x.mapError (.within builder)

end RpcStubs
