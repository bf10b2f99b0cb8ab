import RpcStubs.Schema.Shape

namespace RpcStubs.Schema

open Proto

structure Message where
  name : String
  nested : List Message
  deriving Repr, Inhabited, BEq

structure Method where
  name : String
  input : String
  output : String
  deriving Repr, Inhabited, DecidableEq

structure Service where
  name : String
  methods : List Method
  deriving Repr, Inhabited, DecidableEq

/-- Where a declaration stands in its file: field numbers and positions in turn. -/
abbrev Path := List Int

structure File where
  name : String
  package : String
  goPackage : String
  messages : List Message
  services : List Service
  /-- Leading comments by the path of what they document; of two for one path the later counts. -/
  comments : List (Path × String)
  /-- The whole descriptor without its source info. -/
  descriptor : Fields
  deriving Repr, Inhabited

mutual

def messageOf? : Value → Option Message
  | .message fields => some ⟨(Fields.text? fields 1).getD "", messagesOf 3 fields⟩
  | _ => none

def messagesOf (number : Nat) : List (Nat × Value) → List Message
  | [] => []
  | (n, value) :: rest =>
    if n = number then (messageOf? value).toList ++ messagesOf number rest
    else messagesOf number rest

end

def methodOf (m : Fields) : Method :=
  ⟨(m.text? 1).getD "", (m.text? 2).getD "", (m.text? 3).getD ""⟩

def serviceOf (s : Fields) : Service :=
  ⟨(s.text? 1).getD "", (s.messages 2).map methodOf⟩

def commentOf? (location : Fields) : Option (Path × String) :=
  (location.text? 3).map fun text ↦ ((location.packed 1).map signed, text)

def commentsOf (file : Fields) : List (Path × String) :=
  match file.message? 9 with
  | some info => (info.messages 1).filterMap commentOf?
  | none => []

def File.ofDescriptor (f : Fields) : File where
  name := (f.text? 1).getD ""
  package := (f.text? 2).getD ""
  goPackage := ((f.message? 8).bind (·.text? 11)).getD ""
  messages := messagesOf 4 f
  services := (f.messages 6).map serviceOf
  comments := commentsOf f
  descriptor := f.erase 9

end RpcStubs.Schema
