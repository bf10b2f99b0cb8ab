import RpcStubs.Failure
import RpcStubs.Code.Layout.Columns

namespace RpcStubs.Layout

open Text

def outdents (trimmed : List Char) : Bool :=
  trimmed.head?.any isClosing || startsCase trimmed || startsDefault trimmed

def Line.indent (l : Line) (trimmed : List Char) : Nat :=
  if outdents trimmed then l.depth - 1 else l.depth

def Line.indented (l : Line) : Option (List Char) :=
  if l.verbatim then some l.text
  else
    let trimmed := trim l.text
    if trimmed.isEmpty then none
    else some (List.replicate (l.indent trimmed) '\t' ++ trimmed)

def arrange (lines : List Line) : List (Option (List Char)) :=
  List.zipWith (fun (l : Line) aligned ↦ aligned.or l.indented) lines
    (alignSlots [] (lines.map Line.slot))

def endsOpen (text : List Char) : Bool :=
  text.getLast?.any fun c ↦ c == '\x7b' || c == '('

def startsClosed (text : List Char) : Bool :=
  (trimStart text).head?.any fun c ↦ c == '\x7d' || c == ')'

def nextText (rest : List (Option (List Char))) : Option (List Char) :=
  rest.findSome? id

/-- Whether a blank line is kept after `previous` and before `rest`. -/
def keepsBlank (previous : Option (List Char)) (rest : List (Option (List Char))) : Bool :=
  match previous, nextText rest with
  | some p, some n => !p.isEmpty && !endsOpen p && !startsClosed n
  | _, _ => false

/-- One blank line is kept between lines, none at the ends or inside the edges of a bracket. -/
def tidy (previous : Option (List Char)) : List (Option (List Char)) → List (List Char)
  | [] => []
  | some text :: rest => text :: tidy (some text) rest
  | none :: rest =>
    if keepsBlank previous rest then [] :: tidy (some []) rest else tidy previous rest

def layOut (lines : List Line) : List Char :=
  List.intercalate ['\n'] (tidy none (arrange lines)) ++ ['\n']

def formatChars (source : List Char) : Except Fault (List Char) :=
  (nest source).map layOut

/-- Lays out a complete file. The result ends in a newline; a failure carries the source. -/
def format (source : String) : Build String :=
  match formatChars source.toList with
  | .ok text => .ok (String.ofList text)
  | .error fault => .error (.format fault.message source)

def formatFragment (source : String) : Build String :=
  (format source).map fun text ↦ String.ofList (trim text.toList)

end RpcStubs.Layout
