import RpcStubs.Code.Identifier
import RpcStubs.Code.Layout.Line

namespace RpcStubs.Layout

open Text

inductive Cells where
  | field (name type : List Char) (tag : Option (List Char))
  | keyed (key value : List Char)
  deriving DecidableEq, Repr

def cutTag : List Char → Option (List Char × List Char)
  | [] => none
  | c :: rest =>
    if c = ' ' && rest.head? = some '\x60' then some ([], c :: rest)
    else (cutTag rest).map fun (before, tag) ↦ (c :: before, tag)

def fieldCells? (trimmed : List Char) : Option Cells :=
  match cutFirst ' ' trimmed with
  | none => none
  | some (name, rest) =>
    let rest := trimStart rest
    if !isWord name || rest.isEmpty then none
    else
      match cutTag rest with
      | some (type, tag) => some (.field name (trimEnd type) (some (trimStart tag)))
      | none => some (.field name rest none)

def keyedCells? (trimmed : List Char) : Option Cells :=
  match cutFirst ':' trimmed with
  | none => none
  | some (key, value) =>
    let value := trimStart value
    if !isWord key || value.isEmpty || value.head? = some '=' then none
    else some (.keyed key value)

def isCommentText (trimmed : List Char) : Bool := "//".toList.isPrefixOf trimmed

def Line.cells? (l : Line) : Option Cells :=
  if l.verbatim || !l.balanced || isCommentText (trim l.text) then none
  else
    match l.enclosing with
    | some .struct => fieldCells? (trim l.text)
    | some .literal => keyedCells? (trim l.text)
    | _ => none

namespace Cells

def leadWidth : Cells → Nat
  | .field name _ _ => name.length
  | .keyed key _ => key.length + 1

def taggedTypeWidth? : Cells → Option Nat
  | .field _ type (some _) => some type.length
  | _ => none

end Cells

def pad (text : List Char) (width : Nat) : List Char :=
  text ++ List.replicate (width - text.length + 1) ' '

def maxOf (widths : List Nat) : Nat := widths.foldl max 0

def tagStretch : List Cells → List Nat
  | [] => []
  | c :: rest =>
    match c.taggedTypeWidth? with
    | some width => width :: tagStretch rest
    | none => []

/-- A line within its run: `before` is nearest first. -/
def alignCells (before after : List Cells) (c : Cells) : List Char :=
  let lead := maxOf ((before ++ c :: after).map Cells.leadWidth)
  match c with
  | .field name type (some tag) =>
    pad name lead ++ pad type (maxOf (tagStretch before ++ tagStretch (c :: after))) ++ tag
  | .field name type none => pad name lead ++ type
  | .keyed key value => pad (key ++ [':']) lead ++ value

inductive Slot where
  | comment
  | cells (depth : Nat) (cells : Cells)
  | other
  deriving DecidableEq, Repr

def Line.slot (l : Line) : Slot :=
  if isCommentText (trim l.text) && !l.verbatim then .comment
  else
    match l.cells? with
    | some cells => .cells l.depth cells
    | none => .other

/-- The lines of the same run in one direction, nearest first; comments on lines of their own do not
interrupt it. -/
def runFrom (depth : Nat) : List Slot → List Cells
  | .comment :: rest => runFrom depth rest
  | .cells d c :: rest => if d = depth then c :: runFrom depth rest else []
  | .other :: _ => []
  | [] => []

def alignSlot (before after : List Slot) : Slot → Option (List Char)
  | .cells depth c =>
    let above := runFrom depth before
    let below := runFrom depth after
    if above.isEmpty && below.isEmpty then none
    else some (List.replicate depth '\t' ++ alignCells above below c)
  | _ => none

def alignSlots (before : List Slot) : List Slot → List (Option (List Char))
  | [] => []
  | s :: rest => alignSlot before rest s :: alignSlots (s :: before) rest

end RpcStubs.Layout
