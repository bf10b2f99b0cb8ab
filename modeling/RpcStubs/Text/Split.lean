namespace RpcStubs.Text

/-- The pieces between the separators: always at least one, and one more than there are
separators. -/
def pieces (sep : Char) : List Char → List (List Char)
  | [] => [[]]
  | c :: rest =>
    if c = sep then [] :: pieces sep rest
    else
      match pieces sep rest with
      | p :: ps => (c :: p) :: ps
      | [] => [[c]]

def cutFirst (sep : Char) : List Char → Option (List Char × List Char)
  | [] => none
  | c :: rest =>
    if c = sep then some ([], rest)
    else (cutFirst sep rest).map fun (before, after) ↦ (c :: before, after)

def cutLast (sep : Char) (s : List Char) : Option (List Char × List Char) :=
  (cutFirst sep s.reverse).map fun (after, before) ↦ (before.reverse, after.reverse)

def afterLast (sep : Char) (s : List Char) : List Char :=
  match cutLast sep s with
  | some (_, after) => after
  | none => s

def dropCarriageReturn (line : List Char) : List Char :=
  match line.getLast? with
  | some '\r' => line.dropLast
  | _ => line

/-- Lines end in a newline, which a carriage return may precede. Text after the last newline is a
line of its own unless it is empty. -/
def lines (s : List Char) : List (List Char) :=
  match (pieces '\n' s).reverse with
  | last :: ended =>
    let ended := ended.reverse.map dropCarriageReturn
    if last.isEmpty then ended else ended ++ [last]
  | [] => []

def stripLead (lead s : List Char) : Option (List Char) :=
  if lead.isPrefixOf s then some (s.drop lead.length) else none

def dropLeadingSpace : List Char → List Char
  | ' ' :: rest => rest
  | line => line

variable {α : Type}

/-- `current` is the group so far, last first, with room for `room` more. -/
def chunksFrom (size room : Nat) (current : List α) : List α → List (List α)
  | [] => if current.isEmpty then [] else [current.reverse]
  | a :: rest =>
    match room with
    | 0 => current.reverse :: chunksFrom size (size - 1) [a] rest
    | room + 1 => chunksFrom size room (a :: current) rest

def chunks (size : Nat) (l : List α) : List (List α) := chunksFrom size size [] l

end RpcStubs.Text
