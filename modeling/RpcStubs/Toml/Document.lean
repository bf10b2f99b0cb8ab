import RpcStubs.Toml.Text

namespace RpcStubs.Toml

mutual

def value? : (fuel : Nat) → List Char → Option (Value × List Char)
  | 0, _ => none
  | fuel + 1, s =>
    match s with
    | '[' :: rest => (items? fuel rest).map fun (items, rest) ↦ (.array items, rest)
    | '\x7b' :: rest =>
      match entries? fuel rest with
      | some (entries, rest) => (putAll? [] entries).map fun table ↦ (.table .inline table, rest)
      | none => none
    | _ => (string? s).map fun (text, rest) ↦ (.string (String.ofList text), rest)

def items? : (fuel : Nat) → List Char → Option (List Value × List Char)
  | 0, _ => none
  | fuel + 1, s =>
    match skipLines s.length s with
    | ']' :: rest => some ([], rest)
    | s =>
      match value? fuel s with
      | none => none
      | some (item, rest) =>
        match skipLines rest.length rest with
        | ',' :: rest => (items? fuel rest).map fun (items, rest) ↦ (item :: items, rest)
        | ']' :: rest => some ([item], rest)
        | _ => none

def entries? : (fuel : Nat) → List Char → Option (List Entry × List Char)
  | 0, _ => none
  | fuel + 1, s =>
    match skipLines s.length s with
    | '\x7d' :: rest => some ([], rest)
    | s =>
      match assignment? fuel s with
      | none => none
      | some (entry, rest) =>
        match skipLines rest.length rest with
        | ',' :: rest => (entries? fuel rest).map fun (entries, rest) ↦ (entry :: entries, rest)
        | '\x7d' :: rest => some ([entry], rest)
        | _ => none

def assignment? : (fuel : Nat) → List Char → Option (Entry × List Char)
  | 0, _ => none
  | fuel + 1, s =>
    match key? (s.length + 1) s with
    | some (key, '=' :: rest) =>
      (value? fuel (skipSpace rest)).map fun (value, rest) ↦ ((key, value), rest)
    | _ => none

end

/-- A key between single or double brackets. No space divides the two of a pair. -/
def header? : List Char → Option (Header × List Char)
  | '[' :: '[' :: s =>
    match key? (s.length + 1) s with
    | some (key, ']' :: ']' :: rest) => some (⟨key, true⟩, rest)
    | _ => none
  | '[' :: s =>
    match key? (s.length + 1) s with
    | some (key, ']' :: rest) => some (⟨key, false⟩, rest)
    | _ => none
  | _ => none

inductive Line where
  | header (h : Header)
  | entry (e : Entry)

def line? (s : List Char) : Option (Line × List Char) :=
  match s with
  | '[' :: _ => (header? s).map fun (h, rest) ↦ (.header h, rest)
  | _ => (assignment? (s.length + 2) s).map fun (e, rest) ↦ (.entry e, rest)

def lines? : (fuel : Nat) → List Char → Option (List Line)
  | 0, _ => none
  | fuel + 1, s =>
    match skipLines s.length s with
    | [] => some []
    | s =>
      match line? s with
      | none => none
      | some (line, rest) =>
        match skipToLineEnd rest with
        | [] => some [line]
        | rest =>
          match newline? rest with
          | some rest => (lines? fuel rest).map (line :: ·)
          | none => none

def sections : List Line → List Entry × List (Header × List Entry)
  | [] => ([], [])
  | .entry e :: rest => (e :: (sections rest).1, (sections rest).2)
  | .header h :: rest => ([], (h, (sections rest).1) :: (sections rest).2)

def ofLines? (lines : List Line) : Option Table := do
  let (entries, rest) := sections lines
  rest.foldlM putSection? (← putAll? [] entries)

/-- Reads a document of strings, arrays and tables; a byte order mark may come first. Other
values are refused, since no configuration has a use for them. -/
def parse? (text : String) : Option Table :=
  let s := match text.toList with
    | '\ufeff' :: rest => rest
    | s => s
  (lines? (s.length + 1) s).bind ofLines?

end RpcStubs.Toml
