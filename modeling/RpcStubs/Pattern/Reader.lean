import RpcStubs.Pattern.Set
import RpcStubs.Text.Letter
import RpcStubs.Text.Split

namespace RpcStubs.Pattern

structure Reader where
  rest : List Char
  verbose : Bool := false
  names : List String := []

def flag? (c : Char) : Option Flag :=
  [('i', .caseless), ('m', .multiLine), ('s', .dotTakesNewline), ('U', .lazy), ('u', .unicode),
    ('R', .carriageReturn), ('x', .verbose)].lookup c

/-- Flags up to a colon or closing bracket, which is given too. Those after a dash are switched
off; no flag comes twice, and some flag follows the dash. -/
def flags? (changes : Flags) (on dangling : Bool) : List Char → Option (Flags × Char × List Char)
  | [] => none
  | c :: rest =>
    if c = ':' ∨ c = ')' then if dangling then none else some (changes, c, rest)
    else if c = '-' then if on then flags? changes false true rest else none
    else
      match flag? c with
      | some flag =>
        if (changes.lookup flag).isSome then none
        else flags? (changes ++ [(flag, on)]) on false rest
      | none => none

def isNameStart (c : Char) : Bool := c == '_' || Text.isLetter c

def isNamePart (c : Char) : Bool := ['_', '.', '[', ']'].contains c || Text.isLetterOrNumeric c

def groupName? (s : List Char) : Option (String × List Char) :=
  match Text.cutFirst '>' s with
  | some (c :: name, rest) =>
    if isNameStart c && name.all isNamePart then some (String.ofList (c :: name), rest) else none
  | _ => none

inductive Opening where
  | group (changes : Flags) (name : Option String)
  | flags (changes : Flags)

def opening? (s : List Char) : Option (Opening × List Char) :=
  match (Text.stripLead ['?', 'P', '<'] s).or (Text.stripLead ['?', '<'] s) with
  | some rest => (groupName? rest).map fun (name, rest) ↦ (.group [] name, rest)
  | none =>
    match s with
    | '?' :: rest =>
      match flags? [] true false rest with
      | some (changes, c, rest) =>
        if c = ':' then some (.group changes none, rest)
        else if changes.isEmpty then none
        else some (.flags changes, rest)
      | none => none
    | _ => some (.group [] none, s)

def primitive? (verbose : Bool) : List Char → Option (Pattern × List Char)
  | [] => none
  | '[' :: rest => set? verbose rest
  | '\\' :: rest => escape? verbose rest
  | '.' :: rest => some (.dot, rest)
  | '^' :: rest => some (.edge, rest)
  | '$' :: rest => some (.edge, rest)
  | c :: rest => some (.literal c false, rest)

/-- Flags cannot be repeated, and something has to be there. Nothing is repeated a given number of
times, since the closing brace would end the directive. -/
def repeatLast? : List Pattern → Option (List Pattern)
  | [] => none
  | .flags _ :: _ => none
  | p :: before => some (.repeated p :: before)

/-- A mark of repetition may have a question mark after it. -/
def dropLazy : List Char → List Char
  | '?' :: rest => rest
  | s => s

def Reader.add? (r : Reader) (name : Option String) : Option Reader :=
  match name with
  | some name => if r.names.contains name then none else some { r with names := name :: r.names }
  | none => some r

mutual

def choices? : (fuel : Nat) → Reader → Option (List Pattern × Reader)
  | 0, _ => none
  | fuel + 1, r =>
    match sequence? fuel [] r with
    | none => none
    | some (p, r) =>
      match r.rest with
      | '|' :: rest => (choices? fuel { r with rest }).map fun (ps, r) ↦ (p :: ps, r)
      | _ => some ([p], r)

/-- Parts that follow each other, up to a bar, a closing bracket or the end. The parts so far come
last first. -/
def sequence? : (fuel : Nat) → List Pattern → Reader → Option (Pattern × Reader)
  | 0, _, _ => none
  | fuel + 1, done, r =>
    let s := skip r.verbose r.rest
    match s with
    | [] => some (ofSequence done.reverse, { r with rest := s })
    | c :: rest =>
      if c = '|' ∨ c = ')' then some (ofSequence done.reverse, { r with rest := s })
      else if c = '(' then
        match group? fuel { r with rest } with
        | some (p, r) => sequence? fuel (p :: done) r
        | none => none
      else if c = '?' ∨ c = '*' ∨ c = '+' then
        match repeatLast? done with
        | some done => sequence? fuel done { r with rest := dropLazy rest }
        | none => none
      else if c = '\x7b' then none
      else
        match primitive? r.verbose s with
        | some (p, rest) => sequence? fuel (p :: done) { r with rest }
        | none => none

def group? : (fuel : Nat) → Reader → Option (Pattern × Reader)
  | 0, _ => none
  | fuel + 1, r =>
    match opening? (skip r.verbose r.rest) with
    | none => none
    | some (.flags changes, rest) =>
      some (.flags changes,
        { r with rest, verbose := (changes.lookup .verbose).getD r.verbose })
    | some (.group changes name, rest) =>
      match r.add? name with
      | none => none
      | some inner =>
        match choices? fuel
            { inner with rest, verbose := (changes.lookup .verbose).getD r.verbose } with
        | some (ps, ⟨')' :: rest, _, names⟩) =>
          some (.group changes (ofChoice ps), ⟨rest, r.verbose, names⟩)
        | _ => none

end

def parse? (s : List Char) : Option Pattern :=
  match choices? (3 * s.length + 3) { rest := s } with
  | some (ps, ⟨[], _, _⟩) => some (ofChoice ps)
  | _ => none

def accepts (s : List Char) : Bool := (parse? s).any usable

end RpcStubs.Pattern
