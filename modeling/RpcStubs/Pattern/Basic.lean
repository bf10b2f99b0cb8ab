namespace RpcStubs

inductive CharSet where
  | single (c : Char)
  | range (first last : Char)
  | named (negated : Bool)
  | shorthand (negated : Bool)
  | property
  | bracketed (negated : Bool) (body : CharSet)
  | union (parts : List CharSet)
  | combined (left right : CharSet)
  deriving Repr, Inhabited

namespace Pattern

inductive Flag where
  | caseless
  | multiLine
  | dotTakesNewline
  | lazy
  | unicode
  | carriageReturn
  | verbose
  deriving DecidableEq, Repr

abbrev Flags := List (Flag × Bool)

end Pattern

inductive Pattern where
  | literal (c : Char) (byte : Bool)
  | dot
  | edge
  | wordEdge
  | shorthand (negated : Bool)
  | property
  | charSet (negated : Bool) (body : CharSet)
  | flags (changes : Pattern.Flags)
  | repeated (p : Pattern)
  | group (changes : Pattern.Flags) (p : Pattern)
  | choice (ps : List Pattern)
  | sequence (ps : List Pattern)
  deriving Repr, Inhabited

namespace CharSet

mutual

def depth : CharSet → Nat
  | bracketed _ body => body.depth + 1
  | union parts => if parts.isEmpty then 0 else depthOfAll parts + 1
  | combined left right => max left.depth right.depth + 1
  | _ => 0

def depthOfAll : List CharSet → Nat
  | [] => 0
  | part :: parts => max part.depth (depthOfAll parts)

end

def ofParts : List CharSet → CharSet
  | [part] => part
  | parts => union parts

end CharSet

namespace Pattern

mutual

def depth : Pattern → Nat
  | charSet _ body => body.depth + 1
  | repeated p => p.depth + 1
  | group _ p => p.depth + 1
  | choice ps => depthOfAll ps + 1
  | sequence ps => if ps.isEmpty then 0 else depthOfAll ps + 1
  | _ => 0

def depthOfAll : List Pattern → Nat
  | [] => 0
  | p :: ps => max p.depth (depthOfAll ps)

end

def ofSequence : List Pattern → Pattern
  | [p] => p
  | ps => sequence ps

def ofChoice : List Pattern → Pattern
  | [p] => p
  | ps => choice ps

def maxDepth : Nat := 250

end Pattern

structure MatchMode where
  unicode : Bool := true
  caseless : Bool := false
  deriving DecidableEq, Repr

def MatchMode.apply (m : MatchMode) (changes : Pattern.Flags) : MatchMode where
  unicode := (changes.lookup .unicode).getD m.unicode
  caseless := (changes.lookup .caseless).getD m.caseless

/-- Whether a character can stand in a set. By bytes that is ASCII; by characters it is every one,
unless its other cases would have to be known. -/
def MatchMode.takes (m : MatchMode) (c : Char) : Bool :=
  if m.unicode then !m.caseless else c.toNat < 0x80

namespace CharSet

mutual

/-- A set of bytes keeps to ASCII, so it is not the complement of another. -/
def fits (m : MatchMode) : CharSet → Bool
  | single c => m.takes c
  | range _ last => m.takes last
  | named negated => if m.unicode then !m.caseless else !negated
  | shorthand negated => !m.unicode && !negated
  | property => false
  | bracketed negated body => (m.unicode || !negated) && body.fits m
  | union parts => allFit m parts
  | combined left right => left.fits m && right.fits m

def allFit (m : MatchMode) : List CharSet → Bool
  | [] => true
  | part :: parts => part.fits m && allFit m parts

end

end CharSet

namespace Pattern

mutual

/-- The mode after a pattern, if it can be matched. Flags last to the end of the group. -/
def after? (m : MatchMode) : Pattern → Option MatchMode
  | literal c byte =>
    if if m.unicode then m.caseless else byte && 0x80 ≤ c.toNat then none else some m
  | dot => if m.unicode then some m else none
  | edge => some m
  | wordEdge => if m.unicode then none else some m
  | shorthand negated => if (CharSet.shorthand negated).fits m then some m else none
  | property => none
  | charSet negated body => if (CharSet.bracketed negated body).fits m then some m else none
  | flags changes => some (m.apply changes)
  | repeated p => p.after? m
  | group changes p => (p.after? (m.apply changes)).map fun _ ↦ m
  | choice ps => afterAll? m ps
  | sequence ps => afterAll? m ps

def afterAll? (m : MatchMode) : List Pattern → Option MatchMode
  | [] => some m
  | p :: ps =>
    match p.after? m with
    | some m => afterAll? m ps
    | none => none

end

/-- Whether a pattern can be matched byte by byte over valid UTF-8, where neither properties of
characters nor case beyond ASCII are known. -/
def usable (p : Pattern) : Bool := p.depth ≤ maxDepth && (p.after? {}).isSome

end Pattern

end RpcStubs
