import RpcStubs.Log.Event
import RpcStubs.Pattern.Reader
import RpcStubs.Text.Letter
import RpcStubs.Text.Split
import RpcStubs.Text.Utf8

namespace RpcStubs

structure FieldMatch where
  name : String
  valued : Bool
  deriving DecidableEq, Repr

structure Directive where
  target : String
  level : LogLevel
  span : Option String := none
  field : Option FieldMatch := none
  deriving DecidableEq, Repr

namespace Directive

def numbered : List LogLevel := [.off, .error, .warn, .info, .debug, .trace]

def number? (s : List Char) : Option Nat :=
  let digits := (Text.stripLead ['+'] s).getD s
  if digits.isEmpty ∨ !digits.all Char.isDigit then none
  else some (digits.foldl (fun n c ↦ 10 * n + (c.toNat - 48)) 0)

def level? (s : List Char) : Option LogLevel :=
  match number? s with
  | some n => numbered[n]?
  | none => numbered.find? fun level ↦ level.name.toList == s.map Char.toUpper

def isExponent : List Char → Bool
  | [] => true
  | e :: s =>
    let digits := match s with
      | '+' :: digits => digits
      | '-' :: digits => digits
      | digits => digits
    (e == 'e' || e == 'E') && !digits.isEmpty && digits.all Char.isDigit

def isDecimal (s : List Char) : Bool :=
  let whole := s.takeWhile Char.isDigit
  match s.drop whole.length with
  | '.' :: rest =>
    let places := rest.takeWhile Char.isDigit
    !(whole.isEmpty && places.isEmpty) && isExponent (rest.drop places.length)
  | rest => !whole.isEmpty && isExponent rest

def isNumber (s : List Char) : Bool :=
  let unsigned := match s with
    | '+' :: rest => rest
    | '-' :: rest => rest
    | rest => rest
  isDecimal unsigned ||
    ["inf", "infinity", "nan"].contains (String.ofList (unsigned.map Char.toLower))

/-- The name of a field, possibly with a value behind an equals sign: a number or a pattern. What
a second equals sign divides off does not count. -/
def field? (s : List Char) : Option FieldMatch :=
  match Text.pieces '=' s with
  | [] => none
  | [name] => some ⟨String.ofList name, false⟩
  | name :: value :: _ =>
    if isNumber value || Pattern.accepts value then some ⟨String.ofList name, true⟩ else none

def byteLength (s : List Char) : Nat := s.foldl (fun n c ↦ n + c.utf8Size) 0

def cut? (text : List Char) (start size : Nat) : Option (List Char) :=
  let bytes := Text.utf8Bytes (String.ofList text)
  (Text.utf8? ((bytes.drop start).take size)).map String.toList

/-- The level at the end of a directive; without one everything passes. Only a directive without
blanks around it can end in a level. -/
def finalLevel? (tight : Bool) : List Char → Option LogLevel
  | [] => some .trace
  | '=' :: level =>
    if !tight then none else if level.isEmpty then some .trace else level? level
  | _ => none

def isTargetStart (c : Char) : Bool := ['-', ':', '_'].contains c || Text.isLetterOrNumeric c

/-- Reads a directive that is not only one word. Its parts are found in the trimmed text `s` and
then cut at the same positions from the whole `piece`. -/
def structured? (piece s : List Char) : Option Directive := do
  let target := s.takeWhile fun c ↦ c ≠ '=' && c ≠ '['
  let prefixed := String.ofList (← cut? piece 0 (byteLength target))
  match s.drop target.length with
  | '[' :: rest =>
    let name := rest.takeWhile fun c ↦ c ≠ ']' && c ≠ '\x7b'
    let start := byteLength target + 1
    let span := String.ofList (← cut? piece start (byteLength name))
    match rest.drop name.length with
    | ']' :: rest => return ⟨prefixed, ← finalLevel? (s = piece) rest, some span, none⟩
    | '\x7b' :: rest =>
      match Text.cutFirst '\x7d' rest with
      | some (field, ']' :: rest) =>
        if field.isEmpty then none
        let field ← field? (← cut? piece (start + byteLength name + 1) (byteLength field))
        let span := if name.isEmpty then none else some span
        return ⟨prefixed, ← finalLevel? (s = piece) rest, span, some field⟩
      | _ => none
    | _ => none
  | rest => return ⟨prefixed, ← finalLevel? (s = piece) rest, none, none⟩

def ofWord (s : List Char) : Directive :=
  match level? s with
  | some level => ⟨"", level, none, none⟩
  | none => ⟨String.ofList s, .trace, none, none⟩

def parse? (piece : List Char) : Option Directive :=
  let s := Text.trim piece
  match s.head? with
  | none => none
  | some c =>
    if c ≠ '[' ∧ !isTargetStart c then none
    else if s.contains '=' ∨ s.contains '[' then structured? piece s
    else some (ofWord piece)

/-- Whether a directive is about an event. No event is inside a span, so directives about spans let
nothing through. -/
def covers (d : Directive) (e : Event) : Bool :=
  d.span.isNone && d.target.toList.isPrefixOf e.target.toList &&
    d.field.all fun f ↦ !f.valued && e.fieldNames.contains f.name

/-- Whether a directive is more specific than another: by the length of its target, then by having
a field, then by the name of the field. -/
def outranks (d other : Directive) : Bool :=
  let name (d : Directive) : String := (d.field.map FieldMatch.name).getD ""
  if d.target.length ≠ other.target.length then other.target.length < d.target.length
  else if d.field.isSome ≠ other.field.isSome then d.field.isSome
  else name other < name d

def prefer : Option Directive → Directive → Option Directive
  | none, d => some d
  | some best, d => if best.outranks d then some best else some d

def deciding? (ds : List Directive) (e : Event) : Option Directive :=
  (ds.filter (·.covers e)).foldl prefer none

/-- Events that no directive covers are silent. -/
def allow (ds : List Directive) (e : Event) : Bool :=
  match deciding? ds e with
  | some d => d.level.admits e.level
  | none => false

end Directive

inductive FilterSetting where
  | unset
  | directives (ds : List Directive)
  | rejected
  deriving DecidableEq, Repr

/-- Directives stand between commas; blank text is no setting. -/
def FilterSetting.parse : Option String → FilterSetting
  | none => .unset
  | some text =>
    let s := Text.trim text.toList
    if s.isEmpty then .unset
    else
      match ((Text.pieces ',' s).filter (!·.isEmpty)).mapM Directive.parse? with
      | some ds => .directives ds
      | none => .rejected

end RpcStubs
