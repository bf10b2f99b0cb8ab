import RpcStubs.Proto.RawField
import RpcStubs.Text.Utf8

namespace RpcStubs.Proto

inductive Value where
  /-- An integer, enumeration value or truth value, as its 64 bit pattern. -/
  | int (n : Nat)
  /-- A floating point number, as its 64 bit pattern. -/
  | double (bits : Nat)
  | text (s : String)
  | bytes (data : List UInt8)
  | packed (ns : List Nat)
  | message (fields : List (Nat × Value))
  deriving Repr, BEq, Inhabited

/-- Fields by ascending number; repeated fields keep their order. -/
abbrev Fields := List (Nat × Value)

def key (number wireType : Nat) : List UInt8 := varint (number * 8 + wireType)

def delimited (number : Nat) (data : List UInt8) : List UInt8 :=
  key number 2 ++ varint data.length ++ data

def toLittleEndian : (size : Nat) → Nat → List UInt8
  | 0, _ => []
  | size + 1, n => n.toUInt8 :: toLittleEndian size (n / 256)

mutual

def Value.encode (number : Nat) : Value → List UInt8
  | .int n => key number 0 ++ varint n
  | .double bits => key number 1 ++ toLittleEndian 8 bits
  | .text s => delimited number (Text.utf8Bytes s)
  | .bytes data => delimited number data
  | .packed ns => if ns.isEmpty then [] else delimited number (ns.flatMap varint)
  | .message fields => delimited number (encodeFields fields)

def encodeFields : List (Nat × Value) → List UInt8
  | [] => []
  | (number, value) :: rest => value.encode number ++ encodeFields rest

end

inductive Scalar where
  | text
  | bytes
  | bool
  /-- Also enumerations: numbers without a name are kept. -/
  | int32
  | int64
  | double
  deriving DecidableEq, Repr

inductive Label where
  | optional
  /-- Written even when it was not read. -/
  | required
  | repeated
  | packed
  deriving DecidableEq, Repr

inductive Kind (τ : Type) where
  | scalar (s : Scalar)
  | message (type : τ)

structure FieldSpec (τ : Type) where
  number : Nat
  label : Label
  kind : Kind τ

/-- A 32 bit integer is the low half of what was sent, with its sign extended. -/
def narrow (n : Nat) : Nat :=
  let low := n % 0x100000000
  if low < 0x80000000 then low else low + 0xFFFFFFFF00000000

def Scalar.ofVarint (s : Scalar) (n : Nat) : Nat :=
  match s with
  | .bool => if n = 0 then 0 else 1
  | .int32 => narrow n
  | _ => n

def Scalar.default : Scalar → Value
  | .text => .text ""
  | .bytes => .bytes []
  | .double => .double 0
  | .bool | .int32 | .int64 => .int 0

def varints? : (fuel : Nat) → List UInt8 → Option (List Nat)
  | _, [] => some []
  | 0, _ :: _ => none
  | fuel + 1, bytes =>
    match varint? bytes with
    | some (n, rest) => (varints? fuel rest).map (n :: ·)
    | none => none

def Scalar.value? (s : Scalar) : Payload → Option Value
  | .varint n =>
    match s with
    | .bool | .int32 | .int64 => some (.int (s.ofVarint n))
    | _ => none
  | .fixed64 n => if s = .double then some (.double n) else none
  | .bytes data =>
    match s with
    | .text => (Text.utf8? data).map .text
    | .bytes => some (.bytes data)
    | _ => none
  | _ => none

/-- Repeated integers may come one by one or packed. -/
def Scalar.values? (s : Scalar) (payload : Payload) : Option (List Value) :=
  match s, payload with
  | .bool, .bytes data | .int32, .bytes data | .int64, .bytes data =>
    (varints? data.length data).map fun ns ↦ ns.map fun n ↦ .int (s.ofVarint n)
  | _, _ => (s.value? payload).map fun v ↦ [v]

def intOf : Value → Nat
  | .int n => n
  | _ => 0

/-- The value of a field from all its payloads in order: the last of an optional one counts. -/
def scalarField? (label : Label) (s : Scalar) (payloads : List Payload) : Option (List Value) :=
  match label with
  | .optional => do
    let values ← payloads.mapM s.value?
    return values.getLast?.toList
  | .required => do
    let values ← payloads.mapM s.value?
    return [values.getLast?.getD s.default]
  | .repeated => do
    let values ← payloads.mapM s.values?
    return values.flatten
  | .packed => do
    let values ← payloads.mapM s.values?
    return if values.flatten.isEmpty then [] else [.packed (values.flatten.map intOf)]

def dataOf? : Payload → Option (List UInt8)
  | .bytes data => some data
  | _ => none

variable {τ : Type}

def payloadsOf (number : Nat) (raw : List RawField) : List Payload :=
  (raw.filter (·.number == number)).map (·.payload)

def skippable (specs : List (FieldSpec τ)) (raw : List RawField) : Bool :=
  raw.all fun f ↦ specs.any (·.number == f.number)

/-- The known fields of a message by the specification of its type. Messages inside it nest at most
`depth` deep. Payloads of one optional message are merged field by field. -/
def interpret? (shape : τ → List (FieldSpec τ)) : (depth : Nat) → τ → List RawField → Option Fields
  | 0, type, raw =>
    if !skippable (shape type) raw then none
    else do
      let fields ← (shape type).mapM fun spec ↦ do
        let payloads := payloadsOf spec.number raw
        let values ← match spec.kind with
          | .scalar s => scalarField? spec.label s payloads
          | .message _ => if payloads.isEmpty then some [] else none
        pure (values.map fun v ↦ (spec.number, v))
      pure fields.flatten
  | depth + 1, type, raw => do
    let fields ← (shape type).mapM fun spec ↦ do
      let payloads := payloadsOf spec.number raw
      let values ← match spec.kind with
        | .scalar s => scalarField? spec.label s payloads
        | .message inner => do
          let parts ← payloads.mapM fun p ↦ (dataOf? p).bind (rawFields? depth)
          let groups := if spec.label = .repeated || parts.isEmpty then parts else [parts.flatten]
          groups.mapM fun part ↦ (interpret? shape depth inner part).map Value.message
      pure (values.map fun v ↦ (spec.number, v))
    pure fields.flatten

def maxDepth : Nat := 100

def decode? (shape : τ → List (FieldSpec τ)) (type : τ) (bytes : List UInt8) : Option Fields := do
  interpret? shape maxDepth type (← rawFields? maxDepth bytes)

namespace Fields

def get? (fields : Fields) (number : Nat) : Option Value := fields.lookup number

def getAll (fields : Fields) (number : Nat) : List Value :=
  fields.filterMap fun (n, v) ↦ if n = number then some v else none

def text? (fields : Fields) (number : Nat) : Option String :=
  match fields.get? number with
  | some (.text s) => some s
  | _ => none

def texts (fields : Fields) (number : Nat) : List String :=
  (fields.getAll number).filterMap fun
    | .text s => some s
    | _ => none

def int? (fields : Fields) (number : Nat) : Option Nat :=
  match fields.get? number with
  | some (.int n) => some n
  | _ => none

def message? (fields : Fields) (number : Nat) : Option Fields :=
  match fields.get? number with
  | some (.message m) => some m
  | _ => none

def messages (fields : Fields) (number : Nat) : List Fields :=
  (fields.getAll number).filterMap fun
    | .message m => some m
    | _ => none

def packed (fields : Fields) (number : Nat) : List Nat :=
  match fields.get? number with
  | some (.packed ns) => ns
  | _ => []

def erase (fields : Fields) (number : Nat) : Fields := fields.filter fun (n, _) ↦ n ≠ number

end Fields

def signed (n : Nat) : Int :=
  if n < 0x8000000000000000 then n else (n : Int) - 0x10000000000000000

def unsigned (i : Int) : Nat := (i % 0x10000000000000000).toNat

end RpcStubs.Proto
