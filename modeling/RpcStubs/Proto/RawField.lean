import RpcStubs.Proto.Varint

namespace RpcStubs.Proto

inductive Payload where
  | varint (n : Nat)
  | fixed64 (n : Nat)
  | bytes (data : List UInt8)
  | group
  | fixed32 (n : Nat)
  deriving Repr

structure RawField where
  number : Nat
  payload : Payload
  deriving Repr

/-- A field's number and wire type. Keys have 32 bits, and no field has the number 0. -/
def key? (bytes : List UInt8) : Option (Nat × Nat × List UInt8) :=
  match varint? bytes with
  | some (key, rest) =>
    if key < 0x100000000 ∧ 8 ≤ key then some (key / 8, key % 8, rest) else none
  | none => none

def splitAt? (n : Nat) (bytes : List UInt8) : Option (List UInt8 × List UInt8) :=
  if n ≤ bytes.length then some (bytes.take n, bytes.drop n) else none

def littleEndian (bytes : List UInt8) : Nat := bytes.foldr (fun b n ↦ b.toNat + 256 * n) 0

def simplePayload? (wireType : Nat) (bytes : List UInt8) : Option (Payload × List UInt8) :=
  match wireType with
  | 0 => (varint? bytes).map fun (n, rest) ↦ (.varint n, rest)
  | 1 => (splitAt? 8 bytes).map fun (data, rest) ↦ (.fixed64 (littleEndian data), rest)
  | 2 => do
    let (size, rest) ← varint? bytes
    let (data, rest) ← splitAt? size rest
    return (.bytes data, rest)
  | 5 => (splitAt? 4 bytes).map fun (data, rest) ↦ (.fixed32 (littleEndian data), rest)
  | _ => none

/-- Skips a group up to its end marker; groups inside it nest at most `depth` deep. The fuel bounds
the number of fields. -/
def skipGroup? : (fuel depth number : Nat) → List UInt8 → Option (List UInt8)
  | 0, _, _, _ => none
  | fuel + 1, depth, number, bytes =>
    match key? bytes with
    | none => none
    | some (inner, wireType, rest) =>
      if wireType = 4 then if inner = number then some rest else none
      else
        match depth with
        | 0 => none
        | depth + 1 =>
          if wireType = 3 then
            match skipGroup? fuel depth inner rest with
            | some rest => skipGroup? fuel (depth + 1) number rest
            | none => none
          else
            match simplePayload? wireType rest with
            | some (_, rest) => skipGroup? fuel (depth + 1) number rest
            | none => none

/-- All fields in order. What is in a group is one level deeper. -/
def rawFieldsFrom? (depth : Nat) (done : List RawField) : Nat → List UInt8 → Option (List RawField)
  | _, [] => some done.reverse
  | 0, _ :: _ => none
  | fuel + 1, bytes =>
    match key? bytes with
    | none => none
    | some (number, wireType, rest) =>
      if wireType = 3 then
        match skipGroup? rest.length (depth - 1) number rest with
        | some rest => rawFieldsFrom? depth (⟨number, .group⟩ :: done) fuel rest
        | none => none
      else
        match simplePayload? wireType rest with
        | some (payload, rest) => rawFieldsFrom? depth (⟨number, payload⟩ :: done) fuel rest
        | none => none

def rawFields? (depth : Nat) (bytes : List UInt8) : Option (List RawField) :=
  rawFieldsFrom? depth [] bytes.length bytes

end RpcStubs.Proto
