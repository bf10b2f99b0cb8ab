import RpcStubs.Stub.Descriptor

namespace RpcStubs.Gzip

def crcPolynomial : UInt32 := 0xEDB88320

def crcBit (crc : UInt32) : UInt32 :=
  if crc &&& 1 = 1 then (crc >>> 1) ^^^ crcPolynomial else crc >>> 1

def crcByte (crc : UInt32) (b : UInt8) : UInt32 :=
  (List.range 8).foldl (fun c _ ↦ crcBit c) (crc ^^^ b.toUInt32)

def crc32 (data : List UInt8) : UInt32 := data.foldl crcByte 0xFFFFFFFF ^^^ 0xFFFFFFFF

/-- Deflate, no flags, no time, best compression asked for, unknown system. -/
def header : List UInt8 := [0x1f, 0x8b, 8, 0, 0, 0, 0, 0, 2, 0xff]

def littleEndian16 (n : Nat) : List UInt8 := [n.toUInt8, (n / 256).toUInt8]

def littleEndian32 (n : Nat) : List UInt8 :=
  [n.toUInt8, (n / 256).toUInt8, (n / 65536).toUInt8, (n / 16777216).toUInt8]

def blockSize : Nat := 65535

def block (last : Bool) (data : List UInt8) : List UInt8 :=
  (if last then 1 else 0) :: littleEndian16 data.length ++
    littleEndian16 (65535 - data.length) ++ data

/-- The data as stored blocks; the fuel bounds their number. -/
def blocks : (fuel : Nat) → List UInt8 → List UInt8
  | 0, data => block true data
  | fuel + 1, data =>
    if data.length ≤ blockSize then block true data
    else block false (data.take blockSize) ++ blocks fuel (data.drop blockSize)

def pack (data : List UInt8) : List UInt8 :=
  header ++ blocks (data.length / blockSize) data ++ littleEndian32 (crc32 data).toNat ++
    littleEndian32 data.length

instance : Stub.Compressor := ⟨pack⟩

def unpackBlocks? : (fuel : Nat) → List UInt8 → Option (List UInt8 × List UInt8)
  | 0, _ => none
  | fuel + 1, final :: a :: b :: _ :: _ :: rest =>
    let size := a.toNat + 256 * b.toNat
    if rest.length < size then none
    else if final = 1 then some (rest.take size, rest.drop size)
    else if final = 0 then
      match unpackBlocks? fuel (rest.drop size) with
      | some (data, tail) => some (rest.take size ++ data, tail)
      | none => none
    else none
  | _, _ => none

def unpack? (archive : List UInt8) : Option (List UInt8) :=
  if archive.take 10 ≠ header then none
  else
    match unpackBlocks? archive.length (archive.drop 10) with
    | some (data, tail) =>
      if tail = littleEndian32 (crc32 data).toNat ++ littleEndian32 data.length then some data
      else none
    | none => none

end RpcStubs.Gzip
