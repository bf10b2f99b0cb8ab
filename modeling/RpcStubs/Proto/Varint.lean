namespace RpcStubs.Proto

def varint (n : Nat) : List UInt8 :=
  if h : n < 128 then [n.toUInt8]
  else (n % 128 + 128).toUInt8 :: varint (n / 128)
termination_by n
decreasing_by omega

/-- Reads an integer whose first `seen` bytes are gone. The tenth byte is the last and holds one
bit. -/
def readVarint? (seen : Nat) : List UInt8 → Option (Nat × List UInt8)
  | [] => none
  | b :: rest =>
    if b.toNat < 128 then if seen = 9 ∧ 2 ≤ b.toNat then none else some (b.toNat, rest)
    else if 9 ≤ seen then none
    else
      match readVarint? (seen + 1) rest with
      | some (n, rest) => some (b.toNat - 128 + 128 * n, rest)
      | none => none

def varint? (bytes : List UInt8) : Option (Nat × List UInt8) := readVarint? 0 bytes

end RpcStubs.Proto
