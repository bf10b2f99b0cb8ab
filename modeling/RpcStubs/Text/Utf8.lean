namespace RpcStubs.Text

def isContinuation (b : Nat) : Bool := b / 64 == 2

/-- A character of the given value, unless a shorter form exists or it is no scalar value. -/
def scalar? (least value : Nat) : Option Char :=
  if least ≤ value ∧ (value < 0xD800 ∨ 0xE000 ≤ value) ∧ value < 0x110000 then
    some (Char.ofNat value)
  else none

def firstChar? : List UInt8 → Option (Char × Nat)
  | [] => none
  | a :: rest =>
    let a := a.toNat
    if a < 0x80 then some (Char.ofNat a, 1)
    else
      let tail := (rest.take 3).map UInt8.toNat
      match tail with
      | b :: more =>
        if !isContinuation b then none
        else if a / 32 == 6 then
          (scalar? 0x80 (a % 32 * 64 + b % 64)).map (·, 2)
        else
          match more with
          | c :: more =>
            if !isContinuation c then none
            else if a / 16 == 14 then
              (scalar? 0x800 ((a % 16 * 64 + b % 64) * 64 + c % 64)).map (·, 3)
            else
              match more with
              | d :: _ =>
                if isContinuation d && a / 8 == 30 then
                  (scalar? 0x10000 (((a % 8 * 64 + b % 64) * 64 + c % 64) * 64 + d % 64)).map (·, 4)
                else none
              | [] => none
          | [] => none
      | [] => none

def decodeFrom (skip : Nat) (done : List (Option Char)) : List UInt8 → List (Option Char)
  | [] => done.reverse
  | b :: rest =>
    match skip with
    | skip + 1 => decodeFrom skip done rest
    | 0 =>
      match firstChar? (b :: rest) with
      | some (c, size) => decodeFrom (size - 1) (some c :: done) rest
      | none => decodeFrom 0 (none :: done) rest

def decodeUtf8 (bytes : List UInt8) : List (Option Char) := decodeFrom 0 [] bytes

def utf8? (bytes : List UInt8) : Option String :=
  let chars := decodeUtf8 bytes
  if chars.all Option.isSome then some (String.ofList (chars.filterMap id)) else none

def utf8Bytes (s : String) : List UInt8 := s.toUTF8.toList

end RpcStubs.Text
