namespace RpcStubs.Text

/-- Bounds come in pairs `lo, hi`, ascending: the class holds `n` when `lo ≤ n < hi` for a pair. -/
def inClass : List Nat → Nat → Bool
  | lo :: hi :: rest, n => if n < lo then false else if n < hi then true else inClass rest n
  | _, _ => false

end RpcStubs.Text
