import RpcStubs.Text.Class

namespace RpcStubs.Text

def blankBounds : List Nat := [
  0x9, 0xe, 0x20, 0x21, 0x85, 0x86, 0xa0, 0xa1, 0x1680, 0x1681, 0x2000, 0x200b, 0x2028, 0x202a,
  0x202f, 0x2030, 0x205f, 0x2060, 0x3000, 0x3001]

def isBlank (c : Char) : Bool := inClass blankBounds c.toNat

def trimStart (s : List Char) : List Char := s.dropWhile isBlank

def trimEnd (s : List Char) : List Char := (s.reverse.dropWhile isBlank).reverse

def trim (s : List Char) : List Char := trimEnd (trimStart s)

/-- Collects words from the right: a word is begun or continued by every character that is not
blank. The flag tells whether the character to the right continues a word. -/
def wordsAux : List Char → Bool × List (List Char)
  | [] => (false, [])
  | c :: rest =>
    match wordsAux rest with
    | (inWord, words) =>
      if isBlank c then (false, words)
      else if inWord then
        match words with
        | w :: ws => (true, (c :: w) :: ws)
        | [] => (true, [[c]])
      else (true, [c] :: words)

def words (s : List Char) : List (List Char) := (wordsAux s).2

end RpcStubs.Text
