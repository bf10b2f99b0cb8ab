import RpcStubs.Text.CaseMap
import RpcStubs.Text.Letter
import RpcStubs.Text.Split

namespace RpcStubs.Name

open Text

def startsLower : List Char → Bool
  | c :: _ => c.isLower
  | [] => false

/-- Inside a word lower case letters are copied. Elsewhere an underscore before a lower case letter
is dropped, a digit is copied, and any other character opens a word in upper case. -/
def camelWords : (inWord : Bool) → List Char → List Char
  | _, [] => []
  | inWord, c :: rest =>
    if inWord && c.isLower then c :: camelWords true rest
    else if c = '_' && startsLower rest then camelWords false rest
    else if c.isDigit then c :: camelWords false rest
    else c.toUpper :: camelWords true rest

def camelChars : List Char → List Char
  | '_' :: rest => 'X' :: camelWords false rest
  | s => camelWords false s

/-- The exported form of a schema name: `hello_world` becomes `HelloWorld`, and a leading
underscore becomes `X`. Only ASCII letters change case. -/
def camelCase (s : String) : String := String.ofList (camelChars s.toList)

def snakeChars : (first : Bool) → List Char → List Char
  | _, [] => []
  | first, c :: rest =>
    (if isCapital c && !first then ['_'] else []) ++ toLower c ++ snakeChars false rest

/-- Every capital but the first character gets an underscore before it, then all is lower case. -/
def snakeCase (s : String) : String := String.ofList (snakeChars true s.toList)

def baseName (s : String) : String :=
  let last := afterLast '/' s.toList
  match cutLast '.' last with
  | some (stem, _) => String.ofList stem
  | none => String.ofList last

def mapFirst (f : Char → List Char) (s : String) : String :=
  match s.toList with
  | [] => ""
  | c :: rest => String.ofList (f c ++ rest)

def exported (s : String) : String := mapFirst toUpper s

def unexported (s : String) : String := mapFirst toLower s

def isWordChar (c : Char) : Bool := isLetterOrNumeric c || c == '_'

def sanitize (s : String) : String := String.ofList (s.toList.filter isWordChar)

/-- The generated file keeps the directory; the last element is snake cased and gets `.go`. -/
def goFile (s : String) : String :=
  match cutLast '/' s.toList with
  | some (dir, last) => String.ofList dir ++ "/" ++ snakeCase (String.ofList last) ++ ".go"
  | none => snakeCase s ++ ".go"

def valueList (values : List String) : String := ", ".intercalate values

end RpcStubs.Name
