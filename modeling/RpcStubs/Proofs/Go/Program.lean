import Mathlib.Data.List.DropRight
import RpcStubs.Proofs.Stub.Routes

namespace RpcStubs.Go

inductive Token where
  | word (text : String)
  | literal (text : List Char)
  | mark (char : Char)
  deriving DecidableEq

/-- Where a scan stands; what it has read of a token is kept last character first. -/
inductive Scan where
  | code (word : List Char)
  | literal (read : List Char)
  | escape (read : List Char)

def endWord (word : List Char) : List Token :=
  if word.isEmpty then [] else [.word (String.ofList word.reverse)]

def continuesWord (c : Char) : Bool := Name.isWordChar c || c == '.'

def tokensFrom : Scan → List Char → Option (List Token)
  | .code word, [] => some (endWord word)
  | _, [] => none
  | .code word, c :: rest =>
    if continuesWord c then tokensFrom (.code (c :: word)) rest
    else if c = '"' then (endWord word ++ ·) <$> tokensFrom (.literal []) rest
    else if c = ' ' then (endWord word ++ ·) <$> tokensFrom (.code []) rest
    else (endWord word ++ .mark c :: ·) <$> tokensFrom (.code []) rest
  | .literal read, c :: rest =>
    if c = '"' then (.literal read.reverse :: ·) <$> tokensFrom (.code []) rest
    else if c = '\\' then tokensFrom (.escape read) rest
    else tokensFrom (.literal (c :: read)) rest
  | .escape read, c :: rest => do tokensFrom (.literal ((← Stub.escaped? c) :: read)) rest

def tokens (line : String) : Option (List Token) := tokensFrom (.code []) line.toList

inductive Operand where
  | name (x : String)
  | text (s : List Char)
  | number (n : Int)
  | upTo (x i : String)
  deriving DecidableEq

inductive Expr where
  | operand (a : Operand)
  | call (callee : String) (args : List Operand)
  deriving DecidableEq

inductive Action where
  | define (x : String) (e : Expr)
  | assign (x : String) (e : Expr)
  | discard (e : Expr)
  deriving DecidableEq

inductive Line where
  | action (a : Action)
  | ret
  | ifBegin (a b : Operand)
  | elseIf (a b : Operand)
  | elseBegin
  | close
  deriving DecidableEq

def number? (word : String) : Option Nat :=
  if word.toList.all Char.isDigit then
    some (word.toList.foldl (fun n c ↦ 10 * n + (c.toNat - '0'.toNat)) 0)
  else none

def operand? : List Token → Option Operand
  | [.word x, .mark '[', .mark ':', .word i, .mark ']'] => some (.upTo x i)
  | [.mark '-', .word n] => (number? n).map fun n ↦ .number (-n)
  | [.word x] => some ((number? x).elim (.name x) fun n ↦ .number n)
  | [.literal s] => some (.text s)
  | _ => none

def args? (ts : List Token) : Option (List Operand) :=
  if ts.getLast? ≠ some (.mark ')') then none
  else if ts.dropLast.isEmpty then some []
  else (ts.dropLast.splitOn (.mark ',')).mapM operand?

def expr? : List Token → Option Expr
  | .word f :: .mark '(' :: rest => (args? rest).map (.call f)
  | ts => (operand? ts).map .operand

def equation? (ts : List Token) : Option (Operand × Operand) :=
  match ts.getLast?, ts.dropLast.splitOn (.mark '=') with
  | some (.mark '\x7b'), [a, [], b] => return (← operand? a, ← operand? b)
  | _, _ => none

def line? : List Token → Option Line
  | [.mark '\x7d'] => some .close
  | [.mark '\x7d', .word "else", .mark '\x7b'] => some .elseBegin
  | .mark '\x7d' :: .word "else" :: .word "if" :: rest =>
    (equation? rest).map fun (a, b) ↦ .elseIf a b
  | .word "if" :: rest => (equation? rest).map fun (a, b) ↦ .ifBegin a b
  | [.word "return"] => some .ret
  | .word x :: .mark ':' :: .mark '=' :: rest => (expr? rest).map (.action <| .define x ·)
  | .word x :: .mark '=' :: rest => (expr? rest).map (.action <| .assign x ·)
  | ts => (expr? ts).map (.action <| .discard ·)

def readLine (line : String) : Option Line := tokens line >>= line?

theorem tokensFrom_append {w : List Char} (h : ∀ c ∈ w, continuesWord c = true)
    (read rest : List Char) :
    tokensFrom (.code read) (w ++ rest) = tokensFrom (.code (w.reverse ++ read)) rest := by
  induction w generalizing read with
  | nil => rfl
  | cons c w ih =>
    obtain ⟨hc, hw⟩ := List.forall_mem_cons.1 h
    rw [List.cons_append, tokensFrom, if_pos hc, ih hw]
    simp

/-- A call on a line of its own, whatever the name of the function. -/
theorem readLine_call {f rest : String} {args : List Operand} (hne : f ≠ "") (hif : f ≠ "if")
    (hword : ∀ c ∈ f.toList, continuesWord c = true)
    (hrest : tokensFrom (.code []) rest.toList >>= args? = some args) :
    readLine (f ++ "(" ++ rest) = some (.action (.discard (.call f args))) := by
  obtain ⟨ts, hts, hargs⟩ := Option.bind_eq_some_iff.1 hrest
  have htokens : tokens (f ++ "(" ++ rest) = some (.word f :: .mark '(' :: ts) := by
    have hopen : continuesWord '(' = false := by decide
    have hempty : f.toList.isEmpty = false := by simpa using hne
    rw [tokens, String.toList_append, String.toList_append, List.append_assoc,
      tokensFrom_append hword]
    simp [tokensFrom, hopen, endWord, hempty, hts]
  simp [readLine, htokens, line?, hif, expr?, hargs]

/-- The statements of a body. A branch runs one of two bodies and goes on. -/
inductive Code where
  | done
  | ret
  | act (a : Action) (next : Code)
  | branch (a b : Operand) (yes no next : Code)
  deriving DecidableEq

/-- A body of which the lines above are still to be read, and what an `else` after it holds. -/
structure Frame where
  code : Code := .done
  otherwise : Option Code := none
  deriving DecidableEq

def Line.before : Line → List Frame → Option (List Frame)
  | .action a, f :: frames => some ({ f with code := .act a f.code } :: frames)
  | .ret, f :: frames => some ({ f with code := .ret } :: frames)
  | .close, frames => some ({} :: frames)
  | .elseBegin, ⟨code, none⟩ :: outer :: frames => some ({ otherwise := code } :: outer :: frames)
  | .elseIf a b, f :: outer :: frames =>
    let chain := Code.branch a b f.code (f.otherwise.getD .done) .done
    some ({ otherwise := chain } :: outer :: frames)
  | .ifBegin a b, f :: outer :: frames =>
    some ({ outer with code := .branch a b f.code (f.otherwise.getD .done) outer.code } :: frames)
  | _, _ => none

def code? (lines : List Line) : Option Code :=
  match lines.foldrM Line.before [{}] with
  | some [⟨code, none⟩] => some code
  | _ => none

inductive Value where
  | text (s : List Char)
  | number (n : Int)
  | named (name : String)
  | result (call : Nat)
  deriving DecidableEq

structure Call where
  callee : String
  args : List Value
  deriving DecidableEq

structure State where
  env : List (String × Value) := []
  calls : List Call := []
  deriving DecidableEq

def index (s part : List Char) : Int :=
  (s.tails.findIdx? part.isPrefixOf).elim (-1) fun n ↦ n

def isSpace (c : Char) : Bool := ['\t', '\n', '\x0b', '\x0c', '\r', ' '].contains c

def trimSpace (s : List Char) : List Char := (s.dropWhile isSpace).rdropWhile isSpace

theorem findIdx?_tails (s : List Char) (c : Char) :
    s.tails.findIdx? [c].isPrefixOf = s.findIdx? (c == ·) := by
  induction s with
  | nil => rfl
  | cons d s ih => simp [List.findIdx?_cons, ih]

theorem index_of_mem {s : List Char} {c : Char} (h : c ∈ s) :
    index s [c] = (s.takeWhile (· ≠ c)).length := by
  rw [index, findIdx?_tails]
  have hfind : s.findIdx? (c == ·) = some (s.takeWhile (· ≠ c)).length := by
    induction s with
    | nil => cases h
    | cons d s ih =>
      by_cases hd : d = c
      · simp [List.findIdx?_cons, hd]
      · have hs : c ∈ s := (List.mem_cons.1 h).resolve_left (Ne.symm hd)
        simp [List.findIdx?_cons, hd, Ne.symm hd, ih hs]
  rw [hfind]
  rfl

theorem index_of_not_mem {s : List Char} {c : Char} (h : c ∉ s) : index s [c] = -1 := by
  have hfind : s.findIdx? (c == ·) = none := by
    rw [List.findIdx?_eq_none_iff]
    rintro d hd
    simpa using fun hcd : c = d ↦ h (hcd ▸ hd)
  rw [index, findIdx?_tails, hfind]
  rfl

theorem dropWhile_congr {p q : Char → Bool} {s : List Char} (h : ∀ c ∈ s, p c = q c) :
    s.dropWhile p = s.dropWhile q := by
  induction s with
  | nil => rfl
  | cons c s ih =>
    obtain ⟨hc, hs⟩ := List.forall_mem_cons.1 h
    rw [List.dropWhile_cons, List.dropWhile_cons, hc, ih hs]

/-- On ASCII text both notions of white space agree, and capitals do not matter. -/
theorem isSpace_toLower {c : Char} (h : c.toNat < 128) : isSpace c.toLower = Text.isBlank c := by
  have hall : ∀ n : Fin 128, isSpace (Char.ofNat n).toLower = Text.isBlank (Char.ofNat n) := by
    decide +kernel
  simpa using hall ⟨c.toNat, h⟩

theorem trimSpace_map_toLower {s : List Char} (h : ∀ c ∈ s, c.toNat < 128) :
    trimSpace (s.map Char.toLower) = (Text.trim s).map Char.toLower := by
  have hdrop {t : List Char} (ht : ∀ c ∈ t, c.toNat < 128) :
      (t.map Char.toLower).dropWhile isSpace = (t.dropWhile Text.isBlank).map Char.toLower := by
    have hblank : ∀ c ∈ t, (isSpace ∘ Char.toLower) c = Text.isBlank c := fun c hc ↦
      isSpace_toLower (ht c hc)
    rw [List.dropWhile_map, dropWhile_congr hblank]
  have hsuffix : ∀ c ∈ (s.dropWhile Text.isBlank).reverse, c.toNat < 128 := fun c hc ↦
    h c ((List.dropWhile_suffix _).mem (List.mem_reverse.1 hc))
  rw [trimSpace, hdrop h, List.rdropWhile, ← List.map_reverse, hdrop hsuffix, ← List.map_reverse]
  rfl

/-- The calls whose meaning is given, in a request with the content type header `header`. -/
def builtin (header : List Char) : String → List Value → Option Value
  | "req.Header.Get", [.named "xhttp.ContentTypeHeader"] => some (.text header)
  | "strings.Index", [.text s, .text part] => some (.number (index s part))
  | "strings.ToLower", [.text s] => some (.text (s.map Char.toLower))
  | "strings.TrimSpace", [.text s] => some (.text (trimSpace s))
  | "len", [.text s] => some (.number s.length)
  | _, _ => none

namespace State

def lookup (s : State) (x : String) : Value := (s.env.lookup x).getD (.named x)

/-- A slice that ends outside of the text has no value. -/
def operand (s : State) : Operand → Option Value
  | .name x => some (s.lookup x)
  | .text t => some (.text t)
  | .number n => some (.number n)
  | .upTo x i =>
    match s.lookup x, s.lookup i with
    | .text t, .number n => if 0 ≤ n ∧ n ≤ t.length then some (.text (t.take n.toNat)) else none
    | _, _ => none

def equal (s : State) (a b : Operand) : Option Bool := do
  match ← s.operand a, ← s.operand b with
  | .text t, .text u => some (t == u)
  | .number n, .number k => some (n == k)
  | _, _ => none

def expr (header : List Char) (s : State) : Expr → Option (Value × State)
  | .operand a => return (← s.operand a, s)
  | .call f args => do
    let values ← args.mapM s.operand
    match builtin header f values with
    | some v => return (v, s)
    | none => return (.result s.calls.length, { s with calls := s.calls ++ [⟨f, values⟩] })

def setIn (x : String) (v : Value) : List (String × Value) → Option (List (String × Value))
  | [] => none
  | (y, w) :: env => if y = x then some ((y, v) :: env) else ((y, w) :: ·) <$> setIn x v env

def act (header : List Char) (s : State) : Action → Option State
  | .define x e => do
    let (v, s) ← s.expr header e
    return { s with env := (x, v) :: s.env }
  | .assign x e => do
    let (v, s) ← s.expr header e
    return { s with env := ← setIn x v s.env }
  | .discard e => return (← s.expr header e).2

def leave (s : State) (n : Nat) : State := { s with env := s.env.drop (s.env.length - n) }

end State

/-- The state after a body, and whether it returned. -/
def Code.run (header : List Char) : Code → State → Option (State × Bool)
  | .done, s => some (s, false)
  | .ret, s => some (s, true)
  | .act a next, s => do next.run header (← s.act header a)
  | .branch a b yes no next, s => do
    let (t, returned) ← if ← s.equal a b then yes.run header s else no.run header s
    if returned then return (t, true) else next.run header (t.leave s.env.length)

theorem Code.run_act {header : List Char} {s t : State} {a : Action} (h : s.act header a = some t)
    (next : Code) : (Code.act a next).run header s = next.run header t := by
  rw [Code.run, h]
  rfl

theorem Code.run_branch {header : List Char} {s : State} {a b : Operand} {taken : Bool}
    (h : s.equal a b = some taken) (yes no next : Code) :
    (Code.branch a b yes no next).run header s =
      ((if taken then yes else no).run header s).bind fun (t, returned) ↦
        if returned then some (t, true) else next.run header (t.leave s.env.length) := by
  rw [Code.run, h]
  cases taken <;> rfl

/-- The calls that a body makes for a request; a body that cannot be read or gets stuck makes
none. Strings are ASCII, so that a byte is a character, and calls whose meaning is not given are
recorded in the order in which they are made. -/
def run (header : List Char) (lines : List String) : Option (List Call) := do
  let code ← code? (← lines.mapM readLine)
  let (s, _) ← code.run header {}
  return s.calls

end RpcStubs.Go
