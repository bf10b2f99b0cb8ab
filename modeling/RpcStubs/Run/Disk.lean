import RpcStubs.Run.FilePath
import RpcStubs.Text.Utf8

namespace RpcStubs

/-- The working directory is `[]` and the root `["/"]`; directories above the working directory are
empty apart from it. -/
structure Disk where
  files : List (List String × List UInt8) := []
  directories : List (List String) := []
  deriving Repr

namespace Disk

inductive Fault where
  | missing
  | notDirectory
  | isDirectory
  | nameTooLong
  | nulByte
  deriving DecidableEq, Repr

def Fault.message : Fault → String
  | .missing => "No such file or directory (os error 2)"
  | .notDirectory => "Not a directory (os error 20)"
  | .isDirectory => "Is a directory (os error 21)"
  | .nameTooLong => "File name too long (os error 36)"
  | .nulByte => "file name contained an unexpected NUL byte"

abbrev Position := List String

def file? (d : Disk) (p : Position) : Option (List UInt8) := d.files.lookup p

/-- Whether a position is the working directory, the root or above the working directory. -/
def isFixed (p : Position) : Bool := p.all (· == "..") || p == ["/"]

def isDirectory (d : Disk) (p : Position) : Bool :=
  isFixed p || d.directories.contains p ||
    d.files.any fun (q, _) ↦ p.length < q.length && p.isPrefixOf q

def origin (path : String) : Position := if FilePath.isAbsolute path then ["/"] else []

def above (p : Position) : Position :=
  if p == ["/"] then p else if p.all (· == "..") then p ++ [".."] else p.dropLast

def maxName : Nat := 255

def step (d : Disk) (p : Position) (segment : String) : Except Fault Position :=
  if (d.file? p).isSome then .error .notDirectory
  else if !d.isDirectory p then .error .missing
  else if FilePath.isIdle segment then .ok p
  else if segment == ".." then .ok (above p)
  else if maxName < segment.utf8ByteSize then .error .nameTooLong
  else .ok (p ++ [segment])

def maxPath : Nat := 4095

def check (path : String) : Except Fault Unit :=
  if path.toList.contains '\x00' then .error .nulByte
  else if path.isEmpty then .error .missing
  else if maxPath < path.utf8ByteSize then .error .nameTooLong
  else .ok ()

def locate (d : Disk) (path : String) : Except Fault Position := do
  check path
  (FilePath.segments path).foldlM d.step (origin path)

def read (d : Disk) (path : String) : Except Fault (List UInt8) := do
  let p ← d.locate path
  match d.file? p with
  | some data => return data
  | none => throw (if d.isDirectory p then .isDirectory else .missing)

/-- One segment further, into a directory that is made if nothing is there. -/
def enter (state : Disk × Position) (segment : String) : Except Fault (Disk × Position) := do
  let (d, here) := state
  let p ← d.step here segment
  if (d.file? p).isSome then throw .notDirectory
  else if d.isDirectory p then return (d, p)
  else return ({ d with directories := p :: d.directories }, p)

def createDirectories (d : Disk) (path : String) : Except Fault Disk := do
  check path
  return (← (FilePath.segments path).foldlM enter (d, origin path)).1

def put (d : Disk) (p : Position) (data : List UInt8) : Disk :=
  { d with files := (p, data) :: d.files.filter (·.1 ≠ p) }

@[simp] theorem file?_put_self (d : Disk) (p : Position) (data : List UInt8) :
    (d.put p data).file? p = some data := by
  simp [put, file?]

theorem lookup_filter_ne {q p : Position} (h : q ≠ p) (files : List (Position × List UInt8)) :
    (files.filter (·.1 ≠ p)).lookup q = files.lookup q := by
  induction files with
  | nil => rfl
  | cons entry rest ih =>
    obtain ⟨r, data⟩ := entry
    by_cases hr : r = p
    · subst hr
      have hq : (q == r) = false := by simpa using h
      simpa [List.lookup_cons, hq] using ih
    · simp only [List.lookup_cons, ne_eq, hr, not_false_eq_true, decide_true,
        List.filter_cons_of_pos]
      rw [← ih]

theorem file?_put_of_ne {q p : Position} (h : q ≠ p) (d : Disk) (data : List UInt8) :
    (d.put p data).file? q = d.file? q := by
  have hq : (q == p) = false := by simpa using h
  rw [put, file?, List.lookup_cons, hq]
  exact lookup_filter_ne h d.files

def write (d : Disk) (path : String) (data : List UInt8) : Except Fault Disk := do
  let p ← d.locate path
  if d.isDirectory p then throw .isDirectory else return d.put p data

def ofFiles (files : List (String × List UInt8)) : Disk :=
  files.foldl (fun d (path, data) ↦
    d.put ((FilePath.segments path).filter (!FilePath.isIdle ·)) data) {}

end Disk

end RpcStubs
