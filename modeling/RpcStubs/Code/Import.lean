import RpcStubs.OrderedSet
import RpcStubs.Text.Split

namespace RpcStubs

structure Import where
  path : String
  localName : Option String
  deriving DecidableEq, Repr, Inhabited

namespace Import

/-- Imports are ordered by path; of one path, the import without a name of its own comes first. -/
instance : Ord Import :=
  ⟨compareLex (compareOn Import.path) (compareOn Import.localName)⟩

instance : Std.TransOrd Import :=
  inferInstanceAs (Std.TransCmp (compareLex (compareOn Import.path) (compareOn Import.localName)))

instance : Std.LawfulEqOrd Import where
  eq_of_compare {a b} h := by
    obtain ⟨p, q⟩ := a
    obtain ⟨r, s⟩ := b
    have h' : (compare p r).then (compare q s) = .eq := h
    obtain ⟨hp, hq⟩ := Ordering.then_eq_eq.1 h'
    exact congr (congrArg Import.mk (Std.LawfulEqOrd.eq_of_compare hp))
      (Std.LawfulEqOrd.eq_of_compare hq)

def plain (path : String) : Import := ⟨path, none⟩

def aliased (path name : String) : Import := ⟨path, some name⟩

def lastElement (path : String) : String := String.ofList (Text.afterLast '/' path.toList)

def qualifier (i : Import) : String := i.localName.getD (lastElement i.path)

/-- Paths of the standard library have no dot in their first element. -/
def isStandard (i : Import) : Bool :=
  !((i.path.toList.takeWhile (· ≠ '/')).contains '.')

def render (i : Import) : String :=
  match i.localName with
  | some name => name ++ " \"" ++ i.path ++ "\""
  | none => "\"" ++ i.path ++ "\""

end Import

abbrev ImportSet := OrderedSet Import

end RpcStubs
