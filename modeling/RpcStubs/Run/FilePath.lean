import RpcStubs.Text.Split

namespace RpcStubs.FilePath

def segments (path : String) : List String := (Text.pieces '/' path.toList).map String.ofList

def isAbsolute (path : String) : Bool := path.toList.head? == some '/'

def isIdle (segment : String) : Bool := segment.isEmpty || segment == "."

/-- Whether the path may lead out of the directory that it is joined to. -/
def escapes (path : String) : Bool := isAbsolute path || (segments path).contains ".."

def join (dir path : String) : String :=
  if dir.isEmpty ∨ dir.toList.getLast? = some '/' then dir ++ path else dir ++ "/" ++ path

def dropIdleEnd (segments : List String) : List String :=
  (segments.reverse.dropWhile isIdle).reverse

/-- The segments without the last that is not idle, and without idle ones before it. -/
def dropLastSegment (segments : List String) : List String :=
  dropIdleEnd (dropIdleEnd segments).dropLast

/-- The directory of a path; it keeps a slash or dot at the front. -/
def parent (path : String) : String :=
  match segments path with
  | "" :: body => "/" ++ "/".intercalate (dropLastSegment body)
  | "." :: body => "/".intercalate ("." :: dropLastSegment body)
  | body => "/".intercalate (dropLastSegment body)

end RpcStubs.FilePath
