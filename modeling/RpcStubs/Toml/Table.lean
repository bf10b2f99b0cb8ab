namespace RpcStubs.Toml

inductive Origin where
  | inline
  | header
  /-- On the way to a table that a header names. It may still get a header of its own. -/
  | implied
  | dotted
  deriving DecidableEq, Repr

inductive Value where
  | string (s : String)
  | array (items : List Value)
  /-- The tables of headers in double brackets, of which only the last one still grows. -/
  | tables (before : List (List (String × Value))) (last : List (String × Value))
  | table (origin : Origin) (entries : List (String × Value))
  deriving Repr, Inhabited

abbrev Table := List (String × Value)

namespace Value

def text? : Value → Option String
  | string s => some s
  | _ => none

def items? : Value → Option (List Value)
  | array items => some items
  | tables before last => some ((before ++ [last]).map (table .header))
  | _ => none

def entries? : Value → Option Table
  | table _ entries => some entries
  | _ => none

end Value

structure Key where
  path : List String
  last : String
  deriving DecidableEq, Repr

abbrev Entry := Key × Value

structure Header where
  key : Key
  repeats : Bool
  deriving DecidableEq, Repr

def alter? (f : Option Value → Option Value) (key : String) : Table → Option Table
  | [] => (f none).map fun value ↦ [(key, value)]
  | (k, old) :: rest =>
    if key = k then (f (some old)).map fun value ↦ (k, value) :: rest
    else (alter? f key rest).map ((k, old) :: ·)

theorem lookup_eq_of_alter? {f : Option Value → Option Value} {key : String} {table changed : Table}
    (h : alter? f key table = some changed) : changed.lookup key = f (table.lookup key) := by
  induction table generalizing changed with
  | nil =>
    obtain ⟨value, hv, rfl⟩ := Option.map_eq_some_iff.1 h
    simp [hv]
  | cons entry rest ih =>
    obtain ⟨k, old⟩ := entry
    by_cases hk : key = k
    · obtain ⟨value, hv, rfl⟩ :=
        Option.map_eq_some_iff.1 (by simpa only [alter?, if_pos hk] using h)
      simp [hk, hv]
    · obtain ⟨changed, hc, rfl⟩ :=
        Option.map_eq_some_iff.1 (by simpa only [alter?, if_neg hk] using h)
      simp [List.lookup_cons, beq_eq_false_iff_ne.2 hk, ih hc]

inductive Way where
  | header
  | dotted
  deriving DecidableEq, Repr

def Way.origin : Way → Origin
  | .header => .implied
  | .dotted => .dotted

/-- Whether a table is open to what comes this way. Dotted keys add nothing to a table that has its
own header. -/
def Way.enters : Way → Origin → Bool
  | _, .inline => false
  | .header, _ => true
  | .dotted, origin => origin ≠ .header

def through? (way : Way) (f : Origin → Table → Option Table) : Option Value → Option Value
  | none => (f way.origin []).map (.table way.origin)
  | some (.tables before last) =>
    if way.enters .header then (f .header last).map (.tables before) else none
  | some (.table origin entries) =>
    if way.enters origin then (f origin entries).map (.table origin) else none
  | some _ => none

def descend? (way : Way) (f : Origin → Table → Option Table) :
    List String → Origin → Table → Option Table
  | [], origin, table => f origin table
  | key :: path, _, table => alter? (through? way (descend? way f path)) key table

def setOnce? (value : Value) : Option Value → Option Value
  | none => some value
  | some _ => none

/-- Adds an entry. A dotted key sets no value in a table that only a header implies. -/
def put? (table : Table) (entry : Entry) : Option Table :=
  let (key, value) := entry
  descend? .dotted (fun origin parent ↦
    if key.path.isEmpty || origin = .dotted then alter? (setOnce? value) key.last parent else none)
    key.path .header table

def putAll? (table : Table) (entries : List Entry) : Option Table := entries.foldlM put? table

/-- The table of a header, filled. If headers of inner tables came first, they are in it already. -/
def named? (fill : Table → Option Table) : Option Value → Option Value
  | none => (fill []).map (.table .header)
  | some (.table .implied entries) => (fill entries).map (.table .header)
  | some _ => none

def another? (fill : Table → Option Table) : Option Value → Option Value
  | none => (fill []).map (.tables [])
  | some (.tables before last) => (fill []).map (.tables (before ++ [last]))
  | some _ => none

def putSection? (root : Table) (part : Header × List Entry) : Option Table :=
  let (header, entries) := part
  let fill := (putAll? · entries)
  let place := if header.repeats then another? fill else named? fill
  descend? .header (fun _ parent ↦ alter? place header.key.last parent) header.key.path .header root

end RpcStubs.Toml
