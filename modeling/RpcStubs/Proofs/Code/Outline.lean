import RpcStubs.Proofs.Code.DeclaredBodies

namespace RpcStubs

open Layout

inductive Subject where
  | value (subject : String)
  | type (binding subject : String)

mutual

/-- A sequence of statements. -/
inductive Outline where
  | nil
  | plain (s : Step) (plain : s.isPlain = true) (rest : Outline)
  | branching (init : Option String) (left : String) (op : Operator) (right : String)
      (first : Outline) (tail : Branches) (rest : Outline)
  | loop (key value list : String) (inner rest : Outline)
  | switch (subject : Subject) (clauses : Clauses) (rest : Outline)

/-- What follows the first block of an `if`. -/
inductive Branches where
  | close
  | elseBranch (last : Outline)
  | elseIf (left : String) (op : Operator) (right : String) (next : Outline) (tail : Branches)

inductive Clauses where
  | done
  | fallback (body : Outline)
  | clause (values : List String) (body : Outline) (rest : Clauses)

end

def Subject.start : Subject → Build Switch
  | .value subject => Switch.onValue subject
  | .type binding subject => Switch.onType binding subject

def ifStep (init : Option String) (left : String) (op : Operator) (right : String) : Step :=
  match init with
  | none => .ifBegin left op right
  | some init => .ifScoped init left op right

mutual

def Outline.steps : Outline → Build (List Step)
  | .nil => .ok []
  | .plain s _ rest => return s :: (← rest.steps)
  | .branching init left op right first tail rest =>
    return ifStep init left op right :: ((← first.steps) ++ ((← tail.steps) ++ (← rest.steps)))
  | .loop key value list inner rest =>
    return .rangeBegin key value list :: ((← inner.steps) ++ .close :: (← rest.steps))
  | .switch subject clauses rest =>
    return .switch (← clauses.fill (← subject.start)) :: (← rest.steps)

def Branches.steps : Branches → Build (List Step)
  | .close => .ok [.close]
  | .elseBranch last => return .elseBegin :: ((← last.steps) ++ [.close])
  | .elseIf left op right next tail =>
    return .elseIf left op right :: ((← next.steps) ++ (← tail.steps))

def Clauses.fill (s : Switch) : Clauses → Build Switch
  | .done => .ok s
  | .fallback body => return s.withFallback (← Block.ofSteps (← body.steps))
  | .clause values body rest => do
    rest.fill (← s.addCase values (← Block.ofSteps (← body.steps)))

end

/-- Every well nested sequence of steps has an outline. -/
theorem WellNested.exists_outline {steps : List Step} (h : WellNested steps) :
    ∃ o : Outline, o.steps = .ok steps := by
  have hall {p : Part} {steps : List Step} (h : Derives p steps) :
      (p = .body → ∃ o : Outline, o.steps = .ok steps) ∧
        (p = .branches → ∃ t : Branches, t.steps = .ok steps) := by
    induction h with
    | nil => exact ⟨fun _ ↦ ⟨.nil, rfl⟩, nofun⟩
    | @plain s rest hs _ ih =>
      obtain ⟨o, ho⟩ := ih.1 rfl
      exact ⟨fun _ ↦ ⟨.plain s hs o, by rw [Outline.steps, ho]; rfl⟩, nofun⟩
    | @branching s first tail rest hs _ _ _ ihfirst ihtail ihrest =>
      obtain ⟨a, ha⟩ := ihfirst.1 rfl
      obtain ⟨t, ht⟩ := ihtail.2 rfl
      obtain ⟨o, ho⟩ := ihrest.1 rfl
      obtain ⟨init, left, op, right, rfl⟩ :
          ∃ init left op right, s = ifStep init left op right := by
        cases s with
        | ifBegin left op right => exact ⟨none, left, op, right, rfl⟩
        | ifScoped init left op right => exact ⟨some init, left, op, right, rfl⟩
        | _ => cases hs
      refine ⟨fun _ ↦ ⟨.branching init left op right a t o, ?_⟩, nofun⟩
      rw [Outline.steps, ha, ht, ho]
      rfl
    | @loop s inner rest hs _ _ ihinner ihrest =>
      obtain ⟨a, ha⟩ := ihinner.1 rfl
      obtain ⟨o, ho⟩ := ihrest.1 rfl
      obtain ⟨key, value, list, rfl⟩ : ∃ key value list, s = .rangeBegin key value list := by
        cases s with
        | rangeBegin key value list => exact ⟨key, value, list, rfl⟩
        | _ => cases hs
      refine ⟨fun _ ↦ ⟨.loop key value list a o, ?_⟩, nofun⟩
      rw [Outline.steps, ha, ho]
      rfl
    | close => exact ⟨nofun, fun _ ↦ ⟨.close, rfl⟩⟩
    | elseBranch _ ih =>
      obtain ⟨o, ho⟩ := ih.1 rfl
      exact ⟨nofun, fun _ ↦ ⟨.elseBranch o, by rw [Branches.steps, ho]; rfl⟩⟩
    | @elseIf left right op _ _ _ _ ihnext ihtail =>
      obtain ⟨o, ho⟩ := ihnext.1 rfl
      obtain ⟨t, ht⟩ := ihtail.2 rfl
      exact ⟨nofun, fun _ ↦ ⟨.elseIf left op right o t, by rw [Branches.steps, ho, ht]; rfl⟩⟩
  exact (hall h).1 rfl

/-- A statement in front of a condition: a call of which the results are defined, or an operand. -/
def IsInitializer (init : String) : Prop :=
  IsSelector init ∨ ∃ targets callee args, Step.callExpr targets callee args = .ok init ∧
    ∀ a ∈ args, IsSelector a

def Subject.Simple : Subject → Prop
  | .value subject => IsSelector subject
  | .type _ subject => IsSelector subject

mutual

/-- All operands are identifiers or dotted selectors. -/
def Outline.Simple : Outline → Prop
  | .nil => True
  | .plain s _ rest => s.Simple ∧ rest.Simple
  | .branching init left _ right first tail rest =>
    (∀ i ∈ init, IsInitializer i) ∧ IsSelector left ∧ IsSelector right ∧ first.Simple ∧
      tail.Simple ∧ rest.Simple
  | .loop _ _ list inner rest => IsSelector list ∧ inner.Simple ∧ rest.Simple
  | .switch subject clauses rest => subject.Simple ∧ clauses.Simple ∧ rest.Simple

def Branches.Simple : Branches → Prop
  | .close => True
  | .elseBranch last => last.Simple
  | .elseIf left _ right next tail =>
    IsSelector left ∧ IsSelector right ∧ next.Simple ∧ tail.Simple

def Clauses.Simple : Clauses → Prop
  | .done => True
  | .fallback body => body.Simple
  | .clause values body rest => (∀ v ∈ values, IsSelector v) ∧ body.Simple ∧ rest.Simple

end

/-- A line of a body with the number of blocks around it. In a block that is taken for a structure,
the word in front of the first space is taken for the name of a field. -/
structure Row where
  depth : Nat
  text : String
  field? : Option String := none
  deriving DecidableEq, Repr

def Row.line (r : Row) : List Char := List.replicate r.depth '\t' ++ r.text.toList

def soleTarget? : List String → Option String
  | [target] => some target
  | _ => none

/-- The word in front of the first space of a statement, if nothing else stands there. -/
def Step.firstWord? : Step → Option String
  | .defineCall targets .. | .assignCall targets .. | .typeAssert targets .. => soleTarget? targets
  | .newInstance name _ | .defineOperation name .. => some name
  | .declareVar .. => some "var"
  | .deferCall .. => some "defer"
  | .returnValues _ | .returnCall .. => some "return"
  | _ => none

def Subject.head : Subject → String
  | .value subject => "switch " ++ subject ++ " \x7b"
  | .type binding subject => "switch " ++ binding ++ " := " ++ subject ++ ".(type) \x7b"

def clauseLabel (values : List String) : String := "case " ++ Name.valueList values ++ ":"

mutual

/-- The rows of a body below `depth` blocks, of which the innermost may be taken for a structure. -/
def Outline.rows (depth : Nat) (inStruct : Bool) : Outline → List Row
  | .nil => []
  | .plain s _ rest =>
    s.lines.map (⟨depth, ·, if inStruct then s.firstWord? else none⟩) ++ rest.rows depth inStruct
  | .branching init left op right first tail rest =>
    (ifStep init left op right).lines.map (⟨depth, ·, none⟩) ++
      (first.rows (depth + 1) (!takesBranches right) ++
        (tail.rows depth ++ rest.rows depth inStruct))
  | .loop key value list inner rest =>
    (Step.rangeBegin key value list).lines.map (⟨depth, ·, none⟩) ++
      (inner.rows (depth + 1) (!takesBranches list) ++
        (⟨depth, "\x7d", none⟩ :: rest.rows depth inStruct))
  | .switch subject clauses rest =>
    ⟨depth, subject.head, none⟩ ::
      (clauses.rows depth ++ (⟨depth, "\x7d", none⟩ :: rest.rows depth inStruct))

def Branches.rows (depth : Nat) : Branches → List Row
  | .close => [⟨depth, "\x7d", none⟩]
  | .elseBranch last =>
    ⟨depth, "\x7d else \x7b", none⟩ :: (last.rows (depth + 1) false ++ [⟨depth, "\x7d", none⟩])
  | .elseIf left op right next tail =>
    ⟨depth, "\x7d else if " ++ Step.conditionText left op right ++ " \x7b", none⟩ ::
      (next.rows (depth + 1) (!takesBranches right) ++ tail.rows depth)

def Clauses.rows (depth : Nat) : Clauses → List Row
  | .done => []
  | .fallback body => ⟨depth, "default:", none⟩ :: body.rows (depth + 1) false
  | .clause values body rest =>
    ⟨depth, clauseLabel values, none⟩ :: (body.rows (depth + 1) false ++ rest.rows depth)

end

/-- The lines, of which some have newlines in them, have the given texts as their lines. -/
structure Spelled (ls texts : List String) : Prop where
  nil_iff : ls = [] ↔ texts = []
  joined_eq : "\n".intercalate ls = "\n".intercalate texts

theorem Spelled.refl (ls : List String) : Spelled ls ls := ⟨.rfl, rfl⟩

theorem Spelled.append {a b a' b' : List String} (ha : Spelled a a') (hb : Spelled b b') :
    Spelled (a ++ b) (a' ++ b') := by
  refine ⟨by simp [ha.nil_iff, hb.nil_iff], ?_⟩
  by_cases hna : a = []
  · have hna' := ha.nil_iff.1 hna
    rw [hna, hna']
    exact hb.joined_eq
  · by_cases hnb : b = []
    · rw [hnb, hb.nil_iff.1 hnb, List.append_nil, List.append_nil]
      exact ha.joined_eq
    · rw [joined_append hna hnb, ha.joined_eq, hb.joined_eq,
        joined_append (mt ha.nil_iff.2 hna) (mt hb.nil_iff.2 hnb)]

theorem Spelled.cons {a a' : List String} (t : String) (h : Spelled a a') :
    Spelled (t :: a) (t :: a') := (Spelled.refl [t]).append h

theorem Spelled.joined {ls texts : List String} (h : Spelled ls texts) (hne : ls ≠ []) :
    Spelled ["\n".intercalate ls] texts :=
  ⟨by simp [mt h.nil_iff.2 hne], by rw [joined_singleton, h.joined_eq]⟩

theorem spelled_branch {label : String} {b : Block} {texts : List String}
    (h : Spelled b.lines texts) : Spelled (Switch.branch label b) (label :: texts) := by
  unfold Switch.branch
  split_ifs with he
  · have hnil : b.lines = [] := by simpa [Block.isEmpty] using he
    rw [h.nil_iff.1 hnil]
    exact .refl _
  · exact (h.joined (by simpa [Block.isEmpty] using he)).cons label

namespace Switch

def clauseLines (s : Switch) : List String :=
  s.cases.flatMap (fun c ↦ branch (clauseLabel c.values) c.body) ++
    s.fallback.toList.flatMap (branch "default:")

theorem lines_eq (s : Switch) : s.lines = s.head :: (s.clauseLines ++ ["\x7d"]) := by
  simp [lines, clauseLines, clauseLabel]

end Switch

theorem Subject.eq_of_start {subject : Subject} {s : Switch} (h : subject.start = .ok s) :
    s = { head := subject.head } := by
  cases subject with
  | value subject =>
    obtain ⟨-, -, h⟩ := bind_eq_ok h
    cases h
    rfl
  | type binding subject =>
    obtain ⟨-, -, h⟩ := bind_eq_ok h
    obtain ⟨-, -, h⟩ := bind_eq_ok h
    cases h
    rfl

mutual

/-- The rows have the text of the steps. -/
theorem Outline.spelled (depth : Nat) (inStruct : Bool) : (o : Outline) → {steps : List Step} →
    o.steps = .ok steps →
      Spelled (steps.flatMap Step.lines) ((o.rows depth inStruct).map Row.text)
  | .nil, _, h => by
    cases h
    exact .refl _
  | .plain s _ rest, _, h => by
    obtain ⟨steps, hrest, h⟩ := bind_eq_ok h
    cases h
    simp only [Outline.rows, List.map_append, List.map_map, List.flatMap_cons]
    refine Spelled.append ?_ (rest.spelled depth inStruct hrest)
    simpa [Function.comp_def] using Spelled.refl s.lines
  | .branching init left op right first tail rest, _, h => by
    obtain ⟨a, ha, h⟩ := bind_eq_ok h
    obtain ⟨t, ht, h⟩ := bind_eq_ok h
    obtain ⟨b, hb, h⟩ := bind_eq_ok h
    cases h
    simp only [Outline.rows, List.map_append, List.map_map, List.flatMap_cons,
      List.flatMap_append]
    refine Spelled.append ?_ ((first.spelled _ _ ha).append
      ((tail.spelled depth ht).append (rest.spelled depth inStruct hb)))
    simpa [Function.comp_def] using Spelled.refl (ifStep init left op right).lines
  | .loop key value list inner rest, _, h => by
    obtain ⟨a, ha, h⟩ := bind_eq_ok h
    obtain ⟨b, hb, h⟩ := bind_eq_ok h
    cases h
    simp only [Outline.rows, List.map_append, List.map_map, List.map_cons, List.flatMap_cons,
      List.flatMap_append]
    refine Spelled.append ?_
      ((inner.spelled _ _ ha).append ((rest.spelled depth inStruct hb).cons _))
    simpa [Function.comp_def] using Spelled.refl (Step.rangeBegin key value list).lines
  | .switch subject clauses rest, _, h => by
    obtain ⟨start, hstart, h⟩ := bind_eq_ok h
    obtain ⟨s, hs, h⟩ := bind_eq_ok h
    obtain ⟨b, hb, h⟩ := bind_eq_ok h
    cases h
    obtain rfl := Subject.eq_of_start hstart
    obtain ⟨hhead, more, hmore, hclauses⟩ := clauses.spelled depth hs rfl
    have hsource : Spelled [s.source]
        (subject.head :: ((clauses.rows depth).map Row.text ++ ["\x7d"])) := by
      refine Spelled.joined ?_ (by simp [Switch.lines])
      rw [Switch.lines_eq, hhead, hmore]
      exact (hclauses.append (.refl _)).cons _
    have hall := hsource.append (rest.spelled depth inStruct hb)
    simpa [Outline.rows, Step.lines] using hall

theorem Branches.spelled (depth : Nat) : (t : Branches) → {steps : List Step} →
    t.steps = .ok steps → Spelled (steps.flatMap Step.lines) ((t.rows depth).map Row.text)
  | .close, _, h => by
    cases h
    exact .refl _
  | .elseBranch last, _, h => by
    obtain ⟨a, ha, h⟩ := bind_eq_ok h
    cases h
    have hall := ((last.spelled (depth + 1) false ha).append (.refl ["\x7d"])).cons "\x7d else \x7b"
    simpa [Branches.rows, Step.lines] using hall
  | .elseIf left op right next tail, _, h => by
    obtain ⟨a, ha, h⟩ := bind_eq_ok h
    obtain ⟨t, ht, h⟩ := bind_eq_ok h
    cases h
    have hall := ((next.spelled (depth + 1) (!takesBranches right) ha).append
      (tail.spelled depth ht)).cons ("\x7d else if " ++ Step.conditionText left op right ++ " \x7b")
    simpa [Branches.rows, Step.lines] using hall

theorem Clauses.spelled (depth : Nat) : (c : Clauses) → {s s' : Switch} → c.fill s = .ok s' →
    s.fallback = none → s'.head = s.head ∧ ∃ more, s'.clauseLines = s.clauseLines ++ more ∧
      Spelled more ((c.rows depth).map Row.text)
  | .done, _, _, h, _ => by
    cases h
    exact ⟨rfl, [], (List.append_nil _).symm, .refl _⟩
  | .fallback body, s, _, h, hnone => by
    obtain ⟨steps, hsteps, h⟩ := bind_eq_ok h
    obtain ⟨b, hb, h⟩ := bind_eq_ok h
    cases h
    refine ⟨rfl, Switch.branch "default:" b, ?_, spelled_branch ?_⟩
    · simp [Switch.clauseLines, Switch.withFallback, hnone]
    · rw [Block.spells_of_ofSteps hb]
      exact body.spelled (depth + 1) false hsteps
  | .clause values body rest, s, _, h, hnone => by
    obtain ⟨steps, hsteps, h⟩ := bind_eq_ok h
    obtain ⟨b, hb, h⟩ := bind_eq_ok h
    obtain ⟨next, hnext, h⟩ := bind_eq_ok h
    obtain rfl := Switch.eq_of_addCase hnext
    obtain ⟨hhead, more, hmore, hrest⟩ := rest.spelled depth h hnone
    refine ⟨hhead, Switch.branch (clauseLabel values) b ++ more, ?_, ?_⟩
    · rw [hmore]
      simp [Switch.clauseLines, hnone]
    · have hbody : Spelled b.lines ((body.rows (depth + 1) false).map Row.text) := by
        rw [Block.spells_of_ofSteps hb]
        exact body.spelled (depth + 1) false hsteps
      have hbranch : Spelled (Switch.branch (clauseLabel values) b) _ := spelled_branch hbody
      simpa [Clauses.rows] using hbranch.append hrest

end

end RpcStubs
