import Mathlib.Tactic.Common
import RpcStubs.Code.File
import RpcStubs.Code.Step

namespace RpcStubs

section Success

variable {α β : Type} {x : Build α}

theorem bind_eq_ok {f : α → Build β} {r : β} (h : x >>= f = .ok r) :
    ∃ a, x = .ok a ∧ f a = .ok r := by
  cases x with
  | error e => cases h
  | ok a => exact ⟨a, rfl, h⟩

theorem eq_ok_of_mapError {g : Failure → Failure} {a : α} (h : x.mapError g = .ok a) :
    x = .ok a := by
  cases x with
  | error e => cases h
  | ok b => exact h

theorem eq_ok_of_inBuilder {builder : String} {a : α} (h : Build.inBuilder builder x = .ok a) :
    x = .ok a := eq_ok_of_mapError h

theorem getElem?_of_mapM_eq_ok {f : α → Build β} {l : List α} {bs : List β}
    (h : l.mapM f = .ok bs) :
    bs.length = l.length ∧
      ∀ (i : Nat) a, l[i]? = some a → ∃ b, bs[i]? = some b ∧ f a = .ok b := by
  induction l generalizing bs with
  | nil =>
    cases h
    simp
  | cons a l ih =>
    rw [List.mapM_cons] at h
    obtain ⟨b, hb, hrest⟩ := bind_eq_ok h
    obtain ⟨cs, hcs, hbs⟩ := bind_eq_ok hrest
    cases hbs
    obtain ⟨hlength, hall⟩ := ih hcs
    refine ⟨by simp [hlength], fun i a' ha' ↦ ?_⟩
    cases i with
    | zero =>
      cases ha'
      exact ⟨b, rfl, hb⟩
    | succ i => exact hall i a' ha'

theorem exists_of_mapM_eq_ok {f : α → Build β} {l : List α} {bs : List β}
    (h : l.mapM f = .ok bs) : ∀ a ∈ l, ∃ b, f a = .ok b := by
  intro a ha
  obtain ⟨i, hi⟩ := List.mem_iff_getElem?.1 ha
  obtain ⟨b, -, hb⟩ := (getElem?_of_mapM_eq_ok h).2 i a hi
  exact ⟨b, hb⟩

theorem mem_iff_of_mapM_eq_ok {f : α → Build β} {l : List α} {bs : List β}
    (h : l.mapM f = .ok bs) {b : β} : b ∈ bs ↔ ∃ a ∈ l, f a = .ok b := by
  induction l generalizing bs with
  | nil =>
    cases h
    simp
  | cons a l ih =>
    rw [List.mapM_cons] at h
    obtain ⟨c, hc, hrest⟩ := bind_eq_ok h
    obtain ⟨cs, hcs, hbs⟩ := bind_eq_ok hrest
    cases hbs
    simp [ih hcs, hc, eq_comm]

theorem foldlM_cons_eq_ok {f : β → α → Build β} {a : α} {l : List α} {b b' : β}
    (h : (a :: l).foldlM f b = .ok b') : ∃ c, f b a = .ok c ∧ l.foldlM f c = .ok b' := by
  rw [List.foldlM_cons] at h
  exact bind_eq_ok h

end Success

theorem name_of_ofString {s : String} {i : Identifier} (h : Identifier.ofString s = .ok i) :
    i.name = s := by
  unfold Identifier.ofString at h
  split at h
  · cases h
    rfl
  · cases h

theorem GoType.eq_of_declared {name : String} {t : GoType} (h : GoType.declared name = .ok t) :
    t = .named name none none := by
  obtain ⟨-, -, h⟩ := bind_eq_ok h
  cases h
  rfl

namespace Method

@[simp] theorem name_withComment (m : Method) (text : String) :
    (m.withComment text).name = m.name :=
  rfl

@[simp] theorem name_withBody (m : Method) (body : Block) : (m.withBody body).name = m.name := rfl

@[simp] theorem body_withBody (m : Method) (body : Block) :
    (m.withBody body).function.body = body := rfl

variable {receiver name : String} {type : GoType} {params : List Parameter} {results : List GoType}

theorem eq_of_new {m : Method} (h : Method.new receiver type name params results = .ok m) :
    ∃ i j : Identifier, i.name = receiver ∧ j.name = name ∧
      m = ⟨i, type, { name := j, params, results }⟩ := by
  unfold Method.new at h
  split_ifs at h
  · cases h
  · obtain ⟨i, hi, h⟩ := bind_eq_ok (eq_ok_of_inBuilder h)
    obtain ⟨f, hf, h⟩ := bind_eq_ok h
    obtain ⟨-, -, hf⟩ := bind_eq_ok hf
    obtain ⟨j, hj, hf⟩ := bind_eq_ok hf
    cases h
    cases hf
    exact ⟨i, j, name_of_ofString hi, name_of_ofString hj, rfl⟩

theorem name_of_new {m : Method} (h : Method.new receiver type name params results = .ok m) :
    m.name = name := by
  obtain ⟨_, _, -, hname, rfl⟩ := eq_of_new h
  exact hname

end Method

theorem Function.eq_of_new {name : String} {params : List Parameter} {results : List GoType}
    {f : Function} (h : Function.new name params results = .ok f) :
    ∃ i : Identifier, i.name = name ∧ f = { name := i, params, results } := by
  obtain ⟨-, -, h⟩ := bind_eq_ok (eq_ok_of_inBuilder h)
  obtain ⟨i, hi, h⟩ := bind_eq_ok h
  cases h
  exact ⟨i, name_of_ofString hi, rfl⟩

theorem FuncLiteral.eq_of_new {name : String} {params : List Parameter} {results : List GoType}
    {f : FuncLiteral} (h : FuncLiteral.new name params results = .ok f) :
    f.name.name = name ∧ f.params = params ∧ f.results = results := by
  obtain ⟨-, -, h⟩ := bind_eq_ok (eq_ok_of_inBuilder h)
  obtain ⟨i, hi, h⟩ := bind_eq_ok h
  cases h
  exact ⟨name_of_ofString hi, rfl, rfl⟩

namespace Structure

theorem eq_of_addField {s s' : Structure} {name : String} {type : GoType}
    (h : s.addField name type = .ok s') : ∃ d : Field, d.name.map (·.name) = some name ∧
      d.type = type ∧ s' = { s with fields := s.fields ++ [d] } := by
  obtain ⟨i, hi, h⟩ := bind_eq_ok h
  cases h
  refine ⟨_, ?_, rfl, rfl⟩
  exact congrArg some (name_of_ofString (eq_ok_of_inBuilder hi))

theorem addMethods_eq (s : Structure) (methods : List Method) :
    methods.foldl addMethod s = { s with methods := s.methods ++ methods } := by
  induction methods generalizing s with
  | nil => simp
  | cons m methods ih =>
    rw [List.foldl_cons, ih]
    simp [addMethod]

theorem methods_addMethods (s : Structure) (methods : List Method) :
    (methods.foldl addMethod s).methods = s.methods ++ methods := by rw [addMethods_eq]

theorem fields_addMethods (s : Structure) (methods : List Method) :
    (methods.foldl addMethod s).fields = s.fields := by rw [addMethods_eq]

theorem name_addMethods (s : Structure) (methods : List Method) :
    (methods.foldl addMethod s).name = s.name := by rw [addMethods_eq]

end Structure

theorem StructLiteral.fields_of_addField {l l' : StructLiteral} {name value : String}
    (h : l.addField name value = .ok l') : l'.fields = l.fields ++ [(name, value)] := by
  simp only [addField] at h
  split_ifs at h
  · cases h
  · obtain ⟨-, -, h⟩ := bind_eq_ok h
    obtain ⟨-, -, h⟩ := bind_eq_ok h
    cases h
    rfl

theorem SliceLiteral.eq_of_pushes {values : List String} {start l : SliceLiteral}
    (h : values.foldlM push start = .ok l) :
    l = { start with values := start.values ++ values } := by
  induction values generalizing start with
  | nil =>
    cases h
    simp
  | cons value values ih =>
    obtain ⟨next, hnext, h⟩ := foldlM_cons_eq_ok h
    obtain ⟨-, -, hnext⟩ := bind_eq_ok hnext
    cases hnext
    rw [ih h]
    simp

theorem Switch.eq_of_addCase {s s' : Switch} {values : List String} {body : Block}
    (h : s.addCase values body = .ok s') :
    s' = { s with cases := s.cases ++ [⟨values, body⟩] } := by
  simp only [addCase] at h
  split_ifs at h
  · cases h
  · obtain ⟨-, -, h⟩ := bind_eq_ok h
    cases h
    rfl

theorem Const.type_of_new {name value : String} {type : GoType} {d : Const}
    (h : Const.new name type value = .ok d) : d.type = type := by
  obtain ⟨i, -, h⟩ := bind_eq_ok h
  dsimp only at h
  split_ifs at h
  · cases h
  · cases h
    rfl

theorem Var.type_of_new {name value : String} {type : Option GoType} {d : Var}
    (h : Var.new name type value = .ok d) : d.type = type := by
  obtain ⟨i, -, h⟩ := bind_eq_ok h
  dsimp only at h
  split_ifs at h
  · cases h
  · cases h
    rfl

theorem GoFile.eq_of_new {package schemaFile : String} {f : GoFile}
    (h : GoFile.new package schemaFile = .ok f) :
    ∃ i : Identifier, f = { package := i, fileName := Name.goFile schemaFile } := by
  unfold GoFile.new at h
  split_ifs at h
  · cases h
  · obtain ⟨i, -, h⟩ := bind_eq_ok h
    cases h
  · cases h
  · obtain ⟨i, -, h⟩ := bind_eq_ok h
    cases h
    exact ⟨i, rfl⟩

theorem Block.lines_append (a b : Block) : (a ++ b).lines = a.lines ++ b.lines := rfl

namespace Step

def conditionText (left : String) (op : Operator) (right : String) : String :=
  left ++ " " ++ op.symbol ++ " " ++ right

def scopedText (init left : String) (op : Operator) (right : String) : String :=
  "if " ++ init ++ "; " ++ conditionText left op right ++ " \x7b"

def lines : Step → List String
  | .uses _ => []
  | .call callee args => [callText callee args]
  | .defineCall targets callee args => [Name.valueList targets ++ " := " ++ callText callee args]
  | .assignCall targets callee args => [Name.valueList targets ++ " = " ++ callText callee args]
  | .declareVar name type => ["var " ++ name ++ " " ++ type.spell]
  | .newInstance name type => [name ++ " := new(" ++ type.spell ++ ")"]
  | .defineOperation name left op right =>
    [name ++ " := " ++ left ++ " " ++ op.symbol ++ " " ++ right]
  | .typeAssert targets value type =>
    [Name.valueList targets ++ " := " ++ value ++ ".(" ++ type.spell ++ ")"]
  | .assignField target field value => [target ++ "." ++ field ++ " = " ++ value]
  | .ifBegin left op right => ["if " ++ conditionText left op right ++ " \x7b"]
  | .ifScoped init left op right => [scopedText init left op right]
  | .elseIf left op right => ["\x7d else if " ++ conditionText left op right ++ " \x7b"]
  | .elseBegin => ["\x7d else \x7b"]
  | .close => ["\x7d"]
  | .rangeBegin key value list =>
    ["for " ++ key ++ ", " ++ value ++ " := range " ++ list ++ " \x7b"]
  | .deferCall callee args => ["defer " ++ callText callee args]
  | .ret => ["return"]
  | .returnValues values => ["return " ++ Name.valueList values]
  | .returnCall callee args => ["return " ++ callText callee args]
  | .nestedFunc func => [func.source]
  | .recoverGuard wrapper handler =>
    let body := [scopedText "r := recover()" "r" .notEqual "nil"] ++ handler.lines ++
      [callText "panic" ["r"]] ++ ["\x7d"]
    [braced (wrapper ++ " := func" ++ signature [] []) ("\n".intercalate body),
      "defer " ++ callText wrapper []]
  | .switch s => [s.source]
  | .sliceLiteral literal => [literal.source]
  | .structLiteral head literal byReference =>
    [head ++ " " ++ (if byReference then "&" else "") ++ literal.source]
  | .extend block => block.lines

theorem eq_of_checkedCall {callee text : String} {args : List String}
    (h : checkedCall callee args = .ok text) : text = callText callee args := by
  obtain ⟨-, -, h⟩ := bind_eq_ok h
  cases h
  rfl

theorem eq_of_callExpr {targets : List String} {callee text : String} {args : List String}
    (h : callExpr targets callee args = .ok text) :
    text = Name.valueList targets ++ " := " ++ callText callee args := by
  obtain ⟨-, -, h⟩ := bind_eq_ok h
  obtain ⟨-, -, h⟩ := bind_eq_ok h
  cases h
  rfl

theorem eq_of_condition {left right text : String} {op : Operator}
    (h : condition left op right = .ok text) : text = conditionText left op right := by
  obtain ⟨-, -, h⟩ := bind_eq_ok h
  obtain ⟨-, -, h⟩ := bind_eq_ok h
  obtain ⟨-, -, h⟩ := bind_eq_ok h
  cases h
  rfl

theorem eq_of_ifScopedLine {init left right text : String} {op : Operator}
    (h : ifScopedLine init left op right = .ok text) :
    text = scopedText init left op right := by
  obtain ⟨-, -, h⟩ := bind_eq_ok h
  obtain ⟨condition, hcondition, h⟩ := bind_eq_ok h
  cases h
  rw [eq_of_condition hcondition]
  rfl

theorem lines_emit {s : Step} {b : Block} (h : s.emit = .ok b) : b.lines = s.lines := by
  cases s with
  | uses | elseBegin | close | ret | nestedFunc | switch | sliceLiteral | extend =>
    cases h
    rfl
  | call callee args =>
    obtain ⟨text, htext, h⟩ := bind_eq_ok h
    cases h
    rw [eq_of_checkedCall htext]
    rfl
  | defineCall targets callee args =>
    obtain ⟨text, htext, h⟩ := bind_eq_ok h
    cases h
    rw [eq_of_callExpr htext]
    rfl
  | assignCall targets callee args =>
    obtain ⟨-, -, h⟩ := bind_eq_ok h
    obtain ⟨text, htext, h⟩ := bind_eq_ok h
    cases h
    rw [eq_of_checkedCall htext]
    rfl
  | declareVar name type =>
    obtain ⟨-, -, h⟩ := bind_eq_ok h
    cases h
    rfl
  | newInstance name type =>
    obtain ⟨-, -, h⟩ := bind_eq_ok h
    cases h
    rfl
  | defineOperation name left op right =>
    obtain ⟨-, -, h⟩ := bind_eq_ok h
    obtain ⟨-, -, h⟩ := bind_eq_ok h
    obtain ⟨-, -, h⟩ := bind_eq_ok h
    obtain ⟨-, -, h⟩ := bind_eq_ok h
    cases h
    rfl
  | typeAssert targets value type =>
    obtain ⟨-, -, h⟩ := bind_eq_ok h
    obtain ⟨-, -, h⟩ := bind_eq_ok h
    cases h
    rfl
  | assignField target field value =>
    obtain ⟨-, -, h⟩ := bind_eq_ok h
    obtain ⟨-, -, h⟩ := bind_eq_ok h
    obtain ⟨-, -, h⟩ := bind_eq_ok h
    cases h
    rfl
  | ifBegin left op right =>
    obtain ⟨text, htext, h⟩ := bind_eq_ok h
    cases h
    rw [eq_of_condition htext]
    rfl
  | ifScoped init left op right =>
    obtain ⟨text, htext, h⟩ := bind_eq_ok h
    cases h
    rw [eq_of_ifScopedLine htext]
    rfl
  | elseIf left op right =>
    obtain ⟨text, htext, h⟩ := bind_eq_ok h
    cases h
    rw [eq_of_condition htext]
    rfl
  | rangeBegin key value list =>
    obtain ⟨-, -, h⟩ := bind_eq_ok h
    obtain ⟨-, -, h⟩ := bind_eq_ok h
    cases h
    rfl
  | deferCall callee args =>
    obtain ⟨text, htext, h⟩ := bind_eq_ok h
    cases h
    rw [eq_of_checkedCall htext]
    rfl
  | returnValues values =>
    simp only [emit] at h
    split_ifs at h
    · cases h
    · obtain ⟨-, -, h⟩ := bind_eq_ok h
      cases h
      rfl
  | returnCall callee args =>
    obtain ⟨text, htext, h⟩ := bind_eq_ok h
    cases h
    rw [eq_of_checkedCall htext]
    rfl
  | recoverGuard wrapper handler =>
    obtain ⟨-, -, h⟩ := bind_eq_ok h
    obtain ⟨guard, hguard, h⟩ := bind_eq_ok h
    obtain ⟨again, hagain, h⟩ := bind_eq_ok h
    obtain ⟨func, hfunc, h⟩ := bind_eq_ok h
    obtain ⟨call, hcall, h⟩ := bind_eq_ok h
    cases h
    rw [eq_of_ifScopedLine hguard, eq_of_checkedCall hagain, eq_of_checkedCall hcall]
    obtain ⟨hname, hparams, hresults⟩ := FuncLiteral.eq_of_new hfunc
    simp only [Block.lines_append, FuncLiteral.source, FuncLiteral.withBody, hname, hparams,
      hresults]
    rfl
  | structLiteral head literal byReference =>
    simp only [emit] at h
    split at h
    · cases h
    · cases h
      rfl

end Step

theorem Block.ofSteps_cons_eq_ok {s : Step} {rest : List Step} {b : Block}
    (h : Block.ofSteps (s :: rest) = .ok b) :
    ∃ first tail, s.emit = .ok first ∧ Block.ofSteps rest = .ok tail ∧ b = first ++ tail := by
  obtain ⟨first, hfirst, h⟩ := bind_eq_ok h
  obtain ⟨tail, htail, h⟩ := bind_eq_ok h
  cases h
  exact ⟨first, tail, hfirst, htail, rfl⟩

def Block.Spells (b : Block) (steps : List Step) : Prop := b.lines = steps.flatMap Step.lines

theorem Block.spells_of_ofSteps {steps : List Step} {b : Block} (h : Block.ofSteps steps = .ok b) :
    b.Spells steps := by
  induction steps generalizing b with
  | nil =>
    cases h
    rfl
  | cons s rest ih =>
    obtain ⟨first, tail, hfirst, htail, rfl⟩ := ofSteps_cons_eq_ok h
    rw [Spells, lines_append, Step.lines_emit hfirst, ih htail, List.flatMap_cons]

end RpcStubs
