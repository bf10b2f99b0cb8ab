import RpcStubs.Proofs.Code.Contributions
import RpcStubs.Proofs.Code.Success

namespace RpcStubs

inductive Source where
  | type (t : GoType)
  | package (i : Import)

def Source.imports : Source → ImportSet
  | .type t => t.imports
  | .package i => .ofList [i]

namespace Step

def isFlat : Step → Bool
  | .nestedFunc _ | .recoverGuard _ _ | .switch _ | .sliceLiteral _ | .structLiteral ..
  | .extend _ => false
  | _ => true

def sources : Step → List Source
  | .uses package => [.package package]
  | .declareVar _ t | .newInstance _ t | .typeAssert _ _ t => [.type t]
  | _ => []

def packages : Step → ImportSet
  | .uses package => .ofList [package]
  | .declareVar _ t | .newInstance _ t | .typeAssert _ _ t => t.imports
  | .nestedFunc func => func.imports
  | .recoverGuard _ handler => handler.imports
  | .switch s => s.imports
  | .sliceLiteral literal => literal.imports
  | .structLiteral _ literal _ => literal.imports
  | .extend block => block.imports
  | _ => ∅

theorem imports_emit {step : Step} {piece : Block} (h : step.emit = .ok piece) :
    piece.imports = step.packages := by
  cases step with
  | uses | elseBegin | close | ret | nestedFunc | switch | sliceLiteral | extend =>
    cases h
    rfl
  | call | defineCall | declareVar | newInstance | ifBegin | ifScoped | elseIf | deferCall
  | returnCall =>
    obtain ⟨_, -, h⟩ := bind_eq_ok h
    cases h
    rfl
  | assignCall | typeAssert | rangeBegin =>
    obtain ⟨_, -, h⟩ := bind_eq_ok h
    obtain ⟨_, -, h⟩ := bind_eq_ok h
    cases h
    rfl
  | assignField =>
    obtain ⟨_, -, h⟩ := bind_eq_ok h
    obtain ⟨_, -, h⟩ := bind_eq_ok h
    obtain ⟨_, -, h⟩ := bind_eq_ok h
    cases h
    rfl
  | defineOperation =>
    obtain ⟨_, -, h⟩ := bind_eq_ok h
    obtain ⟨_, -, h⟩ := bind_eq_ok h
    obtain ⟨_, -, h⟩ := bind_eq_ok h
    obtain ⟨_, -, h⟩ := bind_eq_ok h
    cases h
    rfl
  | returnValues values =>
    simp only [emit] at h
    split_ifs at h
    · cases h
    · obtain ⟨_, -, h⟩ := bind_eq_ok h
      cases h
      rfl
  | recoverGuard wrapper handler =>
    obtain ⟨-, -, h⟩ := bind_eq_ok h
    obtain ⟨guard, -, h⟩ := bind_eq_ok h
    obtain ⟨again, -, h⟩ := bind_eq_ok h
    obtain ⟨func, hfunc, h⟩ := bind_eq_ok h
    obtain ⟨call, -, h⟩ := bind_eq_ok h
    cases h
    obtain ⟨-, hparams, hresults⟩ := FuncLiteral.eq_of_new hfunc
    apply OrderedSet.ext_mem
    intro i
    have hlines (a b : Block) : (a ++ b).imports = a.imports ∪ b.imports := rfl
    have hline (text : String) : (line text).imports = ∅ := rfl
    have hsignature : signatureImports [] [] = ∅ := rfl
    simp [hlines, hline, FuncLiteral.imports, FuncLiteral.withBody, hparams, hresults, hsignature,
      packages]
  | structLiteral head literal byReference =>
    simp only [emit] at h
    split at h
    · cases h
    · cases h
      rfl

end Step

def signatureSources (params : List Parameter) (results : List GoType) : List Source :=
  (params.map (·.type) ++ results).map .type

namespace Construction

inductive Kind where
  | block
  | func
  | switch
  | slice
  | struct
  | const
  | var
  | interface
  | prototype
  | structType
  | function
  | method
  | closure

abbrev Object : Kind → Type
  | .block => Block
  | .func => FuncLiteral
  | .switch => Switch
  | .slice => SliceLiteral
  | .struct => StructLiteral
  | .const => Const
  | .var => Var
  | .interface => Interface
  | .prototype => Prototype
  | .structType => Structure
  | .function => Function
  | .method => Method
  | .closure => Closure

def imports : (k : Kind) → Object k → ImportSet
  | .block, b => b.imports
  | .func, f => f.imports
  | .switch, s => s.imports
  | .slice, l => l.imports
  | .struct, l => l.imports
  | .const, d => d.imports
  | .var, d => d.imports
  | .interface, d => d.imports
  | .prototype, d => d.imports
  | .structType, d => d.imports
  | .function, f => f.imports
  | .method, m => m.imports
  | .closure, c => c.imports

end Construction

open Construction in
/-- The calls that make an object of a kind, with the calls that make its parts. A body that calls
go on with is that of a function. -/
inductive Construction : Kind → Type where
  | emptyBlock : Construction .block
  | funcBody (f : Construction .func) : Construction .block
  | functionBody (f : Construction .function) : Construction .block
  | methodBody (m : Construction .method) : Construction .block
  | write (b : Construction .block) (step : Step) (flat : step.isFlat = true) : Construction .block
  | nestedFunc (b : Construction .block) (f : Construction .func) : Construction .block
  | recoverGuard (b : Construction .block) (wrapper : String) (handler : Construction .block) :
    Construction .block
  | switch (b : Construction .block) (s : Construction .switch) : Construction .block
  | sliceLiteral (b : Construction .block) (l : Construction .slice) : Construction .block
  | structLiteral (b : Construction .block) (head : String) (l : Construction .struct)
    (byReference : Bool) : Construction .block
  | extend (b other : Construction .block) : Construction .block
  | func (name : String) (params : List Parameter) (results : List GoType) : Construction .func
  | withFuncBody (f : Construction .func) (b : Construction .block) : Construction .func
  | onValue (subject : String) : Construction .switch
  | onType (binding subject : String) : Construction .switch
  | case (s : Construction .switch) (values : List String) (b : Construction .block) :
    Construction .switch
  | fallback (s : Construction .switch) (b : Construction .block) : Construction .switch
  | slice (name : String) (element : GoType) (fixed : Bool) : Construction .slice
  | push (l : Construction .slice) (value : String) : Construction .slice
  | struct (type : GoType) : Construction .struct
  | fieldValue (l : Construction .struct) (name value : String) : Construction .struct
  | const (name : String) (type : GoType) (value : String) : Construction .const
  | commentConst (d : Construction .const) (comment : Comment) : Construction .const
  | var (name : String) (type : Option GoType) (value : String) : Construction .var
  | bytes (name : String) (data : List UInt8) : Construction .var
  | commentVar (d : Construction .var) (comment : Comment) : Construction .var
  | interface (name : String) : Construction .interface
  | signature (d : Construction .interface) (name : String) (params : List Parameter)
    (results : List GoType) (comment : String) : Construction .interface
  | commentInterface (d : Construction .interface) (comment : Comment) : Construction .interface
  | prototype (name : String) (params : List Parameter) (results : List GoType) :
    Construction .prototype
  | commentPrototype (d : Construction .prototype) (text : String) : Construction .prototype
  | structType (name : String) : Construction .structType
  | field (d : Construction .structType) (name : String) (type : GoType) : Construction .structType
  | commentedField (d : Construction .structType) (name : String) (type : GoType)
    (comment : String) : Construction .structType
  | taggedField (d : Construction .structType) (name : String) (type : GoType) (tag : String) :
    Construction .structType
  | embedded (d : Construction .structType) (type : GoType) : Construction .structType
  | addMethod (d : Construction .structType) (m : Construction .method) : Construction .structType
  | commentStructure (d : Construction .structType) (text : String) : Construction .structType
  | function (name : String) (params : List Parameter) (results : List GoType) :
    Construction .function
  | withFunctionBody (f : Construction .function) (b : Construction .block) : Construction .function
  | commentFunction (f : Construction .function) (text : String) : Construction .function
  | method (receiver : String) (type : GoType) (name : String) (params : List Parameter)
    (results : List GoType) : Construction .method
  | withMethodBody (m : Construction .method) (b : Construction .block) : Construction .method
  | commentMethod (m : Construction .method) (text : String) : Construction .method
  | closure (name : String) (params innerParams : List Parameter) (innerResults : List GoType) :
    Construction .closure
  | withOuter (c : Construction .closure) (b : Construction .block) : Construction .closure
  | withInner (c : Construction .closure) (b : Construction .block) : Construction .closure
  | commentClosure (c : Construction .closure) (text : String) : Construction .closure

namespace Construction

variable {k : Kind}

def run : {k : Kind} → Construction k → Build (Object k)
  | _, .emptyBlock => .ok ({} : Block)
  | _, .funcBody f => do return FuncLiteral.body (← f.run)
  | _, .functionBody f => do return Function.body (← f.run)
  | _, .methodBody m => do return (Method.function (← m.run)).body
  | _, .write b step _ => do Block.add (← b.run) step
  | _, .nestedFunc b f => do Block.add (← b.run) (.nestedFunc (← f.run))
  | _, .recoverGuard b wrapper handler => do
    Block.add (← b.run) (.recoverGuard wrapper (← handler.run))
  | _, .switch b s => do Block.add (← b.run) (.switch (← s.run))
  | _, .sliceLiteral b l => do Block.add (← b.run) (.sliceLiteral (← l.run))
  | _, .structLiteral b head l byReference => do
    Block.add (← b.run) (.structLiteral head (← l.run) byReference)
  | _, .extend b other => do Block.add (← b.run) (.extend (← other.run))
  | _, .func name params results => FuncLiteral.new name params results
  | _, .withFuncBody f b => do return FuncLiteral.withBody (← f.run) (← b.run)
  | _, .onValue subject => Switch.onValue subject
  | _, .onType binding subject => Switch.onType binding subject
  | _, .case s values b => do Switch.addCase (← s.run) values (← b.run)
  | _, .fallback s b => do return Switch.withFallback (← s.run) (← b.run)
  | _, .slice name element fixed => SliceLiteral.new name element fixed
  | _, .push l value => do SliceLiteral.push (← l.run) value
  | _, .struct type => .ok ({ type } : StructLiteral)
  | _, .fieldValue l name value => do StructLiteral.addField (← l.run) name value
  | _, .const name type value => Const.new name type value
  | _, .commentConst d comment => do return Const.withComment (← d.run) comment
  | _, .var name type value => Var.new name type value
  | _, .bytes name data => Var.bytes name data
  | _, .commentVar d comment => do return Var.withComment (← d.run) comment
  | _, .interface name => Interface.new name
  | _, .signature d name params results comment => do
    Interface.addMethod (← d.run) name params results comment
  | _, .commentInterface d comment => do return Interface.withComment (← d.run) comment
  | _, .prototype name params results => Prototype.new name params results
  | _, .commentPrototype d text => do return Prototype.withComment (← d.run) text
  | _, .structType name => Structure.new name
  | _, .field d name type => do Structure.addField (← d.run) name type
  | _, .commentedField d name type comment => do
    Structure.addCommentedField (← d.run) name type comment
  | _, .taggedField d name type tag => do Structure.addTaggedField (← d.run) name type tag
  | _, .embedded d type => do return Structure.addEmbedded (← d.run) type
  | _, .addMethod d m => do return Structure.addMethod (← d.run) (← m.run)
  | _, .commentStructure d text => do return Structure.withComment (← d.run) text
  | _, .function name params results => Function.new name params results
  | _, .withFunctionBody f b => do return Function.withBody (← f.run) (← b.run)
  | _, .commentFunction f text => do return Function.withComment (← f.run) text
  | _, .method receiver type name params results => Method.new receiver type name params results
  | _, .withMethodBody m b => do return Method.withBody (← m.run) (← b.run)
  | _, .commentMethod m text => do return Method.withComment (← m.run) text
  | _, .closure name params innerParams innerResults =>
    Closure.new name params innerParams innerResults
  | _, .withOuter c b => do return { (← c.run : Closure) with outer := ← b.run }
  | _, .withInner c b => do return { (← c.run : Closure) with inner := ← b.run }
  | _, .commentClosure c text => do return Closure.withComment (← c.run) text

/-- The types and packages that the calls on an object and on its parts were given. -/
structure Given where
  own : List Source := []
  /-- Lost when another body of a function, outer body of a closure or default branch is set. -/
  body : List Source := []
  /-- Lost when another inner body of a closure is set. -/
  inner : List Source := []

def Given.all (g : Given) : List Source := g.own ++ g.body ++ g.inner

def given : {k : Kind} → Construction k → Given
  | _, .emptyBlock | _, .onValue _ | _, .onType _ _ | _, .bytes _ _ | _, .interface _
  | _, .structType _ => {}
  | _, .funcBody f | _, .functionBody f | _, .methodBody f => { own := f.given.body }
  | _, .write b step _ => { own := b.given.own ++ step.sources }
  | _, .nestedFunc b part | _, .recoverGuard b _ part | _, .switch b part
  | _, .sliceLiteral b part | _, .structLiteral b _ part _ | _, .extend b part =>
    { own := b.given.own ++ part.given.all }
  | _, .func _ params results | _, .prototype _ params results | _, .function _ params results =>
    { own := signatureSources params results }
  | _, .method _ type _ params results => { own := .type type :: signatureSources params results }
  | _, .closure _ params innerParams innerResults =>
    { own := signatureSources params [] ++ signatureSources innerParams innerResults }
  | _, .withFuncBody f b | _, .withFunctionBody f b | _, .withMethodBody f b | _, .withOuter f b
  | _, .fallback f b => { f.given with body := b.given.all }
  | _, .withInner c b => { c.given with inner := b.given.all }
  | _, .case s _ b => { s.given with own := s.given.own ++ b.given.all }
  | _, .slice _ type _ | _, .struct type | _, .const _ type _ => { own := [.type type] }
  | _, .var _ type _ => { own := type.toList.map .type }
  | _, .signature d _ params results _ =>
    { own := d.given.own ++ signatureSources params results }
  | _, .field d _ type | _, .commentedField d _ type _ | _, .taggedField d _ type _
  | _, .embedded d type => { own := d.given.own ++ [.type type] }
  | _, .addMethod d m => { own := d.given.own ++ m.given.all }
  | _, .push d _ | _, .fieldValue d _ _ | _, .commentConst d _ | _, .commentVar d _
  | _, .commentInterface d _ | _, .commentPrototype d _ | _, .commentStructure d _
  | _, .commentFunction d _ | _, .commentMethod d _ | _, .commentClosure d _ => d.given

/-- The union of the imports of everything given and still held. -/
def imported (a : Construction k) : ImportSet :=
  .ofList (a.given.all.flatMap (·.imports.items))

def Mentions (l : List Source) (i : Import) : Prop := ∃ s ∈ l, i ∈ s.imports

@[simp] theorem mentions_nil (i : Import) : ¬Mentions [] i := by simp [Mentions]

@[simp] theorem mentions_append {l m : List Source} {i : Import} :
    Mentions (l ++ m) i ↔ Mentions l i ∨ Mentions m i := by
  simp [Mentions, or_and_right, exists_or]

@[simp] theorem mentions_cons {s : Source} {l : List Source} {i : Import} :
    Mentions (s :: l) i ↔ i ∈ s.imports ∨ Mentions l i := by
  simp [Mentions]

@[simp] theorem mentions_signature {params : List Parameter} {results : List GoType} {i : Import} :
    Mentions (signatureSources params results) i ↔ i ∈ signatureImports params results := by
  simp [Mentions, signatureSources, Layout.mem_signatureImports, Source.imports, GoType.imports,
    or_and_right, exists_or]

theorem mem_imported {a : Construction k} {i : Import} :
    i ∈ a.imported ↔ Mentions a.given.all i := by
  rw [imported, OrderedSet.mem_ofList, List.mem_flatMap]
  rfl

def own : (k : Kind) → Object k → ImportSet
  | .func, f => signatureImports f.params f.results
  | .switch, s => .ofList (s.cases.flatMap (·.body.imports.items))
  | .function, f => signatureImports f.params f.results
  | .method, m => signatureImports m.function.params m.function.results ∪ m.receiverType.imports
  | .closure, c => signatureImports c.params [] ∪ signatureImports c.innerParams c.innerResults
  | k, x => imports k x

def body : (k : Kind) → Object k → ImportSet
  | .func, f => f.body.imports
  | .switch, s => .ofList (s.fallback.toList.flatMap (·.imports.items))
  | .function, f => f.body.imports
  | .method, m => m.function.body.imports
  | .closure, c => c.outer.imports
  | _, _ => ∅

def inner : (k : Kind) → Object k → ImportSet
  | .closure, c => c.inner.imports
  | _, _ => ∅

theorem mem_imports {k : Kind} {x : Object k} {i : Import} :
    i ∈ imports k x ↔ i ∈ own k x ∨ i ∈ body k x ∨ i ∈ inner k x := by
  cases k with
  | func => simp [imports, own, body, inner, FuncLiteral.imports]
  | switch => simp [imports, own, body, inner, Switch.imports, Switch.bodies]
  | function => simp [imports, own, body, inner, Function.imports]
  | method => simp [imports, own, body, inner, Method.imports, Function.imports, or_right_comm]
  | closure => simp [imports, own, body, inner, Closure.imports, or_assoc]
  | _ => simp [own, body, inner]

/-- Every part of an object has the imports of what it was given. -/
structure Collects {k : Kind} (x : Object k) (g : Given) : Prop where
  own : ∀ i, i ∈ own k x ↔ Mentions g.own i
  body : ∀ i, i ∈ body k x ↔ Mentions g.body i
  inner : ∀ i, i ∈ inner k x ↔ Mentions g.inner i

theorem Collects.mem_imports {k : Kind} {x : Object k} {g : Given} (h : Collects x g) (i : Import) :
    i ∈ imports k x ↔ Mentions g.all i := by
  rw [Construction.mem_imports, h.own, h.body, h.inner, Given.all, mentions_append, mentions_append,
    or_assoc]

theorem Collects.add {b b' : Block} {g : Given} {step : Step} {l : List Source}
    (hb : Collects (k := .block) b g) (h : b.add step = .ok b')
    (hl : ∀ i, i ∈ step.packages ↔ Mentions l i) :
    Collects (k := .block) b' { own := g.own ++ l } := by
  obtain ⟨piece, hpiece, h⟩ := bind_eq_ok h
  cases h
  refine ⟨fun i ↦ ?_, by simp [Construction.body], by simp [Construction.inner]⟩
  have hpackages : i ∈ piece.imports ↔ Mentions l i := by
    rw [Step.imports_emit hpiece]
    exact hl i
  have hown := hb.own i
  rw [mentions_append, ← hown, ← hpackages]
  exact OrderedSet.mem_union

theorem packages_of_isFlat {step : Step} (h : step.isFlat = true) (i : Import) :
    i ∈ step.packages ↔ Mentions step.sources i := by
  cases step with
  | nestedFunc | recoverGuard | switch | sliceLiteral | structLiteral | extend => cases h
  | uses | declareVar | newInstance | typeAssert =>
    simp [Step.packages, Step.sources, Source.imports]
  | _ => simp [Step.packages, Step.sources]

theorem Collects.of_own {x : Object k} {l : List Source}
    (hown : ∀ i, i ∈ Construction.own k x ↔ Mentions l i)
    (hbody : Construction.body k x = ∅) (hinner : Construction.inner k x = ∅) :
    Collects x { own := l } :=
  ⟨hown, by simp [hbody], by simp [hinner]⟩

theorem Collects.appendField {d : Structure} {g : Given}
    (hd : Collects (k := .structType) d g) (f : Field) :
    Collects (k := .structType) { d with fields := d.fields ++ [f] }
      { own := g.own ++ [.type f.type] } := by
  refine .of_own (fun i ↦ ?_) rfl rfl
  rw [mentions_append, ← hd.own]
  simp [Construction.own, Construction.imports, Structure.imports, Source.imports, GoType.imports,
    or_assoc, or_comm (a := i ∈ f.type.origins)]

theorem Collects.pushField {d d' : Structure} {g : Given} {name comment : String} {type : GoType}
    {tag : Option String} (hd : Collects (k := .structType) d g)
    (h : d.pushField name type tag comment = .ok d') :
    Collects (k := .structType) d' { own := g.own ++ [.type type] } := by
  obtain ⟨i, -, h⟩ := bind_eq_ok h
  cases h
  exact hd.appendField _

/-- A call that fails makes nothing; what calls that succeed make holds what they were given. -/
theorem collects_run (a : Construction k) {x : Object k} (h : a.run = .ok x) :
    Collects x a.given := by
  induction a with
  | emptyBlock =>
    cases h
    exact .of_own (by simp [own, imports]) rfl rfl
  | funcBody f ih | functionBody f ih | methodBody f ih =>
    obtain ⟨f', hf, h⟩ := bind_eq_ok h
    cases h
    exact .of_own (ih hf).body rfl rfl
  | write b step flat ih =>
    obtain ⟨b', hb, h⟩ := bind_eq_ok h
    exact (ih hb).add h (packages_of_isFlat flat)
  | nestedFunc b part ihb ihp | recoverGuard b _ part ihb ihp | switch b part ihb ihp
  | sliceLiteral b part ihb ihp | structLiteral b _ part _ ihb ihp | extend b part ihb ihp =>
    obtain ⟨b', hb, h⟩ := bind_eq_ok h
    obtain ⟨part', hpart, h⟩ := bind_eq_ok h
    -- A step copies all that its part holds by then, so nothing of it is lost later.
    exact (ihb hb).add h (ihp hpart).mem_imports
  | func name params results =>
    obtain ⟨-, -, h⟩ := bind_eq_ok (eq_ok_of_inBuilder h)
    obtain ⟨i, -, h⟩ := bind_eq_ok h
    cases h
    exact .of_own (fun _ ↦ mentions_signature.symm) rfl rfl
  | withFuncBody f b ihf ihb | withFunctionBody f b ihf ihb | withMethodBody f b ihf ihb
  | withOuter f b ihf ihb =>
    obtain ⟨f', hf, h⟩ := bind_eq_ok h
    obtain ⟨b', hb, h⟩ := bind_eq_ok h
    cases h
    -- What the former body was given goes with it.
    exact ⟨(ihf hf).own, (ihb hb).mem_imports, (ihf hf).inner⟩
  | withInner f b ihf ihb =>
    obtain ⟨f', hf, h⟩ := bind_eq_ok h
    obtain ⟨b', hb, h⟩ := bind_eq_ok h
    cases h
    exact ⟨(ihf hf).own, (ihf hf).body, (ihb hb).mem_imports⟩
  | onValue subject =>
    obtain ⟨-, -, h⟩ := bind_eq_ok h
    cases h
    exact .of_own (by simp [own]) rfl rfl
  | onType binding subject =>
    obtain ⟨-, -, h⟩ := bind_eq_ok h
    obtain ⟨-, -, h⟩ := bind_eq_ok h
    cases h
    exact .of_own (by simp [own]) rfl rfl
  | case s values b ihs ihb =>
    obtain ⟨s', hs, h⟩ := bind_eq_ok h
    obtain ⟨b', hb, h⟩ := bind_eq_ok h
    obtain rfl := Switch.eq_of_addCase h
    refine ⟨fun i ↦ Iff.trans ?_ mentions_append.symm, (ihs hs).body, (ihs hs).inner⟩
    rw [← (ihs hs).own, ← (ihb hb).mem_imports]
    simp [own, imports, ← OrderedSet.mem_def]
  | fallback s b ihs ihb =>
    obtain ⟨s', hs, h⟩ := bind_eq_ok h
    obtain ⟨b', hb, h⟩ := bind_eq_ok h
    cases h
    refine ⟨(ihs hs).own, fun i ↦ Iff.trans ?_ ((ihb hb).mem_imports i), (ihs hs).inner⟩
    simp [body, imports, Switch.withFallback, ← OrderedSet.mem_def]
  | slice name element fixed =>
    obtain ⟨i, -, h⟩ := bind_eq_ok h
    cases h
    exact .of_own (by simp [own, imports, SliceLiteral.imports, Source.imports]) rfl rfl
  | push l value ih =>
    obtain ⟨l', hl, h⟩ := bind_eq_ok h
    obtain ⟨-, -, h⟩ := bind_eq_ok h
    cases h
    exact ⟨(ih hl).own, (ih hl).body, (ih hl).inner⟩
  | struct type =>
    cases h
    exact .of_own (by simp [own, imports, StructLiteral.imports, Source.imports]) rfl rfl
  | fieldValue l name value ih =>
    obtain ⟨l', hl, h⟩ := bind_eq_ok h
    simp only [StructLiteral.addField] at h
    split_ifs at h
    · cases h
    · obtain ⟨-, -, h⟩ := bind_eq_ok h
      obtain ⟨-, -, h⟩ := bind_eq_ok h
      cases h
      exact ⟨(ih hl).own, (ih hl).body, (ih hl).inner⟩
  | const name type value =>
    refine .of_own (fun i ↦ ?_) rfl rfl
    have htype : x.type = type := Const.type_of_new h
    simp [own, imports, Const.imports, Source.imports, htype]
  | var name type value =>
    refine .of_own (fun i ↦ ?_) rfl rfl
    have htype : x.type = type := Var.type_of_new h
    cases type <;> simp [own, imports, Var.imports, Source.imports, htype]
  | bytes name data =>
    refine .of_own (fun i ↦ ?_) rfl rfl
    have htype : x.type = none := Var.type_of_new h
    simp [own, imports, Var.imports, htype]
  | interface name =>
    obtain ⟨_, -, h⟩ := bind_eq_ok h
    cases h
    exact .of_own (by simp [own, imports, Interface.imports]) rfl rfl
  | signature d name params results comment ih =>
    obtain ⟨d', hd, h⟩ := bind_eq_ok h
    obtain ⟨-, -, h⟩ := bind_eq_ok (eq_ok_of_inBuilder h)
    obtain ⟨_, -, h⟩ := bind_eq_ok h
    cases h
    refine .of_own (fun i ↦ ?_) rfl rfl
    rw [mentions_append, mentions_signature, ← (ih hd).own]
    simp [own, imports, Interface.imports, ← OrderedSet.mem_def]
  | prototype name params results =>
    obtain ⟨-, -, h⟩ := bind_eq_ok (eq_ok_of_inBuilder h)
    obtain ⟨_, -, h⟩ := bind_eq_ok h
    cases h
    exact .of_own (fun _ ↦ mentions_signature.symm) rfl rfl
  | structType name =>
    obtain ⟨_, -, h⟩ := bind_eq_ok h
    cases h
    exact .of_own (by simp [own, imports, Structure.imports]) rfl rfl
  | field d _ _ ih | commentedField d _ _ _ ih | taggedField d _ _ _ ih =>
    obtain ⟨d', hd, h⟩ := bind_eq_ok h
    exact (ih hd).pushField h
  | embedded d type ih =>
    obtain ⟨d', hd, h⟩ := bind_eq_ok h
    cases h
    exact (ih hd).appendField _
  | addMethod d m ihd ihm =>
    obtain ⟨d', hd, h⟩ := bind_eq_ok h
    obtain ⟨m', hm, h⟩ := bind_eq_ok h
    cases h
    refine .of_own (fun i ↦ ?_) rfl rfl
    rw [mentions_append, ← (ihd hd).own, ← (ihm hm).mem_imports]
    simp [own, imports, Structure.imports, Structure.addMethod, ← OrderedSet.mem_def, or_assoc]
  | function name params results =>
    obtain ⟨i, -, rfl⟩ := Function.eq_of_new h
    exact .of_own (fun _ ↦ mentions_signature.symm) rfl rfl
  | method receiver type name params results =>
    obtain ⟨i, j, -, -, rfl⟩ := Method.eq_of_new h
    refine .of_own (fun i ↦ ?_) rfl rfl
    rw [mentions_cons, mentions_signature, or_comm]
    exact OrderedSet.mem_union
  | closure name params innerParams innerResults =>
    obtain ⟨-, -, h⟩ := bind_eq_ok (eq_ok_of_inBuilder h)
    obtain ⟨-, -, h⟩ := bind_eq_ok h
    obtain ⟨_, -, h⟩ := bind_eq_ok h
    cases h
    refine .of_own (fun i ↦ ?_) rfl rfl
    rw [mentions_append, mentions_signature, mentions_signature]
    exact OrderedSet.mem_union
  | commentConst d _ ih | commentVar d _ ih | commentInterface d _ ih | commentPrototype d _ ih
  | commentStructure d _ ih | commentFunction d _ ih | commentMethod d _ ih
  | commentClosure d _ ih =>
    obtain ⟨d', hd, h⟩ := bind_eq_ok h
    cases h
    exact ⟨(ih hd).own, (ih hd).body, (ih hd).inner⟩

theorem imports_eq_imported (a : Construction k) {x : Object k} (h : a.run = .ok x) :
    imports k x = a.imported := by
  apply OrderedSet.ext_mem
  intro i
  rw [mem_imported]
  exact (collects_run a h).mem_imports i

end Construction

namespace GoFile

/-- The calls that write a file. -/
inductive Call where
  | header (comment : Comment)
  | addImport (i : Import)
  | contribute (c : Contribution)

def call (f : GoFile) : Call → GoFile
  | .header comment => f.withHeader comment
  | .addImport i => f.addImport i
  | .contribute c => f.contribute c

def Call.imports : Call → ImportSet
  | .header _ => ∅
  | .addImport i => .ofList [i]
  | .contribute c => c.declaration.imports

theorem mem_declaredImports {f : GoFile} {i : Import} :
    i ∈ f.declaredImports ↔ i ∈ f.imports ∨ ∃ s, ∃ d ∈ f.entries s, i ∈ d.imports := by
  have hsections : (∃ s, ∃ d ∈ f.entries s, i ∈ d.imports) ↔
      ∃ s ∈ Section.all, ∃ d ∈ f.entries s, i ∈ d.imports :=
    exists_congr fun s ↦ (and_iff_right (by cases s <;> decide)).symm
  rw [hsections]
  simp [declaredImports, structures, Section.all, entries, Declaration.imports,
    ← OrderedSet.mem_def, or_and_right, exists_or, or_comm (b := i ∈ f.imports)]

theorem imports_contribute (f : GoFile) (c : Contribution) :
    (f.contribute c).imports = f.imports := by
  cases c with
  | add d =>
    cases d with
    | «structure» d =>
      simp only [contribute, add]
      split <;> rfl
    | _ => rfl
  | _ => rfl

theorem mem_declaredImports_call {f : GoFile} {c : Call} {i : Import} :
    i ∈ (f.call c).declaredImports ↔ i ∈ f.declaredImports ∨ i ∈ c.imports := by
  cases c with
  | header comment => exact (or_iff_left (OrderedSet.not_mem_empty i)).symm
  | addImport j =>
    rw [mem_declaredImports, mem_declaredImports]
    have hentries (s : Section) : (f.call (.addImport j)).entries s = f.entries s := by
      cases s <;> rfl
    have himports : i ∈ (f.call (.addImport j)).imports ↔ i ∈ f.imports ∨ i = j :=
      OrderedSet.mem_insert.trans or_comm
    have hcall : i ∈ (Call.addImport j).imports ↔ i = j := by simp [Call.imports]
    simp only [hentries]
    rw [himports, hcall, or_right_comm]
  | contribute c =>
    rw [mem_declaredImports, mem_declaredImports]
    have hnew : (∃ s, ∃ d ∈ (f.contribute c).entries s, i ∈ d.imports) ↔
        (∃ s, ∃ d ∈ f.entries s, i ∈ d.imports) ∨ i ∈ c.declaration.imports := by
      simp only [entries_contribute, List.mem_append, or_and_right, exists_or]
      apply or_congr_right
      constructor
      · rintro ⟨s, d, hd, hi⟩
        split_ifs at hd
        · rw [← List.mem_singleton.1 hd]
          exact hi
        · cases hd
      · intro hi
        exact ⟨c.place, c.declaration, by simp, hi⟩
    simp only [call, Call.imports]
    rw [imports_contribute, hnew, or_assoc]

theorem mem_declaredImports_calls {f : GoFile} {calls : List Call} {i : Import} :
    i ∈ (calls.foldl call f).declaredImports ↔
      i ∈ f.declaredImports ∨ ∃ c ∈ calls, i ∈ c.imports := by
  induction calls generalizing f with
  | nil => simp
  | cons c calls ih =>
    rw [List.foldl_cons, ih, mem_declaredImports_call]
    simp [or_assoc]

theorem declaredImports_of_new {package schemaFile : String} {f : GoFile}
    (h : GoFile.new package schemaFile = .ok f) : f.declaredImports = ∅ := by
  obtain ⟨i, rfl⟩ := eq_of_new h
  rfl

theorem declaredImports_calls {package schemaFile : String} {f : GoFile}
    (h : GoFile.new package schemaFile = .ok f) (calls : List Call) :
    (calls.foldl call f).declaredImports = .ofList (calls.flatMap (·.imports.items)) := by
  apply OrderedSet.ext_mem
  intro i
  rw [mem_declaredImports_calls, declaredImports_of_new h, OrderedSet.mem_ofList, List.mem_flatMap]
  exact or_iff_right (OrderedSet.not_mem_empty i)

end GoFile

namespace Construction

/-- Every layer of an object, and a file, forwards all imports that it was given, and no others. -/
theorem imports_run :
    (∀ {k : Kind} (a : Construction k) (x : Object k), a.run = .ok x → imports k x = a.imported) ∧
    ∀ (package schemaFile : String) (f : GoFile) (calls : List GoFile.Call),
      GoFile.new package schemaFile = .ok f →
        (calls.foldl GoFile.call f).declaredImports = .ofList (calls.flatMap (·.imports.items)) :=
  ⟨fun a _ ↦ imports_eq_imported a, fun _ _ _ calls h ↦ GoFile.declaredImports_calls h calls⟩

def typeOf (package : String) : GoType := .named "T" (some package) (some (.plain package))

def declaring (package : String) : Construction .block :=
  .write .emptyBlock (.declareVar "x" (typeOf package)) rfl

def guardedMethod : Construction .method :=
  let started := Construction.method "s" (typeOf "a").pointer "Do" [⟨"p", typeOf "b"⟩] []
  let branches := .case (.onType "v" "p") ["T"] (declaring "d")
  let switch := Construction.fallback (.fallback branches (declaring "e")) (declaring "f")
  let body := .recoverGuard (.switch (.write .emptyBlock (.uses (.plain "g")) rfl) switch) "guard"
    (declaring "h")
  .withMethodBody (.withMethodBody started (declaring "c")) body

def packages (names : List String) : ImportSet := .ofList (names.map .plain)

def constantCalls : List GoFile.Call :=
  [.addImport (.plain "fmt"), .contribute (.const ⟨⟨"c", by decide⟩, typeOf "a", "1", {}⟩),
    .header (.wrapped "Generated.")]

theorem imports_run_guardedMethod :
    (∃ m : Method, guardedMethod.run = .ok m ∧
      m.imports = packages ["a", "b", "d", "f", "g", "h"]) ∧
    ∃ f, GoFile.new "p" "a.proto" = .ok f ∧
      (constantCalls.foldl GoFile.call f).declaredImports = packages ["a", "fmt"] := by
  constructor
  · obtain ⟨m, hm⟩ := exists_of_isOk (x := guardedMethod.run) (by decide)
    exact ⟨m, hm, imports_run.1 guardedMethod m hm⟩
  · obtain ⟨f, hf⟩ := exists_of_isOk (x := GoFile.new "p" "a.proto") (by decide)
    exact ⟨f, hf, imports_run.2 "p" "a.proto" f constantCalls hf⟩

end Construction

end RpcStubs
