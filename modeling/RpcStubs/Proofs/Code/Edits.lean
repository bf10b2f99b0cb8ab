import Mathlib.Tactic.Common
import RpcStubs.Code.Edit
import RpcStubs.Proofs.Code.Inversion
import RpcStubs.Proofs.Code.Success

namespace RpcStubs

namespace Edit

variable {σ α : Type}

theorem ext_outcome {x y : Edit σ Unit} (h : ∀ s, x.outcome s = y.outcome s) : x = y :=
  ExceptT.ext (funext h)

/-- A call that changes nothing unless it succeeds. -/
def atomically (f : σ → Build σ) : Edit σ Unit :=
  ExceptT.mk fun s ↦
    match f s with
    | .ok t => pure (.ok (), t)
    | .error failure => pure (.error failure, s)

theorem check_bind_modify (x : Build α) (f : α → σ → σ) :
    (do
      let a ← check x
      modify (f a)) = atomically fun s ↦ do return f (← x) s := by
  cases x <;> rfl

theorem outcome_atomically (f : σ → Build σ) (s : σ) :
    (atomically f).outcome s =
      match f s with
      | .ok t => (.ok (), t)
      | .error failure => (.error failure, s) := by
  change (match f s with
    | .ok t => (pure (.ok (), t) : Id (Build Unit × σ))
    | .error failure => pure (.error failure, s)) = _
  cases f s <;> rfl

theorem build_atomically (f : σ → Build σ) (s : σ) : (atomically f).build s = f s := by
  rw [build, outcome_atomically]
  cases f s <;> rfl

theorem eq_of_outcome_atomically {f : σ → Build σ} {s t : σ} {failure : Failure}
    (h : (atomically f).outcome s = (.error failure, t)) : t = s := by
  rw [outcome_atomically] at h
  cases hs : f s with
  | ok u =>
    rw [hs] at h
    cases h
  | error e =>
    rw [hs] at h
    cases h
    rfl

def adds (x : Build Block) : Edit Block Unit :=
  atomically fun b ↦ do return b ++ (← x)

theorem check_bind_adds (x : Build α) (f : α → Build Block) :
    (do
      let a ← check x
      adds (f a)) = adds (x >>= f) := by
  cases x <;> rfl

end Edit

namespace Block

theorem append_assoc (a b c : Block) : a ++ b ++ c = a ++ (b ++ c) := by
  have hlines : (a ++ b ++ c).lines = (a ++ (b ++ c)).lines := List.append_assoc ..
  have himports : (a ++ b ++ c).imports = (a ++ (b ++ c)).imports := OrderedSet.union_assoc ..
  cases h : a ++ b ++ c
  cases h' : a ++ (b ++ c)
  simp_all

end Block

namespace Edit

theorem adds_bind_adds (a b : Block) :
    (do
      adds (.ok a)
      adds (.ok b)) = adds (.ok (a ++ b)) := by
  refine ext_outcome fun s ↦ ?_
  have hpieces : (do
      adds (.ok a)
      adds (.ok b) : Edit Block Unit).outcome s = (.ok (), s ++ a ++ b) := rfl
  have hwhole : (adds (.ok (a ++ b))).outcome s = (.ok (), s ++ (a ++ b)) := rfl
  rw [hpieces, hwhole, Block.append_assoc]

theorem push_eq (line : String) : Block.push line = adds (.ok (Step.line line)) := rfl

theorem pushTyped_eq (line : String) (type : GoType) :
    Block.pushTyped line type = adds (.ok (Step.typedLine line type)) := rfl

theorem pushAll_eq (other : Block) : Block.pushAll other = adds (.ok other) := rfl

theorem pushFunc_eq (func : FuncLiteral) :
    Block.pushFunc func = adds (.ok ⟨[func.source], func.imports⟩) := rfl

theorem pushCall_eq (head callee : String) (args : List String) :
    Block.pushCall head callee args = adds (do
      Step.checkCall callee args
      return Step.line (head ++ Step.callText callee args)) := by
  simp only [Block.pushCall, push_eq, check_bind_adds, Step.checkCall, bind_assoc]
  rfl

theorem pushIfScoped_eq (init left : String) (op : Operator) (right : String) :
    Block.pushIfScoped init left op right =
      adds (return Step.line (← Step.ifScopedLine init left op right)) := by
  simp only [Block.pushIfScoped, push_eq, check_bind_adds, Step.ifScopedLine, bind_assoc, pure_bind]
  rfl

theorem callable_of_legal {s : String} (h : identifierFault? s = none) : Callable s := by
  have hsegments : segments s = [s] := by
    have hdot : '.' ∉ s.toList := not_mem_of_isWord (isWord_of_legal h) (by decide +kernel)
    rw [segments, Text.pieces_of_not_mem hdot]
    simp
  refine ⟨by simpa using ne_empty_of_legal h, ?_⟩
  rw [hsegments]
  exact List.forall_mem_singleton.2 h

theorem legal_of_checkTargets {name : String} (h : Step.checkTargets [name] = .ok ()) :
    identifierFault? name = none := by
  have hnames := yields_checkIdentifiers [name]
  rw [eq_ok_of_mapError h] at hnames
  exact hnames.of_ok name List.mem_cons_self

theorem checkCall_of_checkTargets {name : String} (h : Step.checkTargets [name] = .ok ()) :
    Step.checkCall name [] = .ok () := by
  obtain ⟨_, hcall⟩ := exists_of_isOk
    (Step.isOk_checkCall (callable_of_legal (legal_of_checkTargets h)) (List.forall_mem_nil _))
  exact hcall

def guardLine : String := "if r := recover(); r != nil \x7b"

theorem ifScopedLine_guard :
    Step.ifScopedLine "r := recover()" "r" .notEqual "nil" = .ok guardLine := by decide

theorem checkCall_panic : Step.checkCall "panic" ["r"] = .ok () := by decide

theorem guardBody_eq (handler : Block) :
    Block.guardBody handler = .ok (Step.line guardLine ++ handler ++
      Step.line (Step.callText "panic" ["r"]) ++ Step.line "\x7d") := by
  rw [Block.guardBody, pushIfScoped_eq, ifScopedLine_guard, pushAll_eq, pushCall_eq,
    checkCall_panic, push_eq]
  have hbody : (build (do
      adds (.ok (Step.line guardLine))
      adds (.ok handler)
      adds (.ok (Step.line ("" ++ Step.callText "panic" ["r"])))
      adds (.ok (Step.line "\x7d"))) ({} : Block)) =
      .ok ({} ++ Step.line guardLine ++ handler ++ Step.line ("" ++ Step.callText "panic" ["r"]) ++
        Step.line "\x7d") := rfl
  rw [String.empty_append] at hbody
  exact hbody

theorem pushGuard_eq (wrapper : String) (handler : Block) :
    Block.pushGuard wrapper handler = adds (Step.recoverGuard wrapper handler).emit := by
  rw [Block.pushGuard, Step.emit, ifScopedLine_guard, Step.checkedCall, checkCall_panic]
  cases h : Step.checkTargets [wrapper] with
  | error failure => rfl
  | ok u =>
    obtain ⟨func, hfunc⟩ := exists_of_isOk (FuncLiteral.isOk_new [] (legal_of_checkTargets h))
    rw [guardBody_eq, hfunc, Step.checkedCall, checkCall_of_checkTargets h]
    have hdefer : Block.pushCall "defer " wrapper [] =
        adds (.ok (Step.line ("defer " ++ Step.callText wrapper []))) := by
      rw [pushCall_eq, checkCall_of_checkTargets h]
      rfl
    simp only [pushFunc_eq, hdefer]
    exact adds_bind_adds _ _

theorem perform_step (step : Step) : step.perform = adds step.emit := by
  cases step with
  | uses package =>
    refine ext_outcome fun b ↦ ?_
    change (_, { b with imports := b.imports.insert package }) =
      (_, (⟨b.lines ++ [], b.imports.insert package⟩ : Block))
    rw [List.append_nil]
  | call =>
    simp only [Step.perform, Step.emit, pushCall_eq, String.empty_append, Step.checkedCall,
      bind_assoc, pure_bind]
  | deferCall | returnCall =>
    simp only [Step.perform, Step.emit, pushCall_eq, Step.checkedCall, bind_assoc, pure_bind]
  | assignCall =>
    simp only [Step.perform, Step.emit, pushCall_eq, check_bind_adds, Step.checkedCall, bind_assoc,
      pure_bind]
  | declareVar | newInstance | typeAssert =>
    simp only [Step.perform, Step.emit, pushTyped_eq, check_bind_adds]
    rfl
  | defineCall | defineOperation | assignField | ifBegin | elseIf | rangeBegin =>
    simp only [Step.perform, Step.emit, push_eq, check_bind_adds]
    rfl
  | returnValues =>
    simp only [Step.perform, Step.emit, push_eq, check_bind_adds]
    split_ifs <;> rfl
  | structLiteral =>
    simp only [Step.perform, Step.emit]
    split_ifs <;> rfl
  | ifScoped init left op right => exact pushIfScoped_eq ..
  | recoverGuard wrapper handler => exact pushGuard_eq wrapper handler
  | elseBegin | close | ret | nestedFunc | switch | sliceLiteral | extend => rfl

end Edit

namespace Mutation

open Edit

variable {σ : Type}

def update : Mutation σ → σ → Build σ
  | .statement step, b => b.add step
  | .element value, l => l.push value
  | .fieldValue name value, l => l.addField name value
  | .case values body, s => s.addCase values body
  | .method name params results comment, i => i.addMethod name params results comment
  | .field name type, s => s.addField name type
  | .commentedField name type comment, s => s.addCommentedField name type comment
  | .taggedField name type tag, s => s.addTaggedField name type tag

theorem perform_pushField (name : String) (type : GoType) (tag : Option String) (comment : String) :
    pushField name type tag comment = atomically fun s ↦ s.pushField name type tag comment :=
  check_bind_modify (Build.inBuilder Structure.builder (Identifier.ofString name))
    fun name (s : Structure) ↦
      { s with fields := s.fields ++ [⟨some name, type, tag, .wrapped comment⟩] }

theorem perform_eq (m : Mutation σ) : m.perform = atomically m.update := by
  cases m with
  | statement step => exact perform_step step
  | element value =>
    exact check_bind_modify (checkOperand SliceLiteral.builder "value" value)
      fun _ (l : SliceLiteral) ↦ { l with values := l.values ++ [value] }
  | fieldValue name value =>
    refine ext_outcome fun l ↦ ?_
    rw [outcome_atomically]
    simp only [perform, update, StructLiteral.addField]
    split_ifs
    · rfl
    · cases Build.inBuilder StructLiteral.builder (checkIdentifier name) <;>
        cases checkOperand StructLiteral.builder "field value" value <;> rfl
  | case values body =>
    refine ext_outcome fun s ↦ ?_
    rw [outcome_atomically]
    simp only [perform, update, Switch.addCase]
    split_ifs
    · rfl
    · cases Switch.checkValues values <;> rfl
  | method name params results comment =>
    refine ext_outcome fun i ↦ ?_
    rw [outcome_atomically]
    simp only [perform, update, Interface.addMethod]
    cases Parameter.checkAll params <;> cases Identifier.exported name <;> rfl
  | field name type => exact perform_pushField ..
  | commentedField name type comment => exact perform_pushField ..
  | taggedField name type tag => exact perform_pushField ..

theorem build_perform (m : Mutation σ) (s : σ) : m.perform.build s = m.update s := by
  rw [perform_eq, build_atomically]

/-- A call that fails changes nothing, and a body only grows. -/
theorem perform_atomic :
    (∀ {σ : Type} (m : Mutation σ) (s t : σ) (failure : Failure),
      m.perform.outcome s = (.error failure, t) → t = s) ∧
    ∀ (step : Step) (b b' : Block), step.perform.outcome b = (.ok (), b') →
      b.lines <+: b'.lines ∧ ∀ i ∈ b.imports, i ∈ b'.imports := by
  constructor
  · intro σ m s t failure h
    rw [perform_eq] at h
    exact eq_of_outcome_atomically h
  · intro step b b' h
    rw [perform_step, adds, outcome_atomically] at h
    cases hpiece : step.emit with
    | error failure =>
      rw [hpiece] at h
      cases h
    | ok piece =>
      rw [hpiece] at h
      cases h
      exact ⟨List.prefix_append .., fun i hi ↦ OrderedSet.mem_union.2 (.inl hi)⟩

def startedBody : Block := ⟨["x := f()"], .ofList [.plain "context"]⟩

theorem perform_atomic_startedBody :
    ∃ failure t b', (statement (.recoverGuard "func" startedBody)).perform.outcome startedBody =
        (.error failure, t) ∧ t = startedBody ∧
      (Step.recoverGuard "guard" startedBody).perform.outcome startedBody = (.ok (), b') ∧
      startedBody.lines <+: b'.lines ∧ ∀ i ∈ startedBody.imports, i ∈ b'.imports := by
  have hkeyword : (statement (.recoverGuard "func" startedBody)).perform.outcome startedBody =
      (.error (.within "Block" (.invalidIdentifier "func" "identifier is a key word")),
        startedBody) := rfl
  have hok : (Step.recoverGuard "guard" startedBody).emit.isOk = true := by decide
  obtain ⟨piece, hpiece⟩ := exists_of_isOk hok
  have hguard : (Step.recoverGuard "guard" startedBody).perform.outcome startedBody =
      (.ok (), startedBody ++ piece) := by
    rw [perform_step, adds, outcome_atomically, hpiece]
    rfl
  exact ⟨_, _, _, hkeyword, perform_atomic.1 _ _ _ _ hkeyword, hguard,
    perform_atomic.2 _ _ _ hguard⟩

end Mutation

end RpcStubs
