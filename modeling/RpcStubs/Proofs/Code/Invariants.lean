import RpcStubs.Code.Step
import RpcStubs.Proofs.Code.FailureKinds

namespace RpcStubs

theorem upholds_ofString (s : String) : Upholds (Identifier.ofString s) := by
  unfold Identifier.ofString
  split
  · exact failsOnly_ok _
  · exact upholds_fault rfl

theorem upholds_checkIdentifier (s : String) : Upholds (checkIdentifier s) := by
  unfold checkIdentifier
  split
  · exact failsOnly_ok _
  · exact upholds_fault rfl

theorem upholds_checkIdentifiers (names : List String) : Upholds (checkIdentifiers names) := by
  induction names with
  | nil => exact failsOnly_ok _
  | cons s names ih => exact (upholds_checkIdentifier s).bind fun _ ↦ ih

theorem upholds_checkSelector (builder field selector : String) :
    Upholds (checkSelector builder field selector) := by
  unfold checkSelector
  split_ifs
  · exact upholds_fault rfl
  · exact failsOnly_ok _
  · exact upholds_fault rfl

theorem upholds_checkOperand (builder field operand : String) :
    Upholds (checkOperand builder field operand) := by
  unfold checkOperand
  dsimp only
  split_ifs
  · exact upholds_fault rfl
  · exact upholds_fault rfl
  · exact failsOnly_ok _

theorem Operator.upholds_checkCondition (op : Operator) : Upholds op.checkCondition := by
  unfold checkCondition
  split_ifs
  · exact failsOnly_ok _
  · exact upholds_fault rfl

theorem Operator.upholds_checkBinary (op : Operator) : Upholds op.checkBinary := by
  unfold checkBinary
  split_ifs
  · exact failsOnly_ok _
  · exact upholds_fault rfl

namespace GoType

variable {package name : String}

theorem upholds_declared (h : isWord name.toList = true) : Upholds (declared name) := by
  rw [declared, checkTypeName, if_pos h]
  exact failsOnly_pure _

theorem upholds_qualified (hp : isWord package.toList = true) (h : isWord name.toList = true)
    (origin : Option Import) : Upholds (qualified package name origin) := by
  rw [qualified, checkTypeName, if_pos hp, checkTypeName, if_pos h]
  exact failsOnly_ok _

theorem exists_violation_of_checkTypeName (h : isWord name.toList = false) :
    ∃ failure, checkTypeName name = .error failure ∧ failure.isViolation = true := by
  rw [checkTypeName, if_neg (by simp [h])]
  exact ⟨_, rfl, rfl⟩

theorem exists_violation_of_declared (h : isWord name.toList = false) :
    ∃ failure, declared name = .error failure ∧ failure.isViolation = true := by
  obtain ⟨failure, hfailure, hviolation⟩ := exists_violation_of_checkTypeName h
  exact ⟨failure, by rw [declared, hfailure]; rfl, hviolation⟩

theorem exists_violation_of_qualified
    (h : isWord name.toList = false ∨ isWord package.toList = false) (origin : Option Import) :
    ∃ failure, qualified package name origin = .error failure ∧ failure.isViolation = true := by
  cases hp : isWord package.toList with
  | false =>
    obtain ⟨failure, hfailure, hviolation⟩ := exists_violation_of_checkTypeName hp
    exact ⟨failure, by rw [qualified, hfailure]; rfl, hviolation⟩
  | true =>
    have hname : isWord name.toList = false := by simpa [hp] using h
    obtain ⟨failure, hfailure, hviolation⟩ := exists_violation_of_checkTypeName hname
    exact ⟨failure, by rw [qualified, checkTypeName, if_pos hp, hfailure]; rfl, hviolation⟩

end GoType

theorem Parameter.upholds_checkAll (params : List Parameter) : Upholds (checkAll params) := by
  induction params with
  | nil => exact failsOnly_ok _
  | cons p params ih =>
    refine FailsOnly.bind ?_ fun _ ↦ ih
    unfold check
    split_ifs
    · exact upholds_fault rfl
    · exact upholds_fault rfl
    · exact upholds_checkIdentifier _

section Declarations

variable (name : String) (params : List Parameter) (results : List GoType)

theorem Function.upholds_build : Upholds (Function.build name params results) := by
  refine (Parameter.upholds_checkAll params).bind fun checked ↦ ?_
  exact (upholds_ofString name).bind fun i ↦ failsOnly_pure _

theorem Function.upholds_new : Upholds (Function.new name params results) :=
  (upholds_build name params results).inBuilder _

theorem FuncLiteral.upholds_new : Upholds (FuncLiteral.new name params results) := by
  refine FailsOnly.inBuilder ((Parameter.upholds_checkAll params).bind fun checked ↦ ?_) _
  exact (upholds_ofString name).bind fun i ↦ failsOnly_pure _

theorem Method.upholds_new (receiver : String) (type : GoType) :
    Upholds (Method.new receiver type name params results) := by
  unfold Method.new
  split_ifs
  · exact upholds_fault rfl
  · refine FailsOnly.inBuilder ((upholds_ofString receiver).bind fun i ↦ ?_) _
    exact (Function.upholds_build name params results).bind fun function ↦ failsOnly_pure _

theorem Structure.upholds_new : Upholds (Structure.new name) :=
  ((upholds_ofString name).inBuilder _).bind fun _ ↦ failsOnly_pure _

theorem Structure.upholds_addField (s : Structure) (type : GoType) :
    Upholds (s.addField name type) :=
  ((upholds_ofString name).inBuilder _).bind fun _ ↦ failsOnly_pure _

theorem Interface.upholds_new : Upholds (Interface.new name) :=
  ((upholds_ofString _).inBuilder _).bind fun _ ↦ failsOnly_pure _

theorem Interface.upholds_addMethod (i : Interface) (comment : String) :
    Upholds (i.addMethod name params results comment) := by
  refine FailsOnly.inBuilder ((Parameter.upholds_checkAll params).bind fun checked ↦ ?_) _
  exact (upholds_ofString _).bind fun i ↦ failsOnly_pure _

theorem Const.upholds_new (type : GoType) (value : String) :
    Upholds (Const.new name type value) := by
  refine ((upholds_ofString name).inBuilder _).bind fun _ ↦ ?_
  split_ifs
  · exact upholds_fault rfl
  · exact failsOnly_pure _

theorem SliceLiteral.upholds_new (element : GoType) (fixed : Bool) :
    Upholds (SliceLiteral.new name element fixed) :=
  ((upholds_ofString name).inBuilder _).bind fun _ ↦ failsOnly_pure _

theorem SliceLiteral.upholds_push (l : SliceLiteral) (value : String) : Upholds (l.push value) :=
  (upholds_checkOperand ..).bind fun _ ↦ failsOnly_pure _

theorem StructLiteral.upholds_addField (l : StructLiteral) (value : String) :
    Upholds (l.addField name value) := by
  unfold addField
  split_ifs
  · exact upholds_fault rfl
  · refine ((upholds_checkIdentifier name).inBuilder _).bind fun checked ↦ ?_
    exact (upholds_checkOperand ..).bind fun operand ↦ failsOnly_pure _

end Declarations

theorem Switch.upholds_onValue (subject : String) : Upholds (Switch.onValue subject) :=
  (upholds_checkOperand ..).bind fun _ ↦ failsOnly_pure _

theorem Switch.upholds_addCase (s : Switch) (values : List String) (body : Block) :
    Upholds (s.addCase values body) := by
  have hvalues : Upholds (checkValues values) := by
    induction values with
    | nil => exact failsOnly_ok _
    | cons v values ih => exact (upholds_checkOperand ..).bind fun _ ↦ ih
  unfold addCase
  split_ifs
  · exact upholds_fault rfl
  · exact hvalues.bind fun _ ↦ failsOnly_pure _

theorem GoFile.upholds_new (package schemaFile : String) :
    Upholds (GoFile.new package schemaFile) := by
  unfold new
  by_cases hempty : package.isEmpty = true
  · rw [if_pos hempty]
    exact upholds_fault rfl
  · rw [if_neg hempty]
    refine ((upholds_ofString package).inBuilder _).bind fun _ ↦ ?_
    split_ifs
    · exact upholds_fault rfl
    · exact failsOnly_pure _

namespace Step

theorem upholds_inBlock {α : Type} {x : Build α} (h : Upholds x) : Upholds (inBlock x) := by
  refine h.mapError fun f ↦ ?_
  cases f <;> rfl

theorem upholds_checkOperandOf (field operand : String) : Upholds (checkOperandOf field operand) :=
  upholds_inBlock (upholds_checkOperand ..)

theorem upholds_checkArgs (args : List String) : Upholds (checkArgs args) := by
  induction args with
  | nil => exact failsOnly_ok _
  | cons arg args ih => exact (upholds_checkOperandOf ..).bind fun _ ↦ ih

theorem upholds_checkTargets (targets : List String) : Upholds (checkTargets targets) := by
  unfold checkTargets
  split_ifs
  · exact upholds_fault rfl
  · exact upholds_inBlock (upholds_checkIdentifiers targets)

theorem upholds_checkCall (callee : String) (args : List String) :
    Upholds (checkCall callee args) :=
  (upholds_inBlock (upholds_checkSelector ..)).bind fun _ ↦ upholds_checkArgs args

theorem upholds_checkedCall (callee : String) (args : List String) :
    Upholds (checkedCall callee args) :=
  (upholds_checkCall callee args).bind fun _ ↦ failsOnly_pure _

theorem upholds_callExpr (targets : List String) (callee : String) (args : List String) :
    Upholds (callExpr targets callee args) :=
  (upholds_checkTargets targets).bind fun _ ↦ (upholds_checkCall callee args).bind fun _ ↦
    failsOnly_pure _

theorem upholds_condition (left : String) (op : Operator) (right : String) :
    Upholds (condition left op right) :=
  (upholds_checkOperandOf ..).bind fun _ ↦ (upholds_checkOperandOf ..).bind fun _ ↦
    (upholds_inBlock op.upholds_checkCondition).bind fun _ ↦ failsOnly_pure _

theorem upholds_ifScopedLine (init left : String) (op : Operator) (right : String) :
    Upholds (ifScopedLine init left op right) :=
  (upholds_checkOperandOf ..).bind fun _ ↦ (upholds_condition left op right).bind fun _ ↦
    failsOnly_pure _

theorem upholds_emit (step : Step) : Upholds step.emit := by
  cases step with
  | uses package => exact failsOnly_ok _
  | call callee args => exact (upholds_checkedCall callee args).bind fun _ ↦ failsOnly_pure _
  | defineCall targets callee args =>
    exact (upholds_callExpr targets callee args).bind fun _ ↦ failsOnly_pure _
  | assignCall targets callee args =>
    refine (upholds_checkTargets targets).bind fun _ ↦ ?_
    exact (upholds_checkedCall callee args).bind fun _ ↦ failsOnly_pure _
  | declareVar name type => exact (upholds_checkTargets [name]).bind fun _ ↦ failsOnly_pure _
  | newInstance name type => exact (upholds_checkTargets [name]).bind fun _ ↦ failsOnly_pure _
  | defineOperation name left op right =>
    refine (upholds_checkTargets [name]).bind fun _ ↦ ?_
    refine (upholds_checkOperandOf "left operand" left).bind fun _ ↦ ?_
    refine (upholds_checkOperandOf "right operand" right).bind fun _ ↦ ?_
    exact (upholds_inBlock op.upholds_checkBinary).bind fun _ ↦ failsOnly_pure _
  | typeAssert targets value type =>
    refine (upholds_checkTargets targets).bind fun _ ↦ ?_
    exact (upholds_checkOperandOf ..).bind fun _ ↦ failsOnly_pure _
  | assignField target field value =>
    refine (upholds_inBlock (upholds_checkSelector ..)).bind fun _ ↦ ?_
    refine (upholds_checkTargets [field]).bind fun _ ↦ ?_
    exact (upholds_checkOperandOf ..).bind fun _ ↦ failsOnly_pure _
  | ifBegin left op right => exact (upholds_condition left op right).bind fun _ ↦ failsOnly_pure _
  | ifScoped init left op right =>
    exact (upholds_ifScopedLine init left op right).bind fun _ ↦ failsOnly_pure _
  | elseIf left op right => exact (upholds_condition left op right).bind fun _ ↦ failsOnly_pure _
  | elseBegin => exact failsOnly_ok _
  | close => exact failsOnly_ok _
  | rangeBegin key value list =>
    refine (upholds_checkTargets [key, value]).bind fun _ ↦ ?_
    exact (upholds_checkOperandOf ..).bind fun _ ↦ failsOnly_pure _
  | deferCall callee args => exact (upholds_checkedCall callee args).bind fun _ ↦ failsOnly_pure _
  | ret => exact failsOnly_ok _
  | returnValues values =>
    simp only [emit]
    split_ifs
    · exact upholds_fault rfl
    · exact (upholds_checkArgs values).bind fun _ ↦ failsOnly_pure _
  | returnCall callee args => exact (upholds_checkedCall callee args).bind fun _ ↦ failsOnly_pure _
  | nestedFunc func => exact failsOnly_ok _
  | recoverGuard wrapper handler =>
    refine (upholds_checkTargets [wrapper]).bind fun _ ↦ ?_
    refine (upholds_ifScopedLine ..).bind fun guard ↦ ?_
    refine (upholds_checkedCall ..).bind fun again ↦ ?_
    refine (FuncLiteral.upholds_new ..).bind fun func ↦ ?_
    exact (upholds_checkedCall ..).bind fun call ↦ failsOnly_pure _
  | switch s => exact failsOnly_ok _
  | sliceLiteral literal => exact failsOnly_ok _
  | structLiteral head literal byReference =>
    simp only [emit]
    split_ifs
    · exact upholds_fault rfl
    · exact upholds_fault rfl
    · exact failsOnly_pure _
    · exact failsOnly_pure _
  | extend block => exact failsOnly_ok _

end Step

theorem Block.upholds_ofSteps (steps : List Step) : Upholds (Block.ofSteps steps) := by
  induction steps with
  | nil => exact failsOnly_ok _
  | cons step steps ih =>
    refine (Step.upholds_emit step).bind fun first ↦ ?_
    exact ih.bind fun rest ↦ failsOnly_pure _

end RpcStubs
