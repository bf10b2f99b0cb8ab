import RpcStubs.Code.Declaration
import RpcStubs.Proofs.Code.Bodies

namespace RpcStubs

open Text

section Success

variable {α β : Type}

theorem exists_of_isOk {x : Build α} (h : x.isOk = true) : ∃ a, x = .ok a := by
  cases x with
  | ok a => exact ⟨a, rfl⟩
  | error failure => cases h

theorem isOk_bind {x : Build α} {f : α → Build β} (hx : x.isOk = true)
    (hf : ∀ a, x = .ok a → (f a).isOk = true) : (x >>= f).isOk = true := by
  obtain ⟨a, rfl⟩ := exists_of_isOk hx
  exact hf a rfl

theorem isOk_bind_of_eq {x : Build α} {f : α → Build β} {a : α} (hx : x = .ok a)
    (hf : (f a).isOk = true) : (x >>= f).isOk = true := by
  subst hx
  exact hf

theorem isOk_mapError {x : Build α} (h : x.isOk = true) (g : Failure → Failure) :
    (x.mapError g).isOk = true := by
  obtain ⟨a, rfl⟩ := exists_of_isOk h
  rfl

theorem isOk_inBuilder {x : Build α} (h : x.isOk = true) (builder : String) :
    (Build.inBuilder builder x).isOk = true := isOk_mapError h _

theorem isOk_mapM {f : α → Build β} {l : List α} (h : ∀ a ∈ l, (f a).isOk = true) :
    (l.mapM f).isOk = true := by
  induction l with
  | nil => rfl
  | cons a l ih =>
    rw [List.forall_mem_cons] at h
    rw [List.mapM_cons]
    exact isOk_bind h.1 fun b _ ↦ isOk_bind (ih h.2) fun bs _ ↦ rfl

theorem isOk_foldlM {f : β → α → Build β} {l : List α} (h : ∀ a ∈ l, ∀ b, (f b a).isOk = true)
    (b : β) : (l.foldlM f b).isOk = true := by
  induction l generalizing b with
  | nil => rfl
  | cons a l ih =>
    rw [List.forall_mem_cons] at h
    rw [List.foldlM_cons]
    exact isOk_bind (h.1 b) fun b' _ ↦ ih h.2 b'

theorem Traced.isOk_bind {x : Traced α} {f : α → Traced β} (hx : x.result.isOk = true)
    (hf : ∀ a, x.result = .ok a → (f a).result.isOk = true) : (x >>= f).result.isOk = true := by
  rw [Traced.result_bind]
  exact RpcStubs.isOk_bind hx hf

theorem Traced.isOk_foldlM {f : β → α → Traced β} {l : List α}
    (h : ∀ a ∈ l, ∀ b, (f b a).result.isOk = true) (b : β) : (l.foldlM f b).result.isOk = true := by
  induction l generalizing b with
  | nil => rfl
  | cons a l ih =>
    rw [List.forall_mem_cons] at h
    rw [List.foldlM_cons]
    exact Traced.isOk_bind (h.1 b) fun b' _ ↦ ih h.2 b'

end Success

theorem legal_of_isWord {s : String} (hw : isWord s.toList = true) (hk : isKeyword s = false) :
    identifierFault? s = none := by
  obtain ⟨c, rest, hs, -⟩ := exists_of_isWord hw
  rw [hs, isWord, Bool.and_eq_true] at hw
  simp [identifierFault?, hs, hw, hk]

theorem isWord_append {a b : List Char} (ha : isWord a = true)
    (hb : ∀ c ∈ b, Name.isWordChar c = true) : isWord (a ++ b) = true := by
  obtain ⟨c, rest, rfl, -⟩ := exists_of_isWord ha
  simp only [isWord, List.cons_append, Bool.and_eq_true, List.all_append, List.all_eq_true] at ha ⊢
  exact ⟨ha.1, ha.2, hb⟩

/-- The keywords letter by letter: lists of letters are compared faster than texts. -/
def keywordLetters : List (List Char) := [
  ['b', 'r', 'e', 'a', 'k'], ['c', 'a', 's', 'e'], ['c', 'h', 'a', 'n'], ['c', 'o', 'n', 's', 't'],
  ['c', 'o', 'n', 't', 'i', 'n', 'u', 'e'], ['d', 'e', 'f', 'a', 'u', 'l', 't'],
  ['d', 'e', 'f', 'e', 'r'], ['e', 'l', 's', 'e'],
  ['f', 'a', 'l', 'l', 't', 'h', 'r', 'o', 'u', 'g', 'h'], ['f', 'o', 'r'], ['f', 'u', 'n', 'c'],
  ['g', 'o'], ['g', 'o', 't', 'o'], ['i', 'f'], ['i', 'm', 'p', 'o', 'r', 't'],
  ['i', 'n', 't', 'e', 'r', 'f', 'a', 'c', 'e'], ['m', 'a', 'p'],
  ['p', 'a', 'c', 'k', 'a', 'g', 'e'], ['r', 'a', 'n', 'g', 'e'], ['r', 'e', 't', 'u', 'r', 'n'],
  ['s', 'e', 'l', 'e', 'c', 't'], ['s', 't', 'r', 'u', 'c', 't'], ['s', 'w', 'i', 't', 'c', 'h'],
  ['t', 'y', 'p', 'e'], ['v', 'a', 'r']]

theorem keywords_eq : keywords = keywordLetters.map String.ofList := rfl

theorem not_isKeyword {s : String} (h : s.toList ∉ keywordLetters) : isKeyword s = false := by
  rw [isKeyword, keywords_eq, Bool.eq_false_iff, Ne, List.contains_iff_mem, List.mem_map]
  rintro ⟨k, hk, rfl⟩
  rw [String.toList_ofList] at h
  exact h hk

/-- A given name is checked by its letters. -/
theorem legal_ofList {l : List Char} (h : isWord l = true ∧ l ∉ keywordLetters) :
    identifierFault? (String.ofList l) = none := by
  rw [← String.toList_ofList (l := l)] at h
  exact legal_of_isWord h.1 (not_isKeyword h.2)

/-- A name is legal if it starts like no keyword. -/
theorem legal_append {a : List Char} {b : String} (ha : isWord a = true)
    (hb : ∀ c ∈ b.toList, Name.isWordChar c = true) (hk : ∀ k ∈ keywordLetters, ¬a <+: k) :
    identifierFault? (String.ofList a ++ b) = none := by
  refine legal_of_isWord (by simpa using isWord_append ha hb) (not_isKeyword fun hmem ↦ ?_)
  exact hk _ hmem (by simp)

/-- A name is legal if it ends like no keyword. -/
theorem legal_append_right {a : String} {b : List Char} (ha : isWord a.toList = true)
    (hb : ∀ c ∈ b, Name.isWordChar c = true) (hk : ∀ k ∈ keywordLetters, ¬b <:+ k) :
    identifierFault? (a ++ String.ofList b) = none := by
  refine legal_of_isWord (by simpa using isWord_append ha hb) (not_isKeyword fun hmem ↦ ?_)
  exact hk _ hmem (by simp)

theorem wordChars_of_legal {s : String} (h : identifierFault? s = none) :
    ∀ c ∈ s.toList, Name.isWordChar c = true :=
  fun _ hc ↦ isWordChar_of_mem (isWord_of_legal h) hc

theorem ne_empty_of_legal {s : String} (h : identifierFault? s = none) : s ≠ "" := by
  rintro rfl
  cases h

theorem isEmpty_of_legal {s : String} (h : identifierFault? s = none) : ¬s.isEmpty = true := by
  rw [String.isEmpty_iff]
  exact ne_empty_of_legal h

theorem isOk_checkIdentifier {s : String} (h : identifierFault? s = none) :
    (checkIdentifier s).isOk = true := by
  rw [checkIdentifier, h]
  rfl

theorem isOk_ofString {s : String} (h : identifierFault? s = none) :
    (Identifier.ofString s).isOk = true := by
  unfold Identifier.ofString
  split
  · rfl
  · next fault hfault =>
    rw [h] at hfault
    cases hfault

theorem isOk_declared {s : String} (h : identifierFault? s = none) :
    GoType.declared s = .ok (.named s none none) := by
  rw [GoType.declared, GoType.checkTypeName, if_pos (isWord_of_legal h)]
  rfl

def Operand (s : String) : Prop :=
  trim s.toList ≠ [] ∧ isKeyword (String.ofList (trim s.toList)) = false

instance (s : String) : Decidable (Operand s) :=
  inferInstanceAs (Decidable (_ ∧ _))

theorem Operand.isOk {s : String} (h : Operand s) (builder field : String) :
    (checkOperand builder field s).isOk = true := by
  have hempty : ¬(String.ofList (trim s.toList)).isEmpty = true := by
    rw [String.isEmpty_iff]
    intro hs
    exact h.1 (by simpa using congrArg String.toList hs)
  simp only [checkOperand, if_neg hempty, h.2]
  rfl

theorem operand_ofList {l : List Char} (h : trim l ≠ [] ∧ trim l ∉ keywordLetters) :
    Operand (String.ofList l) := by
  rw [Operand, String.toList_ofList]
  exact ⟨h.1, not_isKeyword (by rw [String.toList_ofList]; exact h.2)⟩

theorem operand_of_legal {s : String} (h : identifierFault? s = none) : Operand s := by
  have hword := isWord_of_legal h
  have htight : Tight s.toList := by
    have hblank {c : Char} (hc : c ∈ s.toList) : isBlank c = false :=
      isBlank_of_isWordChar (isWordChar_of_mem hword hc)
    exact ⟨fun c hc ↦ hblank (List.mem_of_mem_head? hc),
      fun c hc ↦ hblank (List.mem_of_getLast? hc)⟩
  rw [Operand, htight.trim_eq, String.ofList_toList]
  refine ⟨?_, not_isKeyword_of_legal h⟩
  intro hnil
  rw [hnil] at hword
  cases hword

/-- A character that no keyword has makes an operand of the text around it. -/
theorem operand_of_mem {s : String} {c : Char} (hc : c ∈ s.toList) (hb : isBlank c = false)
    (hk : ∀ k ∈ keywordLetters, c ∉ k) : Operand s := by
  obtain ⟨lead, trail, hs, hlead, htrail, -⟩ := exists_trim s.toList
  have hmem : c ∈ trim s.toList := by
    rw [hs] at hc
    simp only [List.mem_append] at hc
    rcases hc with (hc | hc) | hc
    · rw [hlead c hc] at hb
      cases hb
    · exact hc
    · rw [htrail c hc] at hb
      cases hb
  refine ⟨List.ne_nil_of_mem hmem, not_isKeyword fun hkey ↦ ?_⟩
  rw [String.toList_ofList] at hkey
  exact hk _ hkey hmem

theorem operand_repr (n : Nat) : Operand (Nat.repr n) := by
  obtain ⟨c, hc⟩ := List.exists_mem_of_ne_nil _ (Nat.toDigits_ne_nil (b := 10) (n := n))
  have hdigit := Nat.isDigit_of_mem_toDigits (by decide) (by decide) hc
  have hkeywords : ∀ k ∈ keywordLetters, ∀ c ∈ k, c.isDigit = false := by decide
  refine operand_of_mem (c := c) (by simpa [Nat.repr] using hc) ?_ ?_
  · simp only [Char.isDigit, Bool.and_eq_true, decide_eq_true_eq, ge_iff_le, UInt32.le_iff_toNat_le]
      at hdigit
    have hlo : 48 ≤ c.toNat := hdigit.1
    have hhi : c.toNat ≤ 57 := hdigit.2
    grind [isBlank, inClass, blankBounds]
  · intro k hk hmem
    rw [hkeywords k hk c hmem] at hdigit
    cases hdigit

def Callable (s : String) : Prop :=
  s.isEmpty = false ∧ ∀ name ∈ segments s, identifierFault? name = none

instance (s : String) : Decidable (Callable s) :=
  inferInstanceAs (Decidable (_ ∧ _))

theorem Callable.isOk {s : String} (h : Callable s) (builder field : String) :
    (checkSelector builder field s).isOk = true := by
  have hall : (segments s).all (fun s ↦ (identifierFault? s).isNone) = true := by
    simpa using h.2
  rw [checkSelector, h.1, if_neg Bool.false_ne_true, if_pos hall]
  rfl

theorem callable_ofList {l : List Char}
    (h : l ≠ [] ∧ ∀ name ∈ pieces '.' l, isWord name = true ∧ name ∉ keywordLetters) :
    Callable (String.ofList l) := by
  refine ⟨?_, ?_⟩
  · rw [Bool.eq_false_iff, Ne, String.isEmpty_iff]
    intro hempty
    exact h.1 (by simpa using congrArg String.toList hempty)
  · rw [segments, String.toList_ofList]
    simp only [List.forall_mem_map]
    exact fun name hname ↦ legal_ofList (h.2 name hname)

theorem callable_append {receiver name : String} (hr : identifierFault? receiver = none)
    (hn : identifierFault? name = none) : Callable (receiver ++ "." ++ name) := by
  have hdot {s : String} (h : identifierFault? s = none) : '.' ∉ s.toList :=
    not_mem_of_isWord (isWord_of_legal h) (by decide +kernel)
  have hsegments : segments (receiver ++ "." ++ name) = [receiver, name] := by
    have hlist : (receiver ++ "." ++ name).toList = receiver.toList ++ '.' :: name.toList := by simp
    rw [segments, hlist, pieces_append, pieces_of_not_mem (hdot hr), pieces_of_not_mem (hdot hn)]
    simp
  refine ⟨?_, ?_⟩
  · rw [Bool.eq_false_iff, Ne, String.isEmpty_iff]
    simp
  · rw [hsegments]
    simp [hr, hn]

def Parameter.Spelled (p : Parameter) : Prop :=
  identifierFault? p.name = none ∧ p.type.spell ≠ ""

instance (p : Parameter) : Decidable p.Spelled := inferInstanceAs (Decidable (_ ∧ _))

theorem GoType.spell_imported_ne (name package : String) (origin : Option Import) :
    (GoType.named name (some package) origin).spell ≠ "" := by simp [spell]

theorem GoType.spell_pointer_ne (t : GoType) : (GoType.pointer t).spell ≠ "" := by simp [spell]

theorem GoType.spell_variadic_ne (t : GoType) : (GoType.variadic t).spell ≠ "" := by simp [spell]

theorem Parameter.isOk_checkAll {params : List Parameter} (h : ∀ p ∈ params, p.Spelled) :
    (checkAll params).isOk = true := by
  induction params with
  | nil => rfl
  | cons p params ih =>
    rw [List.forall_mem_cons] at h
    obtain ⟨⟨hname, hspell⟩, hrest⟩ := h
    have hcheck : p.check.isOk = true := by
      rw [check, if_neg (isEmpty_of_legal hname), if_neg (by rwa [String.isEmpty_iff])]
      exact isOk_checkIdentifier hname
    exact isOk_bind hcheck fun _ _ ↦ ih hrest

theorem Function.isOk_new {name : String} {params : List Parameter} (results : List GoType)
    (hname : identifierFault? name = none)
    (h : ∀ p ∈ params, p.Spelled) :
    (Function.new name params results).isOk = true :=
  isOk_inBuilder (isOk_bind (Parameter.isOk_checkAll h) fun _ _ ↦
    isOk_bind (isOk_ofString hname) fun _ _ ↦ rfl) _

theorem Method.isOk_new {receiver name : String} (type : GoType) {params : List Parameter}
    (results : List GoType) (hreceiver : identifierFault? receiver = none)
    (hname : identifierFault? name = none)
    (h : ∀ p ∈ params, p.Spelled) :
    (Method.new receiver type name params results).isOk = true := by
  rw [Method.new, if_neg (isEmpty_of_legal hreceiver)]
  have hfunction : (Function.build name params results).isOk = true := by
    refine isOk_bind (Parameter.isOk_checkAll h) fun _ _ ↦ ?_
    exact isOk_bind (isOk_ofString hname) fun _ _ ↦ rfl
  refine isOk_inBuilder (isOk_bind (isOk_ofString hreceiver) fun self _ ↦ ?_) _
  exact isOk_bind hfunction fun function _ ↦ rfl

theorem FuncLiteral.isOk_new {name : String} (results : List GoType)
    (hname : identifierFault? name = none) : (FuncLiteral.new name [] results).isOk = true :=
  isOk_inBuilder (isOk_bind rfl fun _ _ ↦ isOk_bind (isOk_ofString hname) fun _ _ ↦ rfl) _

theorem Structure.isOk_addField {name : String} (h : identifierFault? name = none)
    (s : Structure) (type : GoType) : (s.addField name type).isOk = true :=
  isOk_bind (isOk_inBuilder (isOk_ofString h) _) fun _ _ ↦ rfl

theorem Structure.isOk_new {name : String} (h : identifierFault? name = none) :
    (Structure.new name).isOk = true :=
  isOk_bind (isOk_inBuilder (isOk_ofString h) _) fun _ _ ↦ rfl

theorem StructLiteral.isOk_addField {name value : String} (hname : identifierFault? name = none)
    (hvalue : Operand value) (l : StructLiteral) : (l.addField name value).isOk = true := by
  simp only [addField, if_neg (isEmpty_of_legal hname)]
  exact isOk_bind (isOk_inBuilder (isOk_checkIdentifier hname) _) fun _ _ ↦
    isOk_bind (hvalue.isOk _ _) fun _ _ ↦ rfl

theorem SliceLiteral.isOk_push {value : String} (h : Operand value) (l : SliceLiteral) :
    (l.push value).isOk = true :=
  isOk_bind (h.isOk _ _) fun _ _ ↦ rfl

theorem Const.isOk_new {name value : String} (hname : identifierFault? name = none)
    (hvalue : Operand value) (type : GoType) : (Const.new name type value).isOk = true := by
  refine isOk_bind (isOk_inBuilder (isOk_ofString hname) _) fun _ _ ↦ ?_
  rw [if_neg (by simpa using hvalue.1)]
  rfl

theorem Switch.isOk_addCase {value : String} (h : Operand value) (s : Switch) (body : Block) :
    (s.addCase [value] body).isOk = true :=
  isOk_bind (isOk_bind (h.isOk _ _) fun _ _ ↦ rfl) fun _ _ ↦ rfl

theorem Interface.isOk_new {name : String} (h : identifierFault? (Name.exported name) = none) :
    (Interface.new name).isOk = true :=
  isOk_bind (isOk_inBuilder (isOk_ofString h) _) fun _ _ ↦ rfl

theorem Interface.isOk_addMethod {name : String} {params : List Parameter}
    (hname : identifierFault? (Name.exported name) = none) (hparams : ∀ p ∈ params, p.Spelled)
    (i : Interface) (results : List GoType) (comment : String) :
    (i.addMethod name params results comment).isOk = true :=
  isOk_inBuilder (isOk_bind (Parameter.isOk_checkAll hparams) fun _ _ ↦
    isOk_bind (isOk_ofString hname) fun _ _ ↦ rfl) _

namespace Step

variable {callee : String} {args : List String}

theorem isOk_checkOperandOf {operand : String} (h : Operand operand) (field : String) :
    (checkOperandOf field operand).isOk = true := by
  unfold checkOperandOf inBlock
  exact isOk_mapError (h.isOk _ _) _

theorem isOk_checkTargets {targets : List String} (hne : targets ≠ [])
    (h : ∀ t ∈ targets, identifierFault? t = none) : (checkTargets targets).isOk = true := by
  have hall : (checkIdentifiers targets).isOk = true := by
    clear hne
    induction targets with
    | nil => rfl
    | cons t targets ih =>
      rw [List.forall_mem_cons] at h
      exact isOk_bind (isOk_checkIdentifier h.1) fun _ _ ↦ ih h.2
  rw [checkTargets, List.isEmpty_eq_false_iff.2 hne]
  exact isOk_mapError hall _

theorem isOk_checkTarget {target : String} (h : identifierFault? target = none) :
    (checkTargets [target]).isOk = true :=
  isOk_checkTargets (by simp) (List.forall_mem_singleton.2 h)

theorem isOk_checkCallee (h : Callable callee) : (checkCallee callee).isOk = true := by
  unfold checkCallee inBlock
  exact isOk_mapError (h.isOk _ _) _

theorem isOk_checkArgs (h : ∀ a ∈ args, Operand a) : (checkArgs args).isOk = true := by
  induction args with
  | nil => rfl
  | cons a args ih =>
    rw [List.forall_mem_cons] at h
    exact isOk_bind (isOk_checkOperandOf h.1 _) fun _ _ ↦ ih h.2

theorem isOk_checkCall (hcallee : Callable callee) (hargs : ∀ a ∈ args, Operand a) :
    (checkCall callee args).isOk = true :=
  isOk_bind (isOk_checkCallee hcallee) fun _ _ ↦ isOk_checkArgs hargs

theorem isOk_checkedCall (hcallee : Callable callee) (hargs : ∀ a ∈ args, Operand a) :
    (checkedCall callee args).isOk = true :=
  isOk_bind (isOk_checkCall hcallee hargs) fun _ _ ↦ rfl

theorem isOk_callExpr {targets : List String} (htargets : (checkTargets targets).isOk = true)
    (hcallee : Callable callee) (hargs : ∀ a ∈ args, Operand a) :
    (callExpr targets callee args).isOk = true :=
  isOk_bind htargets fun _ _ ↦ isOk_bind (isOk_checkCall hcallee hargs) fun _ _ ↦ rfl

theorem isOk_call (hcallee : Callable callee) (hargs : ∀ a ∈ args, Operand a) :
    (Step.call callee args).emit.isOk = true :=
  isOk_bind (isOk_checkedCall hcallee hargs) fun _ _ ↦ rfl

theorem isOk_deferCall (hcallee : Callable callee) (hargs : ∀ a ∈ args, Operand a) :
    (Step.deferCall callee args).emit.isOk = true :=
  isOk_bind (isOk_checkedCall hcallee hargs) fun _ _ ↦ rfl

theorem isOk_returnCall (hcallee : Callable callee) (hargs : ∀ a ∈ args, Operand a) :
    (Step.returnCall callee args).emit.isOk = true :=
  isOk_bind (isOk_checkedCall hcallee hargs) fun _ _ ↦ rfl

theorem isOk_defineCall {targets : List String} (htargets : (checkTargets targets).isOk = true)
    (hcallee : Callable callee) (hargs : ∀ a ∈ args, Operand a) :
    (Step.defineCall targets callee args).emit.isOk = true :=
  isOk_bind (isOk_callExpr htargets hcallee hargs) fun _ _ ↦ rfl

theorem isOk_assignCall {targets : List String} (htargets : (checkTargets targets).isOk = true)
    (hcallee : Callable callee) (hargs : ∀ a ∈ args, Operand a) :
    (Step.assignCall targets callee args).emit.isOk = true :=
  isOk_bind htargets fun _ _ ↦ isOk_bind (isOk_checkedCall hcallee hargs) fun _ _ ↦ rfl

section Condition

variable {left right : String} {op : Operator} (hl : Operand left) (hr : Operand right)
  (ho : op.checkCondition.isOk = true)
include hl hr ho

theorem isOk_condition : (condition left op right).isOk = true := by
  refine isOk_bind (isOk_checkOperandOf hl "left operand") fun _ _ ↦ ?_
  refine isOk_bind (isOk_checkOperandOf hr "right operand") fun _ _ ↦ ?_
  exact isOk_bind (isOk_mapError ho _) fun _ _ ↦ rfl

theorem isOk_ifBegin : (Step.ifBegin left op right).emit.isOk = true :=
  isOk_bind (isOk_condition hl hr ho) fun _ _ ↦ rfl

theorem isOk_elseIf : (Step.elseIf left op right).emit.isOk = true :=
  isOk_bind (isOk_condition hl hr ho) fun _ _ ↦ rfl

theorem isOk_ifScopedLine {init : String} (hi : Operand init) :
    (ifScopedLine init left op right).isOk = true :=
  isOk_bind (isOk_checkOperandOf hi _) fun _ _ ↦ isOk_bind (isOk_condition hl hr ho) fun _ _ ↦ rfl

theorem isOk_ifScoped {init : String} (hi : Operand init) :
    (Step.ifScoped init left op right).emit.isOk = true :=
  isOk_bind (isOk_ifScopedLine hl hr ho hi) fun _ _ ↦ rfl

end Condition

theorem isOk_declareVar {name : String} (h : (checkTargets [name]).isOk = true) (type : GoType) :
    (Step.declareVar name type).emit.isOk = true := isOk_bind h fun _ _ ↦ rfl

theorem isOk_newInstance {name : String} (h : (checkTargets [name]).isOk = true) (type : GoType) :
    (Step.newInstance name type).emit.isOk = true := isOk_bind h fun _ _ ↦ rfl

theorem isOk_typeAssert {targets : List String} (htargets : (checkTargets targets).isOk = true)
    {value : String} (hvalue : Operand value) (type : GoType) :
    (Step.typeAssert targets value type).emit.isOk = true :=
  isOk_bind htargets fun _ _ ↦ isOk_bind (isOk_checkOperandOf hvalue _) fun _ _ ↦ rfl

theorem isOk_assignField {target field value : String} (htarget : Callable target)
    (hfield : identifierFault? field = none) (hvalue : Operand value) :
    (Step.assignField target field value).emit.isOk = true :=
  isOk_bind (isOk_mapError (htarget.isOk _ _) _) fun _ _ ↦
    isOk_bind (isOk_checkTarget hfield) fun _ _ ↦ isOk_bind (isOk_checkOperandOf hvalue _)
      fun _ _ ↦ rfl

theorem isOk_returnValues {values : List String} (hne : values ≠ [])
    (h : ∀ v ∈ values, Operand v) : (Step.returnValues values).emit.isOk = true := by
  simp only [emit, List.isEmpty_eq_false_iff.2 hne]
  exact isOk_bind (isOk_checkArgs h) fun _ _ ↦ rfl

end Step

theorem Block.isOk_ofSteps {steps : List Step} (h : ∀ step ∈ steps, step.emit.isOk = true) :
    (ofSteps steps).isOk = true := by
  induction steps with
  | nil => rfl
  | cons step steps ih =>
    rw [List.forall_mem_cons] at h
    exact isOk_bind h.1 fun first _ ↦ isOk_bind (ih h.2) fun rest _ ↦ rfl

end RpcStubs
