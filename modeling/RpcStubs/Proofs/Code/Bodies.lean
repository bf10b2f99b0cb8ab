import RpcStubs.Code.Step
import RpcStubs.Proofs.Code.Statements
import RpcStubs.Proofs.Code.Yields

namespace RpcStubs.Layout

open Text

theorem not_mem_clauseWords_of_legal {s : String} (h : identifierFault? s = none) :
    s.toList ∉ clauseWords := by
  have hk := not_isKeyword_of_legal h
  intro hmem
  have hword : s ∈ ["else", "case", "default"] := by
    simp only [clauseWords, List.mem_cons, String.toList_inj, List.not_mem_nil] at hmem ⊢
    exact hmem
  have hall : ∀ w ∈ ["else", "case", "default"], isKeyword w = true := by decide
  rw [hall s hword] at hk
  cases hk

theorem flat_of_legal {s : String} (h : identifierFault? s = none) : Flat s.toList :=
  flat_of_isWord (isWord_of_legal h)

theorem leads_of_legal {s : String} (h : identifierFault? s = none) {sep : List Char}
    (hs : sep.head?.any (fun d ↦ !Name.isWordChar d) = true) : Leads (s.toList ++ sep) :=
  leads_word (isWord_of_legal h) (not_mem_clauseWords_of_legal h) hs

def FlatAll (texts : List String) : Prop := ∀ s ∈ texts, Flat s.toList

theorem flatAll_nil : FlatAll [] := by simp [FlatAll]

theorem FlatAll.cons {s : String} {texts : List String} (h : Flat s.toList)
    (hs : FlatAll texts) : FlatAll (s :: texts) := List.forall_mem_cons.2 ⟨h, hs⟩

theorem flatAll_of_isFlat {texts : List String}
    (h : texts.all (fun s ↦ isFlat s.toList) = true) : FlatAll texts :=
  fun s hs ↦ flat_of_isFlat (List.all_eq_true.1 h s hs)

def Selector (s : String) : Prop :=
  ∀ w ∈ pieces '.' s.toList, identifierFault? (String.ofList w) = none

theorem Selector.flat {s : String} (h : Selector s) : Flat s.toList := by
  rw [← intercalate_pieces '.' s.toList]
  refine flat_intercalate (flat_of_isFlat (by decide)) fun w hw ↦ ?_
  have hf := flat_of_legal (h w hw)
  rwa [String.toList_ofList] at hf

theorem Selector.leads {s : String} (h : Selector s) {sep : List Char}
    (hs : sep.head?.any (fun d ↦ !Name.isWordChar d) = true) : Leads (s.toList ++ sep) := by
  rw [← intercalate_pieces '.' s.toList]
  obtain ⟨w, ws, hw⟩ := List.exists_cons_of_ne_nil (pieces_ne_nil '.' s.toList)
  have hlegal := h w (hw ▸ List.mem_cons_self)
  rw [hw]
  cases ws with
  | nil =>
    have hl := leads_of_legal hlegal hs
    rw [String.toList_ofList] at hl
    rwa [List.intercalate_singleton]
  | cons v ws =>
    have hl : Leads ((String.ofList w).toList ++ ['.']) := leads_of_legal hlegal (by decide)
    rw [String.toList_ofList] at hl
    rw [List.intercalate_cons_cons, List.append_assoc]
    exact hl.append _

theorem flat_targets {targets : List String} (h : ∀ s ∈ targets, identifierFault? s = none) :
    Flat (Name.valueList targets).toList := flat_valueList fun s hs ↦ flat_of_legal (h s hs)

theorem leads_targets {targets : List String} (hne : targets ≠ [])
    (h : ∀ s ∈ targets, identifierFault? s = none) {sep : List Char}
    (hs : sep.head?.any (fun d ↦ !Name.isWordChar d) = true) :
    Leads ((Name.valueList targets).toList ++ sep) := by
  rw [Name.valueList, String.toList_intercalate]
  cases targets with
  | nil => exact absurd rfl hne
  | cons s targets =>
    have hlegal := h s List.mem_cons_self
    cases targets with
    | nil => simpa using leads_of_legal hlegal hs
    | cons s' targets =>
      rw [List.map_cons, List.map_cons, List.intercalate_cons_cons, List.append_assoc]
      have hl : Leads (s.toList ++ ", ".toList) := leads_of_legal hlegal (by decide)
      exact hl.append _

inductive SoundLines : List Frame → List String → List Frame → Prop
  | nil (frames : List Frame) : SoundLines frames [] frames
  | cons {frames frames' frames'' : List Frame} {s : String} {lines : List String} :
      SoundText frames s.toList frames' → SoundLines frames' lines frames'' →
      SoundLines frames (s :: lines) frames''

theorem SoundLines.append {frames frames' frames'' : List Frame} {a b : List String}
    (ha : SoundLines frames a frames') (hb : SoundLines frames' b frames'') :
    SoundLines frames (a ++ b) frames'' := by
  induction ha with
  | nil => exact hb
  | cons h _ ih => exact .cons h (ih hb)

theorem SoundLines.text {frames frames' : List Frame} {lines : List String}
    (h : SoundLines frames lines frames') (hne : lines ≠ []) :
    SoundText frames ("\n".intercalate lines).toList frames' := by
  rw [String.toList_intercalate]
  induction h with
  | nil => exact absurd rfl hne
  | @cons _ _ _ s lines hs hrest ih =>
    cases lines with
    | nil =>
      cases hrest
      simpa using hs
    | cons s' lines =>
      rw [List.map_cons, List.map_cons, List.intercalate_cons_cons, List.append_assoc]
      exact hs.append (ih (by simp))

variable {P : Import → Prop}

/-- A body between stacks of which all imports have the property. -/
structure SoundBlock (P : Import → Prop) (frames : List Frame) (b : Block) (frames' : List Frame) :
    Prop where
  lines : SoundLines frames b.lines frames'
  imports : ∀ i ∈ b.imports, P i

theorem soundBlock_empty (frames : List Frame) : SoundBlock P frames {} frames :=
  ⟨.nil _, fun i hi ↦ absurd hi (OrderedSet.not_mem_empty i)⟩

theorem SoundBlock.append {frames frames' frames'' : List Frame} {a b : Block}
    (ha : SoundBlock P frames a frames') (hb : SoundBlock P frames' b frames'') :
    SoundBlock P frames (a ++ b) frames'' :=
  ⟨ha.lines.append hb.lines, fun i hi ↦
    (OrderedSet.mem_union.1 hi).elim (ha.imports i) (hb.imports i)⟩

theorem soundBlock_line {frames frames' : List Frame} {text : String}
    (h : SoundText frames text.toList frames') : SoundBlock P frames (Step.line text) frames' :=
  ⟨.cons h (.nil _), fun i hi ↦ absurd hi (OrderedSet.not_mem_empty i)⟩

structure Usable (P : Import → Prop) (t : GoType) : Prop where
  flat : Flat t.spell.toList
  plain : ∀ c ∈ t.spell.toList, isPlain c = true
  imports : ∀ i ∈ t.origins, P i

theorem soundBlock_typedLine {frames frames' : List Frame} {text : String} {t : GoType}
    (h : SoundText frames text.toList frames') (ht : Usable P t) :
    SoundBlock P frames (Step.typedLine text t) frames' :=
  ⟨.cons h (.nil _), fun i hi ↦ ht.imports i (OrderedSet.mem_ofList.1 hi)⟩

/-- The step contributes a sound body, or its checks fail. -/
def Emits (P : Import → Prop) (frames : List Frame) (step : Step) (frames' : List Frame) : Prop :=
  Yields step.emit fun b ↦ SoundBlock P frames b frames'

inductive Steps (P : Import → Prop) : List Frame → List Step → List Frame → Prop
  | nil (frames : List Frame) : Steps P frames [] frames
  | cons {frames frames' frames'' : List Frame} {step : Step} {steps : List Step} :
      Emits P frames step frames' → Steps P frames' steps frames'' →
      Steps P frames (step :: steps) frames''

theorem Steps.append {frames frames' frames'' : List Frame} {a b : List Step}
    (ha : Steps P frames a frames') (hb : Steps P frames' b frames'') :
    Steps P frames (a ++ b) frames'' := by
  induction ha with
  | nil => exact hb
  | cons h _ ih => exact .cons h (ih hb)

theorem Steps.ofSteps {frames frames' : List Frame} {steps : List Step}
    (h : Steps P frames steps frames') :
    Yields (Block.ofSteps steps) fun b ↦ SoundBlock P frames b frames' := by
  induction h with
  | nil => exact .ok (soundBlock_empty _)
  | cons h _ ih =>
    rw [Block.ofSteps]
    exact h.bind fun first hfirst ↦ ih.bind fun rest hrest ↦ yields_pure (hfirst.append hrest)

theorem yields_inBlock {α : Type} {x : Build α} {Q : α → Prop} (h : Yields x Q) :
    Yields (Step.inBlock x) Q := by
  refine h.mapError fun f ↦ ?_
  cases f <;> rfl

theorem yields_checkOperandOf (field s : String) :
    Yields (Step.checkOperandOf field s) fun _ ↦ True := yields_inBlock (yields_checkOperand ..)

theorem yields_checkArgs (args : List String) : Yields (Step.checkArgs args) fun _ ↦ True := by
  induction args with
  | nil => exact .ok trivial
  | cons s args ih =>
    rw [Step.checkArgs]
    exact (yields_checkOperandOf ..).bind fun _ _ ↦ ih

theorem yields_checkTargets (targets : List String) :
    Yields (Step.checkTargets targets) fun _ ↦
      targets ≠ [] ∧ ∀ s ∈ targets, identifierFault? s = none := by
  unfold Step.checkTargets
  split_ifs with hempty
  · exact .error rfl
  · exact (yields_inBlock (yields_checkIdentifiers targets)).mono fun _ h ↦
      ⟨by simpa using hempty, h⟩

theorem yields_checkCall (callee : String) (args : List String) :
    Yields (Step.checkCall callee args) fun _ ↦ Selector callee :=
  (yields_inBlock (yields_checkSelector ..)).bind fun _ h ↦
    (yields_checkArgs args).mono fun _ _ ↦ h

theorem yields_checkedCall (callee : String) (args : List String) :
    Yields (Step.checkedCall callee args) fun text ↦
      text = Step.callText callee args ∧ Selector callee :=
  (yields_checkCall callee args).bind fun _ h ↦ yields_pure ⟨rfl, h⟩

theorem yields_callExpr (targets : List String) (callee : String) (args : List String) :
    Yields (Step.callExpr targets callee args) fun text ↦
      text = Name.valueList targets ++ " := " ++ Step.callText callee args ∧ targets ≠ [] ∧
        (∀ s ∈ targets, identifierFault? s = none) ∧ Selector callee :=
  (yields_checkTargets targets).bind fun _ ht ↦
    (yields_checkCall callee args).bind fun _ hc ↦ yields_pure ⟨rfl, ht.1, ht.2, hc⟩

theorem yields_condition (left : String) (op : Operator) (right : String) :
    Yields (Step.condition left op right) fun text ↦
      text = left ++ " " ++ op.symbol ++ " " ++ right := by
  have hop : Yields op.checkCondition fun _ ↦ True := by
    unfold Operator.checkCondition
    split_ifs
    · exact .ok trivial
    · exact .error rfl
  refine (yields_checkOperandOf "left operand" left).bind fun _ _ ↦ ?_
  refine (yields_checkOperandOf "right operand" right).bind fun _ _ ↦ ?_
  exact (yields_inBlock hop).bind fun _ _ ↦ yields_pure rfl

theorem flat_callText {callee : String} (hc : Selector callee) {args : List String}
    (ha : FlatAll args) : Flat (Step.callText callee args).toList := by
  have hparens := flat_parens (flat_valueList ha)
  rw [Step.callText, String.append_assoc, String.append_assoc, String.toList_append,
    ← String.append_assoc]
  exact hc.flat.append hparens

theorem leads_callText {callee : String} (hc : Selector callee) (args : List String) :
    Leads (Step.callText callee args).toList := by
  rw [Step.callText, String.toList_append, String.toList_append, String.toList_append]
  exact ((hc.leads (by decide)).append _).append _

/-- An operator between spaces. A slash would start a comment before another one, but not here. -/
theorem flat_operator (op : Operator) : Flat (" " ++ op.symbol ++ " ").toList := by
  cases op with
  | quo =>
    refine ⟨by decide, [(' ', .code), ('/', .code), (' ', .code)], rfl, .nil, fun next ↦ ?_⟩
    exact .cons rfl (.cons rfl (.cons rfl (.nil _)))
  | _ => exact flat_of_isFlat (by decide)

theorem flat_condition {left right : String} {op : Operator} (hl : Flat left.toList)
    (hr : Flat right.toList) : Flat (left ++ " " ++ op.symbol ++ " " ++ right).toList := by
  have hsplit : (left ++ " " ++ op.symbol ++ " " ++ right).toList =
      left.toList ++ ((" " ++ op.symbol ++ " ").toList ++ right.toList) := by simp
  rw [hsplit]
  exact hl.append ((flat_operator op).append hr)

theorem Flat.text {s : String} (h : Flat s.toList) (hl : Leads s.toList) (frames : List Frame) :
    SoundText frames s.toList frames := (h.soundLine hl.tame frames).text

theorem Flat.text_opening {head : String} (h : Flat head.toList) (hl : Leads head.toList)
    (frames : List Frame) :
    SoundText frames (head ++ " \x7b").toList
      (⟨'\x7b', .of '\x7b' (head.toList ++ [' '])⟩ :: frames) := by
  have hsplit : (head ++ " \x7b").toList = (head.toList ++ [' ']) ++ ['\x7b'] := by
    rw [String.toList_append, List.append_assoc]
    rfl
  rw [hsplit]
  refine SoundLine.text ((h.append (flat_of_isFlat (by decide))).soundLine_opening rfl ?_ frames)
  rw [List.append_assoc]
  exact hl _

section Emits

variable {callee left right name : String} {args targets : List String} {type : GoType}
  {op : Operator} {frames : List Frame}

theorem emits_call (ha : FlatAll args) : Emits P frames (.call callee args) frames := by
  refine (yields_checkedCall callee args).bind fun text h ↦ ?_
  obtain ⟨rfl, hc⟩ := h
  exact yields_pure (soundBlock_line ((flat_callText hc ha).text (leads_callText hc args) frames))

theorem text_before_call {lead : String} (hf : Flat lead.toList) (hl : Leads lead.toList)
    (hc : Selector callee) (ha : FlatAll args) :
    SoundText frames (lead ++ Step.callText callee args).toList frames := by
  refine Flat.text ?_ ?_ frames
  · rw [String.toList_append]
    exact hf.append (flat_callText hc ha)
  · rw [String.toList_append]
    exact hl.append _

theorem flat_binding {sep : String} (hs : isFlat sep.toList = true)
    (ht : ∀ s ∈ targets, identifierFault? s = none) :
    Flat (Name.valueList targets ++ sep).toList := by
  rw [String.toList_append]
  exact (flat_targets ht).append (flat_of_isFlat hs)

theorem leads_binding {sep : String}
    (hs : sep.toList.head?.any (fun d ↦ !Name.isWordChar d) = true) (hne : targets ≠ [])
    (ht : ∀ s ∈ targets, identifierFault? s = none) :
    Leads (Name.valueList targets ++ sep).toList := by
  rw [String.toList_append]
  exact leads_targets hne ht hs

theorem yields_flat_callExpr (ha : FlatAll args) :
    Yields (Step.callExpr targets callee args) fun text ↦ Flat text.toList := by
  refine (yields_callExpr targets callee args).mono fun text h ↦ ?_
  obtain ⟨rfl, -, ht, hc⟩ := h
  rw [String.toList_append]
  exact (flat_binding (by decide) ht).append (flat_callText hc ha)

theorem emits_defineCall (ha : FlatAll args) :
    Emits P frames (.defineCall targets callee args) frames := by
  refine (yields_callExpr targets callee args).bind fun text h ↦ ?_
  obtain ⟨rfl, hne, ht, hc⟩ := h
  exact yields_pure (soundBlock_line (text_before_call (flat_binding (by decide) ht)
    (leads_binding (by decide) hne ht) hc ha))

theorem emits_assignCall (ha : FlatAll args) :
    Emits P frames (.assignCall targets callee args) frames := by
  refine (yields_checkTargets targets).bind fun _ ht ↦ ?_
  refine (yields_checkedCall callee args).bind fun text h ↦ ?_
  obtain ⟨rfl, hc⟩ := h
  exact yields_pure (soundBlock_line (text_before_call (flat_binding (by decide) ht.2)
    (leads_binding (by decide) ht.1 ht.2) hc ha))

theorem emits_deferCall (ha : FlatAll args) :
    Emits P frames (.deferCall callee args) frames := by
  refine (yields_checkedCall callee args).bind fun text h ↦ ?_
  obtain ⟨rfl, hc⟩ := h
  exact yields_pure (soundBlock_line (text_before_call (flat_ofList (by decide))
    (leads_ofList (by decide)) hc ha))

theorem emits_returnCall (ha : FlatAll args) :
    Emits P frames (.returnCall callee args) frames := by
  refine (yields_checkedCall callee args).bind fun text h ↦ ?_
  obtain ⟨rfl, hc⟩ := h
  exact yields_pure (soundBlock_line (text_before_call (flat_ofList (by decide))
    (leads_ofList (by decide)) hc ha))

theorem emits_ret : Emits P frames .ret frames := by
  refine .ok (soundBlock_line (SoundLine.text ?_))
  exact (flat_ofList (by decide)).soundLine
    (tame_of_isWord (by decide) (by decide)) frames

theorem emits_returnValues (ha : FlatAll args) :
    Emits P frames (.returnValues args) frames := by
  rw [Emits, Step.emit]
  split_ifs
  · exact .error rfl
  refine (yields_checkArgs args).bind fun _ _ ↦ yields_pure (soundBlock_line (Flat.text ?_ ?_ _))
  · rw [String.toList_append]
    exact (flat_ofList (by decide)).append (flat_valueList ha)
  · rw [String.toList_append]
    exact (leads_ofList (by decide)).append _

theorem emits_declareVar (ht : Usable P type) : Emits P frames (.declareVar name type) frames := by
  refine (yields_checkTargets [name]).bind fun _ h ↦ yields_pure ?_
  refine soundBlock_typedLine (Flat.text ?_ ?_ _) ht
  · simp only [String.toList_append]
    exact (((flat_ofList (by decide)).append (flat_of_legal (h.2 name (by simp)))).append
      (flat_ofList (by decide))).append ht.flat
  · simp only [String.toList_append]
    exact (((leads_ofList (by decide)).append _).append _).append _

theorem emits_newInstance (ht : Usable P type) :
    Emits P frames (.newInstance name type) frames := by
  refine (yields_checkTargets [name]).bind fun _ h ↦ yields_pure ?_
  have hname := h.2 name (by simp)
  have hparens := flat_parens ht.flat
  have hsplit : (name ++ " := new(" ++ type.spell ++ ")").toList =
      (name.toList ++ " := new".toList) ++ ("(" ++ type.spell ++ ")").toList := by
    simp
  refine soundBlock_typedLine (Flat.text ?_ ?_ _) ht
  · rw [hsplit]
    exact ((flat_of_legal hname).append (flat_ofList (by decide))).append hparens
  · rw [hsplit]
    exact (leads_of_legal hname (by decide)).append _

theorem yields_checkBinary (op : Operator) : Yields op.checkBinary fun _ ↦ True := by
  unfold Operator.checkBinary
  split_ifs
  · exact .ok trivial
  · exact .error rfl

theorem emits_defineOperation (hl : Flat left.toList) (hr : Flat right.toList) :
    Emits P frames (.defineOperation name left op right) frames := by
  refine (yields_checkTargets [name]).bind fun _ h ↦ ?_
  refine (yields_checkOperandOf ..).bind fun _ _ ↦ ?_
  refine (yields_checkOperandOf ..).bind fun _ _ ↦ ?_
  refine (yields_inBlock (yields_checkBinary op)).bind fun _ _ ↦ ?_
  refine yields_pure (soundBlock_line (Flat.text ?_ ?_ _))
  · have hflat := @flat_condition left right op hl hr
    have hname := flat_of_legal (h.2 name (by simp))
    simp only [String.append_assoc] at hflat ⊢
    rw [String.toList_append, String.toList_append]
    exact hname.append ((flat_ofList (by decide)).append hflat)
  · simp only [String.append_assoc]
    rw [String.toList_append, String.toList_append, ← List.append_assoc]
    exact (leads_of_legal (h.2 name (by simp)) (by decide)).append _

theorem emits_typeAssert {value : String} (hv : Flat value.toList) (ht : Usable P type) :
    Emits P frames (.typeAssert targets value type) frames := by
  refine (yields_checkTargets targets).bind fun _ h ↦ ?_
  refine (yields_checkOperandOf ..).bind fun _ _ ↦ yields_pure ?_
  have hparens := flat_parens ht.flat
  have hsplit : (Name.valueList targets ++ " := " ++ value ++ ".(" ++ type.spell ++ ")").toList =
      (Name.valueList targets ++ " := ").toList ++
        ((value.toList ++ ".".toList) ++ ("(" ++ type.spell ++ ")").toList) := by
    simp
  refine soundBlock_typedLine (Flat.text ?_ ?_ _) ht
  · rw [hsplit]
    exact (flat_binding (by decide) h.2).append
      ((hv.append (flat_ofList (by decide))).append hparens)
  · rw [hsplit]
    exact (leads_binding (by decide) h.1 h.2).append _

theorem emits_assignField {target field value : String} (hv : Flat value.toList) :
    Emits P frames (.assignField target field value) frames := by
  refine (yields_inBlock (yields_checkSelector ..)).bind fun _ hs ↦ ?_
  refine (yields_checkTargets [field]).bind fun _ h ↦ ?_
  refine (yields_checkOperandOf ..).bind fun _ _ ↦ yields_pure (soundBlock_line (Flat.text ?_ ?_ _))
  · simp only [String.toList_append]
    exact (((Selector.flat hs).append (flat_ofList (by decide))).append
      (flat_of_legal (h.2 field (by simp)))).append (flat_ofList (by decide)) |>.append hv
  · simp only [String.toList_append]
    exact (((Selector.leads hs (by decide)).append _).append _).append _

def blockFrame (head : String) : Frame := ⟨'\x7b', .of '\x7b' (head.toList ++ [' '])⟩

theorem flat_if (hl : Flat left.toList) (hr : Flat right.toList) {lead : String}
    (hlead : Flat lead.toList) :
    Flat (lead ++ (left ++ " " ++ op.symbol ++ " " ++ right)).toList := by
  rw [String.toList_append]
  exact hlead.append (flat_condition hl hr)

theorem emits_ifBegin (hl : Flat left.toList) (hr : Flat right.toList) :
    Emits P frames (.ifBegin left op right)
      (blockFrame ("if " ++ (left ++ " " ++ op.symbol ++ " " ++ right)) :: frames) := by
  refine (yields_condition left op right).bind fun text h ↦ yields_pure (soundBlock_line ?_)
  subst h
  refine (flat_if hl hr (flat_ofList (by decide))).text_opening ?_ frames
  rw [String.toList_append]
  exact (leads_ofList (by decide)).append _

theorem emits_ifBlock (hl : Flat left.toList) (hr : Flat right.toList)
    (hf : blockFrame ("if " ++ (left ++ " " ++ op.symbol ++ " " ++ right)) = ⟨'\x7b', .ifBlock⟩) :
    Emits P frames (.ifBegin left op right) (⟨'\x7b', .ifBlock⟩ :: frames) := by
  rw [← hf]
  exact emits_ifBegin hl hr

theorem yields_ifScopedLine {init : String} (hi : Flat init.toList) (hl : Flat left.toList)
    (hr : Flat right.toList) :
    Yields (Step.ifScopedLine init left op right) fun text ↦
      SoundText frames text.toList (blockFrame
        ("if " ++ init ++ "; " ++ (left ++ " " ++ op.symbol ++ " " ++ right)) :: frames) := by
  refine (yields_checkOperandOf ..).bind fun _ _ ↦ ?_
  refine (yields_condition left op right).bind fun text h ↦ yields_pure ?_
  subst h
  refine (flat_if hl hr ?_).text_opening ?_ frames
  · simp only [String.toList_append]
    exact ((flat_ofList (by decide)).append hi).append (flat_ofList (by decide))
  · simp only [String.toList_append]
    exact (((leads_ofList (by decide)).append _).append _).append _

theorem emits_ifScoped {init : String} (hi : Flat init.toList) (hl : Flat left.toList)
    (hr : Flat right.toList) :
    Emits P frames (.ifScoped init left op right) (blockFrame
      ("if " ++ init ++ "; " ++ (left ++ " " ++ op.symbol ++ " " ++ right)) :: frames) :=
  (yields_ifScopedLine hi hl hr).bind fun _ h ↦ yields_pure (soundBlock_line h)

theorem emits_rangeBegin {key value list : String} (hl : Flat list.toList) :
    Emits P frames (.rangeBegin key value list)
      (blockFrame ("for " ++ key ++ ", " ++ value ++ " := range " ++ list) :: frames) := by
  refine (yields_checkTargets [key, value]).bind fun _ ht ↦ ?_
  refine (yields_checkOperandOf ..).bind fun _ _ ↦ yields_pure (soundBlock_line ?_)
  have hkey := flat_of_legal (ht.2 key (by simp))
  have hvalue := flat_of_legal (ht.2 value (by simp))
  refine Flat.text_opening ?_ ?_ frames
  · simp only [String.toList_append]
    exact (((((flat_ofList (by decide)).append hkey).append (flat_ofList (by decide))).append
      hvalue).append (flat_ofList (by decide))).append hl
  · simp only [String.toList_append]
    exact (((((leads_ofList (by decide)).append _).append _).append _).append _).append _

theorem toList_elseLine (mid : String) :
    ("\x7d" ++ mid ++ " \x7b").toList = '\x7d' :: (mid.toList ++ [' '] ++ ['\x7b']) := by
  simp

theorem blockFrame_elseLine (mid : String) :
    blockFrame ("\x7d" ++ mid) = ⟨'\x7b', .of '\x7b' ('\x7d' :: (mid.toList ++ [' ']))⟩ := by
  have hhead : ("\x7d" ++ mid).toList ++ [' '] = '\x7d' :: (mid.toList ++ [' ']) := by simp
  rw [blockFrame, hhead]

theorem Flat.text_else {mid : String} (h : Flat mid.toList) (frames : List Frame) :
    SoundText (⟨'\x7b', .ifBlock⟩ :: frames) ("\x7d" ++ mid ++ " \x7b").toList
      (blockFrame ("\x7d" ++ mid) :: frames) := by
  have hline := (h.append (b := [' ']) (flat_of_isFlat (by decide))).soundLine_else frames
  rw [toList_elseLine, blockFrame_elseLine]
  exact hline.text

theorem emits_elseIf (hl : Flat left.toList) (hr : Flat right.toList) :
    Emits P (⟨'\x7b', .ifBlock⟩ :: frames) (.elseIf left op right)
      (blockFrame ("\x7d else if " ++ (left ++ " " ++ op.symbol ++ " " ++ right)) :: frames) := by
  refine (yields_condition left op right).bind fun text h ↦ yields_pure (soundBlock_line ?_)
  subst h
  have hflat : Flat (" else if " ++ (left ++ " " ++ op.symbol ++ " " ++ right)).toList :=
    flat_if hl hr (flat_ofList (by decide))
  have htext := hflat.text_else frames
  rwa [← String.append_assoc, show "\x7d" ++ " else if " = "\x7d else if " by decide] at htext

theorem emits_elseIfBlock (hl : Flat left.toList) (hr : Flat right.toList)
    (hf : blockFrame ("\x7d else if " ++ (left ++ " " ++ op.symbol ++ " " ++ right)) =
      ⟨'\x7b', .ifBlock⟩) :
    Emits P (⟨'\x7b', .ifBlock⟩ :: frames) (.elseIf left op right)
      (⟨'\x7b', .ifBlock⟩ :: frames) := by
  have h : Emits P (⟨'\x7b', .ifBlock⟩ :: frames) (.elseIf left op right) _ :=
    emits_elseIf hl hr
  rwa [hf] at h

theorem emits_elseBegin :
    Emits P (⟨'\x7b', .ifBlock⟩ :: frames) .elseBegin (⟨'\x7b', .elseBlock⟩ :: frames) := by
  have hflat : Flat " else".toList := flat_ofList (by decide)
  have htext := hflat.text_else frames
  rw [show blockFrame ("\x7d" ++ " else") = ⟨'\x7b', .elseBlock⟩ by decide,
    show "\x7d" ++ " else" ++ " \x7b" = "\x7d else \x7b" by decide] at htext
  exact .ok (soundBlock_line htext)

theorem emits_close {opener : Opener} : Emits P (⟨'\x7b', opener⟩ :: frames) .close frames :=
  .ok (soundBlock_line (soundLine_closing rfl frames).text)

end Emits

end RpcStubs.Layout
