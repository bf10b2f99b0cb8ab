import RpcStubs.Proofs.Code.Types

namespace RpcStubs.Layout

open Text

variable {P : Import → Prop}

def SoundBody (P : Import → Prop) (b : Block) : Prop := ∀ frames, SoundBlock P frames b frames

theorem yields_soundBody {steps : List Step} (h : ∀ frames, Steps P frames steps frames) :
    Yields (Block.ofSteps steps) (SoundBody P) := yields_forall fun frames ↦ (h frames).ofSteps

theorem text_braced {head : String} (hf : Flat head.toList) (hl : Leads head.toList) {b : Block}
    (hb : SoundBody P b) (frames : List Frame) :
    SoundText frames (braced head b.source).toList frames := by
  have hopen := hf.text_opening hl frames
  have hclose : SoundText (⟨'\x7b', .of '\x7b' (head.toList ++ [' '])⟩ :: frames) ['\x7d'] frames :=
    (soundLine_closing rfl frames).text
  unfold braced
  split_ifs with he
  · have hsplit : (head ++ " \x7b\n\x7d").toList =
        (head ++ " \x7b").toList ++ '\n' :: ['\x7d'] := by
      simp
    rw [hsplit]
    exact hopen.append hclose
  · have hne : b.lines ≠ [] := by
      intro hnil
      rw [Block.source, hnil] at he
      exact he rfl
    have hsplit : (head ++ " \x7b\n" ++ b.source ++ "\n\x7d").toList =
        (head ++ " \x7b").toList ++ '\n' :: (b.source.toList ++ '\n' :: ['\x7d']) := by
      simp
    rw [hsplit]
    exact hopen.append (((hb _).lines.text hne).append hclose)

structure SoundSignature (P : Import → Prop) (params : List Parameter) (results : List GoType) :
    Prop where
  params : ∀ p ∈ params, identifierFault? p.name = none ∧ Usable P p.type
  results : ∀ t ∈ results, Usable P t

theorem SoundSignature.flat {params : List Parameter} {results : List GoType}
    (h : SoundSignature P params results) : Flat (signature params results).toList :=
  flat_signature (fun p hp ↦ ⟨flat_of_legal (h.params p hp).1, (h.params p hp).2.flat⟩)
    fun t ht ↦ (h.results t ht).flat

theorem mem_signatureImports {i : Import} {params : List Parameter} {results : List GoType} :
    i ∈ signatureImports params results ↔
      (∃ p ∈ params, i ∈ p.type.origins) ∨ ∃ t ∈ results, i ∈ t.origins := by
  rw [signatureImports, OrderedSet.mem_ofList, List.mem_append, mem_originsAll, mem_originsAll]
  simp

theorem SoundSignature.imports {params : List Parameter} {results : List GoType}
    (h : SoundSignature P params results) : ∀ i ∈ signatureImports params results, P i := by
  intro i hi
  rcases mem_signatureImports.1 hi with ⟨p, hp, hi⟩ | ⟨t, ht, hi⟩
  · exact (h.params p hp).2.imports i hi
  · exact (h.results t ht).imports i hi

theorem yields_signature {params : List Parameter} {results : List GoType}
    (hp : ∀ p ∈ params, Usable P p.type) (hr : ∀ t ∈ results, Usable P t) :
    Yields (Parameter.checkAll params) fun _ ↦ SoundSignature P params results :=
  (yields_checkAll params).mono fun _ h ↦ ⟨fun p hpm ↦ ⟨h p hpm, hp p hpm⟩, hr⟩

structure SoundFuncLiteral (P : Import → Prop) (f : FuncLiteral) : Prop where
  signature : SoundSignature P f.params f.results
  body : SoundBody P f.body

def literalHead (f : FuncLiteral) : String :=
  f.name.name ++ " := func" ++ signature f.params f.results

theorem SoundFuncLiteral.flat_head {f : FuncLiteral} (h : SoundFuncLiteral P f) :
    Flat (literalHead f).toList := by
  rw [literalHead, String.toList_append, String.toList_append]
  exact ((flat_of_legal f.name.legal).append (flat_ofList (by decide))).append h.signature.flat

theorem leads_literalHead (f : FuncLiteral) : Leads (literalHead f).toList := by
  rw [literalHead, String.toList_append, String.toList_append]
  exact (leads_of_legal f.name.legal (by decide)).append _

theorem SoundFuncLiteral.text {f : FuncLiteral} (h : SoundFuncLiteral P f) (frames : List Frame) :
    SoundText frames f.source.toList frames :=
  text_braced h.flat_head (leads_literalHead f) h.body frames

theorem SoundFuncLiteral.soundBlock {f : FuncLiteral} (h : SoundFuncLiteral P f)
    (frames : List Frame) : SoundBlock P frames ⟨[f.source], f.imports⟩ frames :=
  ⟨.cons (h.text frames) (.nil _), fun i hi ↦
    (OrderedSet.mem_union.1 hi).elim (h.signature.imports i) ((h.body frames).imports i)⟩

theorem emits_nestedFunc {f : FuncLiteral} (h : SoundFuncLiteral P f) {frames : List Frame} :
    Emits P frames (.nestedFunc f) frames := .ok (h.soundBlock frames)

theorem yields_funcLiteral {name : String} {params : List Parameter} {results : List GoType}
    (hp : ∀ p ∈ params, Usable P p.type) (hr : ∀ t ∈ results, Usable P t) :
    Yields (FuncLiteral.new name params results) fun f ↦
      ∀ b, SoundBody P b → SoundFuncLiteral P (f.withBody b) := by
  refine Yields.inBuilder ?_ _
  refine (yields_signature hp hr).bind fun _ hs ↦ (yields_ofString name).bind fun i _ ↦ ?_
  exact yields_pure fun _ hb ↦ ⟨hs, hb⟩

theorem emits_recoverGuard {wrapper : String} {handler : Block} (hh : SoundBody P handler)
    {frames : List Frame} : Emits P frames (.recoverGuard wrapper handler) frames := by
  have hguard : Yields (Step.ifScopedLine "r := recover()" "r" .notEqual "nil") fun text ↦
      ∀ frames : List Frame, SoundText frames text.toList
        (blockFrame ("if " ++ "r := recover()" ++ "; " ++ ("r" ++ " " ++ Operator.notEqual.symbol ++
          " " ++ "nil")) :: frames) :=
    yields_forall fun frames ↦ yields_ifScopedLine (flat_ofList (by decide))
      (flat_ofList (by decide)) (flat_ofList (by decide))
  have hcall {callee : String} {args : List String} (ha : FlatAll args) :
      Yields (Step.checkedCall callee args) fun text ↦
        ∀ frames, SoundText frames text.toList frames := by
    refine (yields_checkedCall callee args).mono fun text h frames ↦ ?_
    rw [h.1]
    exact (flat_callText h.2 ha).text (leads_callText h.2 args) frames
  refine (yields_checkTargets [wrapper]).bind fun _ ht ↦ hguard.bind fun guard hg ↦ ?_
  refine (hcall (flatAll_of_isFlat (by decide))).bind fun again ha ↦ ?_
  have hbody : SoundBody P (Step.line guard ++ handler ++ Step.line again ++ Step.line "\x7d") :=
    fun frames ↦ (((soundBlock_line (hg frames)).append (hh _)).append
      (soundBlock_line (ha _))).append (soundBlock_line (soundLine_closing rfl frames).text)
  refine (yields_funcLiteral (P := P) (by simp) (by simp)).bind fun f hf ↦ ?_
  refine (yields_checkedCall wrapper []).bind fun text h ↦ yields_pure ?_
  obtain ⟨rfl, hw⟩ := h
  refine ((hf _ hbody).soundBlock frames).append (soundBlock_line ?_)
  exact text_before_call (flat_ofList (by decide)) (leads_ofList (by decide)) hw flatAll_nil

def switchFrame : Frame := ⟨'\x7b', .switch⟩

/-- A `case` or `default` directly inside a switch. -/
theorem Flat.soundLine_clause {t : List Char} (h : Flat t) {c : Char} (hc : t.head? = some c)
    (hcd : c = 'c' ∨ c = 'd') (frames : List Frame) :
    SoundLine (switchFrame :: frames) t (switchFrame :: frames) := by
  have hhead : (trim t).head? = some c := by
    rw [head?_trim fun d hd ↦ ?_, hc]
    obtain rfl : c = d := Option.some_inj.1 (hc.symm.trans hd)
    rcases hcd with rfl | rfl <;> decide
  obtain ⟨rest, hr⟩ := exists_cons_of_head? hhead
  have hno {w : List Char} {d : Char} (hd : d ≠ c) : (d :: w).isPrefixOf (trim t) = false := by
    rw [hr, List.isPrefixOf, beq_eq_false_iff_ne.2 hd, Bool.false_and]
  have hbrace : '\x7d' ≠ c := by rcases hcd with rfl | rfl <;> decide
  have helse : 'e' ≠ c := by rcases hcd with rfl | rfl <;> decide
  refine h.soundLine_of_obeys (fun closedFirst ↦ ⟨fun he ↦ ?_, ?_, fun _ ↦ rfl⟩) nofun
  · rw [startsElse, Bool.or_eq_true] at he
    exact absurd (he.elim (hno hbrace).symm.trans (hno hbrace).symm.trans) (by decide)
  · rw [isLooseElse, Bool.or_eq_false_iff, Bool.or_eq_false_iff]
    refine ⟨⟨decide_eq_false fun he ↦ ?_, hno helse⟩, hno helse⟩
    have hp := hno (w := "lse".toList) helse
    rw [he] at hp
    exact absurd hp (by decide)

structure SoundSwitch (P : Import → Prop) (s : Switch) : Prop where
  head : ∀ frames, SoundText frames s.head.toList (switchFrame :: frames)
  cases : ∀ c ∈ s.cases, FlatAll c.values ∧ SoundBody P c.body
  fallback : ∀ b ∈ s.fallback, SoundBody P b

theorem yields_onValue {subject : String} (hs : Flat subject.toList)
    (hf : blockFrame ("switch " ++ subject) = switchFrame) :
    Yields (Switch.onValue subject) (SoundSwitch P) := by
  refine (yields_checkOperand ..).bind fun _ _ ↦ yields_pure ⟨fun frames ↦ ?_, by simp, by simp⟩
  rw [← hf]
  refine Flat.text_opening ?_ ?_ frames
  · rw [String.toList_append]
    exact (flat_ofList (by decide)).append hs
  · rw [String.toList_append]
    exact (leads_ofList (by decide)).append _

theorem yields_checkValues (values : List String) :
    Yields (Switch.checkValues values) fun _ ↦ True := by
  induction values with
  | nil => exact .ok trivial
  | cons v values ih =>
    rw [Switch.checkValues]
    exact (yields_checkOperand ..).bind fun _ _ ↦ ih

theorem SoundSwitch.addCase {s : Switch} (h : SoundSwitch P s) {values : List String}
    (hv : FlatAll values) {body : Block} (hb : SoundBody P body) :
    Yields (s.addCase values body) (SoundSwitch P) := by
  unfold Switch.addCase
  split_ifs
  · exact .error rfl
  refine (yields_checkValues values).bind fun _ _ ↦ yields_pure ⟨h.head, fun c hc ↦ ?_, h.fallback⟩
  rcases List.mem_append.1 hc with hc | hc
  · exact h.cases c hc
  · obtain rfl := List.mem_singleton.1 hc
    exact ⟨hv, hb⟩

theorem SoundSwitch.withFallback {s : Switch} (h : SoundSwitch P s) {body : Block}
    (hb : SoundBody P body) : SoundSwitch P (s.withFallback body) :=
  ⟨h.head, h.cases, fun b hbm ↦ by obtain rfl := Option.some_inj.1 hbm; exact hb⟩

theorem soundLines_branch {label : String} (hl : Flat label.toList) {c : Char}
    (hc : label.toList.head? = some c) (hcd : c = 'c' ∨ c = 'd') {body : Block}
    (hb : SoundBody P body) (frames : List Frame) :
    SoundLines (switchFrame :: frames) (Switch.branch label body) (switchFrame :: frames) := by
  have hlabel := (hl.soundLine_clause hc hcd frames).text
  unfold Switch.branch
  split_ifs with he
  · exact .cons hlabel (.nil _)
  · have hne : body.lines ≠ [] := by simpa [Block.isEmpty] using he
    exact .cons hlabel (.cons ((hb _).lines.text hne) (.nil _))

theorem soundLines_flatMap {α : Type} {l : List α} {f : α → List String} {frames : List Frame}
    (h : ∀ a ∈ l, SoundLines frames (f a) frames) : SoundLines frames (l.flatMap f) frames := by
  induction l with
  | nil => exact .nil _
  | cons a l ih =>
    rw [List.flatMap_cons]
    exact (h a List.mem_cons_self).append (ih fun b hb ↦ h b (List.mem_cons_of_mem a hb))

theorem SoundSwitch.soundLines {s : Switch} (h : SoundSwitch P s) (frames : List Frame) :
    SoundLines frames s.lines frames := by
  have hcases : SoundLines (switchFrame :: frames)
      (s.cases.flatMap fun c ↦ Switch.branch ("case " ++ Name.valueList c.values ++ ":") c.body)
      (switchFrame :: frames) := by
    refine soundLines_flatMap fun c hc ↦ ?_
    obtain ⟨hv, hb⟩ := h.cases c hc
    refine soundLines_branch (c := 'c') ?_ ?_ (.inl rfl) hb frames
    · simp only [String.toList_append]
      exact ((flat_ofList (by decide)).append (flat_valueList hv)).append
        (flat_ofList (by decide))
    · simp only [String.toList_append, List.append_assoc, List.head?_append]
      rfl
  have hfallback : SoundLines (switchFrame :: frames)
      (s.fallback.toList.flatMap (Switch.branch "default:")) (switchFrame :: frames) := by
    refine soundLines_flatMap fun b hb ↦ ?_
    exact soundLines_branch (c := 'd') (flat_ofList (by decide)) (by decide) (.inr rfl)
      (h.fallback b (Option.mem_toList.1 hb)) frames
  have hclose : SoundLines (switchFrame :: frames) ["\x7d"] frames :=
    .cons (soundLine_closing rfl frames).text (.nil _)
  rw [Switch.lines]
  exact (((SoundLines.cons (h.head frames) (.nil _)).append hcases).append hfallback).append hclose

theorem SoundSwitch.imports {s : Switch} (h : SoundSwitch P s) : ∀ i ∈ s.imports, P i := by
  intro i hi
  rw [Switch.imports, OrderedSet.mem_ofList, List.mem_flatMap] at hi
  obtain ⟨b, hb, hi⟩ := hi
  rw [Switch.bodies, List.mem_append] at hb
  rcases hb with hb | hb
  · obtain ⟨c, hc, rfl⟩ := List.mem_map.1 hb
    exact ((h.cases c hc).2 []).imports i hi
  · exact (h.fallback b (Option.mem_toList.1 hb) []).imports i hi

theorem emits_switch {s : Switch} (h : SoundSwitch P s) {frames : List Frame} :
    Emits P frames (.switch s) frames := by
  refine .ok ⟨.cons ((h.soundLines frames).text ?_) (.nil _), h.imports⟩
  simp [Switch.lines]

def entryLines (entries : List String) : String :=
  String.join (entries.map ("\n" ++ ·)) ++ (if entries.isEmpty then "\x7d" else "\n\x7d")

theorem text_terminated {l : List String} {s : List Char} {frames frames' : List Frame}
    (h : ∀ e ∈ l, SoundText frames e.toList frames) (hs : SoundText frames s frames') :
    SoundText frames (l.flatMap (fun e ↦ e.toList ++ ['\n']) ++ s) frames' := by
  induction l with
  | nil => exact hs
  | cons e l ih =>
    rw [List.flatMap_cons, List.append_assoc, List.append_assoc]
    exact (h e List.mem_cons_self).append (ih fun e' he' ↦ h e' (List.mem_cons_of_mem e he'))

theorem toList_entryLines {entries : List String} (hne : entries ≠ []) :
    (entryLines entries).toList =
      '\n' :: (entries.flatMap (fun e ↦ e.toList ++ ['\n']) ++ ['\x7d']) := by
  have hshift (l : List String) : l.flatMap (fun e ↦ '\n' :: e.toList) ++ ['\n'] =
      '\n' :: l.flatMap fun e ↦ e.toList ++ ['\n'] := by
    induction l with
    | nil => rfl
    | cons e l ih =>
      rw [List.flatMap_cons, List.flatMap_cons, List.append_assoc, ih]
      simp
  have hend : "\n\x7d".toList = ['\n'] ++ ['\x7d'] := by decide
  have hentry : (fun e : String ↦ ("\n" ++ e).toList) = fun e ↦ '\n' :: e.toList := by
    funext e
    rw [String.toList_append]
    rfl
  rw [entryLines, if_neg (by simpa using hne), String.toList_append, String.toList_join,
    List.flatMap_map, hend, ← List.append_assoc, hentry, hshift]
  rfl

theorem text_literal {head : String} (hf : Flat head.toList) (hl : Leads head.toList)
    {entries : List String} (h : ∀ e ∈ entries, ∀ frames, SoundText frames e.toList frames)
    (frames : List Frame) :
    SoundText frames (head ++ "\x7b" ++ entryLines entries).toList frames := by
  by_cases hne : entries = []
  · have hsplit : (head ++ "\x7b" ++ entryLines entries).toList =
        head.toList ++ "\x7b\x7d".toList := by
      rw [hne, entryLines]
      simp
    rw [hsplit]
    exact ((hf.append (flat_ofList (by decide))).soundLine (hl _) frames).text
  · have hsplit : (head ++ "\x7b" ++ entryLines entries).toList = (head.toList ++ ['\x7b']) ++
        '\n' :: (entries.flatMap (fun e ↦ e.toList ++ ['\n']) ++ ['\x7d']) := by
      rw [String.toList_append, toList_entryLines hne, String.toList_append]
      rfl
    rw [hsplit]
    exact (hf.soundLine_opening rfl (hl _) frames).text.append
      (text_terminated (fun e he ↦ h e he _) (soundLine_closing rfl frames).text)

structure SoundSlice (P : Import → Prop) (l : SliceLiteral) : Prop where
  element : Usable P l.element
  values : ∀ v ∈ l.values, Flat v.toList ∧ Leads v.toList

theorem yields_slice {name : String} {element : GoType} (fixed : Bool) (h : Usable P element) :
    Yields (SliceLiteral.new name element fixed) (SoundSlice P) :=
  ((yields_ofString name).inBuilder _).bind fun _ _ ↦ yields_pure ⟨h, by simp⟩

theorem SoundSlice.push {l : SliceLiteral} (h : SoundSlice P l) {value : String}
    (hf : Flat value.toList) (hl : Leads value.toList) :
    Yields (l.push value) (SoundSlice P) := by
  refine (yields_checkOperand ..).bind fun _ _ ↦ yields_pure ⟨h.element, fun v hv ↦ ?_⟩
  rcases List.mem_append.1 hv with hv | hv
  · exact h.values v hv
  · obtain rfl := List.mem_singleton.1 hv
    exact ⟨hf, hl⟩

theorem SoundSlice.flat_type {l : SliceLiteral} (h : SoundSlice P l) :
    Flat l.type.spell.toList := by
  unfold SliceLiteral.type
  split_ifs
  · exact flat_array h.element.flat _
  · exact flat_slice h.element.flat

theorem source_slice (l : SliceLiteral) :
    l.source = l.name.name ++ " := " ++ l.type.spell ++ "\x7b" ++
      entryLines (l.values.map (· ++ ",")) := by
  have hjoin : (l.values.map fun v ↦ "\n" ++ v ++ ",") =
      (l.values.map (· ++ ",")).map ("\n" ++ ·) := by
    rw [List.map_map]
    exact List.map_congr_left fun v _ ↦ String.append_assoc
  rw [SliceLiteral.source, entryLines, SliceLiteral.closeEntries, hjoin, List.isEmpty_map,
    String.append_assoc]

theorem SoundSlice.text {l : SliceLiteral} (h : SoundSlice P l) (frames : List Frame) :
    SoundText frames l.source.toList frames := by
  rw [source_slice]
  refine text_literal ?_ ?_ (fun e he frames ↦ ?_) frames
  · simp only [String.toList_append]
    exact ((flat_of_legal l.name.legal).append (flat_ofList (by decide))).append h.flat_type
  · simp only [String.toList_append]
    exact (leads_of_legal l.name.legal (by decide)).append _
  · obtain ⟨v, hv, rfl⟩ := List.mem_map.1 he
    obtain ⟨hf, hl⟩ := h.values v hv
    refine Flat.text ?_ ?_ frames
    · rw [String.toList_append]
      exact hf.append (flat_ofList (by decide))
    · rw [String.toList_append]
      exact hl.append _

theorem emits_sliceLiteral {l : SliceLiteral} (h : SoundSlice P l) {frames : List Frame} :
    Emits P frames (.sliceLiteral l) frames :=
  .ok ⟨.cons (h.text frames) (.nil _), fun i hi ↦
    h.element.imports i (OrderedSet.mem_ofList.1 hi)⟩

structure SoundStruct (P : Import → Prop) (l : StructLiteral) : Prop where
  type : Usable P l.type
  fields : ∀ field ∈ l.fields, identifierFault? field.1 = none ∧ Flat field.2.toList

theorem SoundStruct.addField {l : StructLiteral} (h : SoundStruct P l) {name value : String}
    (hv : Flat value.toList) :
    Yields (l.addField name value) fun l' ↦ SoundStruct P l' ∧ identifierFault? name = none := by
  unfold StructLiteral.addField
  split_ifs
  · exact .error rfl
  refine ((yields_checkIdentifier name).inBuilder _).bind fun _ hn ↦ ?_
  refine (yields_checkOperand ..).bind fun _ _ ↦ yields_pure ⟨⟨h.type, fun field hfield ↦ ?_⟩, hn⟩
  rcases List.mem_append.1 hfield with hfield | hfield
  · exact h.fields field hfield
  · obtain rfl := List.mem_singleton.1 hfield
    exact ⟨hn, hv⟩

theorem source_struct (l : StructLiteral) :
    l.source = l.type.spell ++ "\x7b" ++
      entryLines (l.fields.map fun field ↦ field.1 ++ ": " ++ field.2 ++ ",") := by
  have hentry (field : String × String) :
      "\n" ++ field.1 ++ ": " ++ field.2 ++ "," = "\n" ++ (field.1 ++ ": " ++ field.2 ++ ",") := by
    simp only [String.append_assoc]
  rw [StructLiteral.source, entryLines, List.map_map, List.isEmpty_map, String.append_assoc]
  simp only [hentry, Function.comp_def]

theorem emits_structLiteral {head : String} (hf : Flat head.toList)
    (hl : Leads (head.toList ++ [' '])) {l : StructLiteral} (h : SoundStruct P l)
    (byReference : Bool) {frames : List Frame} :
    Emits P frames (.structLiteral head l byReference) frames := by
  rw [Emits, Step.emit]
  by_cases hs : (trim head.toList).isEmpty = true
  · rw [if_pos hs]
    exact .error rfl
  rw [if_neg hs]
  refine yields_pure ⟨.cons ?_ (.nil _), fun i hi ↦ h.type.imports i (OrderedSet.mem_ofList.1 hi)⟩
  have hreference : Flat (if byReference then "&" else "").toList := by
    split_ifs
    · exact flat_ofList (by decide)
    · exact flat_nil
  rw [source_struct, ← String.append_assoc, ← String.append_assoc]
  refine text_literal ?_ ?_ (fun e he frames ↦ ?_) frames
  · simp only [String.toList_append]
    exact ((hf.append (flat_ofList (by decide))).append hreference).append h.type.flat
  · simp only [String.toList_append]
    exact (hl.append _).append _
  · obtain ⟨field, hfield, rfl⟩ := List.mem_map.1 he
    obtain ⟨hn, hv⟩ := h.fields field hfield
    refine Flat.text ?_ ?_ frames
    · simp only [String.toList_append]
      exact (((flat_of_legal hn).append (flat_ofList (by decide))).append hv).append
        (flat_ofList (by decide))
    · simp only [String.toList_append]
      exact ((leads_of_legal hn (by decide)).append _).append _

end RpcStubs.Layout
