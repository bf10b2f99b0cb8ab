import RpcStubs.Code.Declaration
import RpcStubs.Proofs.Code.Composites

namespace RpcStubs.Layout

open Text

variable {P : Import → Prop}

theorem text_comment {c : Comment} (hc : c.Lined) (hne : c.lines ≠ []) (frames : List Frame) :
    SoundText frames c.render.toList frames := by
  have hline (line : String) (h : '\n' ∉ line.toList) :
      SoundText frames (Comment.renderLine line).toList frames := by
    unfold Comment.renderLine
    split_ifs
    · exact (soundLine_comment (s := []) (by simp) frames).text
    · rw [String.toList_append]
      exact (soundLine_comment (s := ' ' :: line.toList) (by simp [h]) frames).text
  have hlines : SoundLines frames (c.lines.flatMap fun l ↦ [Comment.renderLine l]) frames :=
    soundLines_flatMap fun l hl ↦ .cons (hline l (hc l hl)) (.nil _)
  rw [← List.map_eq_flatMap] at hlines
  exact hlines.text (by simpa using hne)

theorem above_eq {c : Comment} (h : c.lines ≠ []) (s : String) :
    (c.above ++ s).toList = c.render.toList ++ '\n' :: s.toList := by
  rw [Comment.above, if_neg (by simpa [Comment.isEmpty] using h)]
  simp

theorem above_of_nil {c : Comment} (h : c.lines = []) (s : String) : c.above ++ s = s := by
  rw [Comment.above, if_pos (by simpa [Comment.isEmpty] using h), String.empty_append]

theorem text_above {c : Comment} (hc : c.Lined) {s : String} {frames frames' : List Frame}
    (h : SoundText frames s.toList frames') :
    SoundText frames (c.above ++ s).toList frames' := by
  by_cases hne : c.lines = []
  · rwa [above_of_nil hne]
  · rw [above_eq hne]
    exact (text_comment hc hne frames).append h

theorem getLast?_above {c : Comment} {s : String} {d : Char} (h : s.toList.getLast? = some d) :
    (c.above ++ s).toList.getLast? = some d := by
  rw [String.toList_append, List.getLast?_append, h]
  rfl

/-- The builder succeeds with text that is sound on its own. -/
def Renders (x : Build String) : Prop := ∃ text, x = .ok text ∧ SoundText [] text.toList []

theorem renders_finish {s : String} (h : SoundText [] s.toList []) {c : Char}
    (hc : s.toList.getLast? = some c) (hb : isBlank c = false) (builder : String) :
    Renders (finish builder s) := by
  obtain ⟨text, htext, hf⟩ := h.exists_fragment hc hb
  refine ⟨text, ?_, hf.sound⟩
  rw [finish, htext]
  rfl

theorem getLast?_braced (head body : String) :
    (braced head body).toList.getLast? = some '\x7d' := by
  unfold braced
  split_ifs <;> rw [String.toList_append, List.getLast?_append] <;> rfl

/-- Words that begin a declaration lead a line. -/
theorem leads_lead {lead : String} (h : isLead lead.toList = true) (rest : String) :
    Leads (lead ++ rest).toList := by
  rw [String.toList_append]
  exact (leads_of_isLead h).append _

structure SoundConst (P : Import → Prop) (d : Const) : Prop where
  comment : d.comment.Lined
  type : Usable P d.type
  value : Flat d.value.toList
  visible : ∃ c, d.value.toList.getLast? = some c ∧ isBlank c = false

theorem yields_const {name value : String} {type : GoType} (ht : Usable P type)
    (hv : Flat value.toList) {c : Char} (hl : value.toList.getLast? = some c)
    (hb : isBlank c = false) {comment : Comment} (hc : comment.Lined) :
    Yields (Const.new name type value) fun d ↦ SoundConst P (d.withComment comment) := by
  unfold Const.new
  refine ((yields_ofString name).inBuilder _).bind fun i _ ↦ ?_
  split_ifs
  · exact .error rfl
  · exact yields_pure ⟨hc, ht, hv, c, hl, hb⟩

theorem SoundConst.renders {d : Const} (h : SoundConst P d) : Renders d.render := by
  obtain ⟨c, hc, hb⟩ := h.visible
  have hsource : d.source =
      d.comment.above ++ ("const " ++ d.name.name ++ " " ++ d.type.spell ++ " = " ++ d.value) := by
    simp only [Const.source, String.append_assoc]
  rw [Const.render, hsource]
  refine renders_finish (text_above h.comment (Flat.text ?_ ?_ [])) (getLast?_above ?_) hb _
  · simp only [String.toList_append]
    exact (((((flat_ofList (by decide)).append (flat_of_legal d.name.legal)).append
      (flat_ofList (by decide))).append h.type.flat).append (flat_ofList (by decide))).append
      h.value
  · simp only [String.toList_append]
    exact (((((leads_ofList (by decide)).append _).append _).append _).append _).append _
  · rw [String.toList_append, List.getLast?_append, hc]
    rfl

def byteTexts (row : List UInt8) : String := " ".intercalate (row.map Var.byteToken)

theorem byteLiteral_eq (data : List UInt8) :
    Var.byteLiteral data =
      "[]byte" ++ "\x7b" ++ entryLines ((chunks Var.bytesPerLine data).map byteTexts) := by
  have hhead : "[]byte\x7b" = "[]byte" ++ "\x7b" := by decide
  have hempty : (chunks Var.bytesPerLine data).isEmpty = data.isEmpty := by
    cases data with
    | nil => rfl
    | cons b data =>
      have hne : chunks Var.bytesPerLine (b :: data) ≠ [] := chunks_ne_nil (by simp)
      simpa using hne
  have hrows : (chunks Var.bytesPerLine data).map Var.byteRow =
      ((chunks Var.bytesPerLine data).map byteTexts).map ("\n" ++ ·) := by
    rw [List.map_map]
    rfl
  rw [Var.byteLiteral, entryLines, hhead, hrows, List.isEmpty_map, hempty, String.append_assoc]

theorem toList_byteToken (b : UInt8) :
    (Var.byteToken b).toList = '0' :: 'x' :: (hexByte b ++ [',']) := by
  rw [Var.byteToken, String.toList_ofList]
  rfl

theorem flat_byteToken (b : UInt8) : Flat (Var.byteToken b).toList := by
  have hdigit : ∀ n < 16, isFlat [Nat.digitChar n] = true := by decide
  have hb : b.toNat < 256 := b.toNat_lt
  have hhigh := flat_of_isFlat (hdigit (b.toNat / 16) (by omega))
  have hlow := flat_of_isFlat (hdigit (b.toNat % 16) (by omega))
  have hlead : Flat ['0', 'x'] := flat_of_isFlat (by decide)
  have hcomma : Flat [','] := flat_of_isFlat (by decide)
  rw [toList_byteToken]
  exact hlead.append ((hhigh.append hlow).append hcomma)

theorem flat_byteTexts (row : List UInt8) : Flat (byteTexts row).toList := by
  rw [byteTexts, String.toList_intercalate]
  refine flat_intercalate (flat_ofList (by decide)) fun p hp ↦ ?_
  simp only [List.map_map, List.mem_map, Function.comp_apply] at hp
  obtain ⟨b, -, rfl⟩ := hp
  exact flat_byteToken b

theorem head?_byteTexts {row : List UInt8} (hne : row ≠ []) :
    (byteTexts row).toList.head? = some '0' := by
  have hfirst : ((row.map Var.byteToken).map String.toList).head? =
      some (Var.byteToken (row.head hne)).toList := by
    rw [List.head?_map, List.head?_map, List.head?_eq_some_head hne]
    rfl
  rw [byteTexts, String.toList_intercalate]
  refine head?_intercalate hfirst ?_
  rw [toList_byteToken]
  rfl

theorem getLast?_byteTexts {row : List UInt8} (hne : row ≠ []) :
    (byteTexts row).toList.getLast? = some ',' := by
  have hlast : ((row.map Var.byteToken).map String.toList).getLast? =
      some (Var.byteToken (row.getLast hne)).toList := by
    rw [List.getLast?_map, List.getLast?_map, List.getLast?_eq_some_getLast hne]
    rfl
  rw [byteTexts, String.toList_intercalate]
  refine getLast?_intercalate hlast ?_
  rw [toList_byteToken]
  rfl

theorem tame_byteTexts {row : List UInt8} (hne : row ≠ []) : Tame (byteTexts row).toList := by
  obtain ⟨rest, hrest⟩ := exists_cons_of_head? (head?_byteTexts hne)
  rw [hrest]
  exact tame_of_head (by decide) (by decide) rest

theorem text_byteTexts (row : List UInt8) (frames : List Frame) :
    SoundText frames (byteTexts row).toList frames := by
  by_cases hempty : row = []
  · subst hempty
    exact (soundLine_blank frames).text
  · exact ((flat_byteTexts row).soundLine (tame_byteTexts hempty) frames).text

structure BytesVar (d : Var) : Prop where
  comment : d.comment.Lined
  type : d.type = none
  value : ∃ data, d.value = Var.byteLiteral data

theorem yields_bytes (name : String) (data : List UInt8) {comment : Comment}
    (hc : comment.Lined) :
    Yields (Var.bytes name data) fun d ↦ BytesVar (d.withComment comment) := by
  unfold Var.bytes Var.new
  refine ((yields_ofString name).inBuilder _).bind fun i _ ↦ ?_
  split_ifs
  · exact .error rfl
  · exact yields_pure ⟨hc, rfl, data, rfl⟩

theorem getLast?_entryLines (entries : List String) :
    (entryLines entries).toList.getLast? = some '\x7d' := by
  unfold entryLines
  split_ifs <;> rw [String.toList_append, List.getLast?_append] <;> rfl

/-- A byte literal is never blank. -/
theorem bytes_eq_ok (name : Identifier) (data : List UInt8) :
    Var.bytes name.name data = .ok ⟨name, none, Var.byteLiteral data, {}⟩ := by
  have hlegal : Identifier.ofString name.name = .ok name := by
    unfold Identifier.ofString
    split
    · rfl
    · next fault hfault => cases name.legal.symm.trans hfault
  have hlast : (Var.byteLiteral data).toList.getLast? = some '\x7d' := by
    rw [byteLiteral_eq, String.toList_append, List.getLast?_append, getLast?_entryLines]
    rfl
  have hvisible : ¬(trim (Var.byteLiteral data).toList).isEmpty = true := by
    intro hempty
    have hblank := trim_eq_nil_iff.1 (List.isEmpty_iff.1 hempty) _ (List.mem_of_getLast? hlast)
    exact absurd hblank (by decide)
  unfold Var.bytes Var.new
  rw [hlegal]
  exact if_neg hvisible

theorem source_bytes {d : Var} (ht : d.type = none) {data : List UInt8}
    (hd : d.value = Var.byteLiteral data) :
    d.source = d.comment.above ++ ("var " ++ d.name.name ++ " = []byte" ++ "\x7b" ++
      entryLines ((chunks Var.bytesPerLine data).map byteTexts)) := by
  have hassign : " = []byte" = " = " ++ "[]byte" := by decide
  rw [Var.source, ht, hd, byteLiteral_eq, hassign]
  simp only [String.append_assoc, String.append_empty]

theorem flat_bytesHead {name : String} (h : identifierFault? name = none) :
    Flat ("var " ++ name ++ " = []byte").toList := by
  simp only [String.toList_append]
  exact ((flat_ofList (by decide)).append (flat_of_legal h)).append (flat_ofList (by decide))

theorem leads_bytesHead (name : String) : Leads ("var " ++ name ++ " = []byte").toList := by
  rw [String.append_assoc]
  exact leads_lead (by decide) _

theorem BytesVar.renders {d : Var} (h : BytesVar d) : Renders d.render := by
  obtain ⟨data, hd⟩ := h.value
  rw [Var.render, source_bytes h.type hd]
  refine renders_finish (text_above h.comment (text_literal (flat_bytesHead d.name.legal)
    (leads_bytesHead d.name.name) (fun e he frames ↦ ?_) []))
    (getLast?_above (d := '\x7d') ?_) (by decide) _
  · obtain ⟨row, -, rfl⟩ := List.mem_map.1 he
    exact text_byteTexts row frames
  · rw [String.toList_append, List.getLast?_append, getLast?_entryLines]
    rfl

structure SoundFunction (P : Import → Prop) (f : Function) : Prop where
  comment : f.comment.Lined
  signature : SoundSignature P f.params f.results
  body : SoundBody P f.body

/-- A function is sound with a sound body, whether it gets a comment or not. -/
theorem yields_build {name : String} {params : List Parameter} {results : List GoType}
    (hp : ∀ p ∈ params, Usable P p.type) (hr : ∀ t ∈ results, Usable P t) {b : Block}
    (hb : SoundBody P b) :
    Yields (Function.build name params results) fun f ↦
      SoundFunction P (f.withBody b) ∧
        ∀ text, SoundFunction P ((f.withComment text).withBody b) := by
  refine (yields_signature hp hr).bind fun _ hs ↦ (yields_ofString name).bind fun i _ ↦ ?_
  exact yields_pure ⟨⟨lined_empty, hs, hb⟩, fun text ↦ ⟨lined_wrapped text, hs, hb⟩⟩

theorem SoundFunction.flat_prototype {f : Function} (h : SoundFunction P f) :
    Flat f.prototype.toList := by
  rw [Function.prototype, String.toList_append]
  exact (flat_of_legal f.name.legal).append h.signature.flat

theorem SoundFunction.imports {f : Function} (h : SoundFunction P f) : ∀ i ∈ f.imports, P i :=
  fun i hi ↦ (OrderedSet.mem_union.1 hi).elim (h.signature.imports i) ((h.body []).imports i)

theorem SoundFunction.renders {f : Function} (h : SoundFunction P f) : Renders f.render := by
  refine renders_finish (text_above h.comment (text_braced ?_ ?_ h.body []))
    (getLast?_above (getLast?_braced _ _)) (by decide) _
  · rw [String.toList_append]
    exact (flat_ofList (by decide)).append h.flat_prototype
  · rw [String.toList_append]
    exact (leads_ofList (by decide)).append _

structure SoundMethod (P : Import → Prop) (m : Method) : Prop where
  receiver : Usable P m.receiverType
  function : SoundFunction P m.function

theorem yields_method {receiver name : String} {receiverType : GoType} {params : List Parameter}
    {results : List GoType} (ht : Usable P receiverType) (hp : ∀ p ∈ params, Usable P p.type)
    (hr : ∀ t ∈ results, Usable P t) {b : Block} (hb : SoundBody P b) :
    Yields (Method.new receiver receiverType name params results) fun m ↦
      SoundMethod P (m.withBody b) ∧ ∀ text, SoundMethod P ((m.withComment text).withBody b) := by
  unfold Method.new
  split_ifs
  · exact .error rfl
  refine Yields.inBuilder ?_ _
  refine (yields_ofString receiver).bind fun i _ ↦ (yields_build hp hr hb).bind fun f hf ↦ ?_
  exact yields_pure ⟨⟨ht, hf.1⟩, fun text ↦ ⟨ht, hf.2 text⟩⟩

theorem SoundMethod.imports {m : Method} (h : SoundMethod P m) : ∀ i ∈ m.imports, P i :=
  fun i hi ↦ (OrderedSet.mem_union.1 hi).elim (h.function.imports i) fun ho ↦
    h.receiver.imports i (OrderedSet.mem_ofList.1 ho)

theorem SoundMethod.flat_head {m : Method} (h : SoundMethod P m) : Flat m.head.toList := by
  have hreceiver :
      Flat ("(" ++ (m.receiver.name ++ " " ++ m.receiverType.spell) ++ ")").toList := by
    refine flat_parens ?_
    simp only [String.toList_append]
    exact ((flat_of_legal m.receiver.legal).append (flat_ofList (by decide))).append
      h.receiver.flat
  have hhead : m.head.toList = "func ".toList ++
      (("(" ++ (m.receiver.name ++ " " ++ m.receiverType.spell) ++ ")").toList ++
        (" ".toList ++ m.function.prototype.toList)) := by
    simp [Method.head]
  rw [hhead]
  exact (flat_ofList (by decide)).append
    (hreceiver.append ((flat_ofList (by decide)).append h.function.flat_prototype))

theorem leads_methodHead (m : Method) : Leads m.head.toList := by
  have hhead : m.head = "func " ++ ("(" ++ m.receiver.name ++ " " ++ m.receiverType.spell ++ ") " ++
      m.function.prototype) := by
    simp [Method.head, ← String.toList_inj]
  rw [hhead]
  exact leads_lead (by decide) _

theorem SoundMethod.renders {m : Method} (h : SoundMethod P m) : Renders m.render :=
  renders_finish (text_above h.function.comment
    (text_braced h.flat_head (leads_methodHead m) h.function.body []))
    (getLast?_above (getLast?_braced _ _)) (by decide) _

theorem toList_members (head : String) (members : List String) :
    (head ++ " \x7b\n" ++ String.join (members.map (· ++ "\n")) ++ "\x7d").toList =
      (head ++ " \x7b").toList ++
        '\n' :: (members.flatMap (fun e ↦ e.toList ++ ['\n']) ++ ['\x7d']) := by
  simp [List.flatMap_map]

theorem text_members {head : String} (hf : Flat head.toList) (hl : Leads head.toList)
    {members : List String} (h : ∀ e ∈ members, ∀ frames, SoundText frames e.toList frames)
    (frames : List Frame) :
    SoundText frames (head ++ " \x7b\n" ++ String.join (members.map (· ++ "\n")) ++ "\x7d").toList
      frames := by
  rw [toList_members]
  exact (hf.text_opening hl frames).append
    (text_terminated (fun e he ↦ h e he _) (soundLine_closing rfl frames).text)

theorem getLast?_members (s : String) : (s ++ "\x7d").toList.getLast? = some '\x7d' := by
  rw [String.toList_append, List.getLast?_append]
  rfl

structure SoundField (P : Import → Prop) (f : Field) : Prop where
  comment : f.comment.Lined
  type : Usable P f.type
  tag : f.tag = none
  embedded : f.name = none → Tame f.type.spell.toList

theorem SoundField.text {f : Field} (h : SoundField P f) (frames : List Frame) :
    SoundText frames f.source.toList frames := by
  rw [Field.source, h.tag, String.append_empty]
  refine text_above h.comment ?_
  split
  · next name hname =>
    refine Flat.text ?_ ?_ frames
    · simp only [String.toList_append]
      exact ((flat_of_legal name.legal).append (flat_ofList (by decide))).append h.type.flat
    · simp only [String.toList_append]
      exact (leads_of_legal name.legal (by decide)).append _
  · next hname => exact (h.type.flat.soundLine (h.embedded hname) frames).text

structure SoundStructure (P : Import → Prop) (s : Structure) : Prop where
  comment : s.comment.Lined
  fields : ∀ f ∈ s.fields, SoundField P f
  methods : ∀ m ∈ s.methods, SoundMethod P m

theorem yields_addField (s : Structure) {type : GoType} (ht : Usable P type) (name : String) :
    Yields (s.addField name type) fun s' ↦ SoundStructure P s → SoundStructure P s' := by
  refine ((yields_ofString name).inBuilder _).bind fun i _ ↦ yields_pure fun h ↦ ?_
  refine ⟨h.comment, fun f hf ↦ ?_, h.methods⟩
  rcases List.mem_append.1 hf with hf | hf
  · exact h.fields f hf
  · obtain rfl := List.mem_singleton.1 hf
    exact ⟨lined_wrapped "", ht, rfl, nofun⟩

theorem SoundStructure.addEmbedded {s : Structure} (h : SoundStructure P s) {type : GoType}
    (ht : Usable P type) (hl : Tame type.spell.toList) : SoundStructure P (s.addEmbedded type) := by
  refine ⟨h.comment, fun f hf ↦ ?_, h.methods⟩
  rcases List.mem_append.1 hf with hf | hf
  · exact h.fields f hf
  · obtain rfl := List.mem_singleton.1 hf
    exact ⟨lined_empty, ht, rfl, fun _ ↦ hl⟩

theorem SoundStructure.addMethods {s : Structure} (h : SoundStructure P s) {methods : List Method}
    (hm : ∀ m ∈ methods, SoundMethod P m) :
    SoundStructure P (methods.foldl Structure.addMethod s) := by
  induction methods generalizing s with
  | nil => exact h
  | cons m methods ih =>
    refine ih ⟨h.comment, h.fields, fun m' hm' ↦ ?_⟩ fun m' hm' ↦ hm m' (List.mem_cons_of_mem m hm')
    rcases List.mem_append.1 hm' with hm' | hm'
    · exact h.methods m' hm'
    · obtain rfl := List.mem_singleton.1 hm'
      exact hm m' List.mem_cons_self

theorem SoundStructure.renders {s : Structure} (h : SoundStructure P s) : Renders s.render := by
  have hsource : s.source = s.comment.above ++ ("type " ++ s.name.name ++ " struct" ++ " \x7b\n" ++
      String.join ((s.fields.map Field.source).map (· ++ "\n")) ++ "\x7d") := by
    have hhead : " struct \x7b\n" = " struct" ++ " \x7b\n" := by decide
    rw [Structure.source, Structure.bodySource, hhead, List.map_map]
    simp only [String.append_assoc]
    rfl
  rw [Structure.render, hsource]
  refine renders_finish (text_above h.comment (text_members ?_ ?_ (fun e he frames ↦ ?_) []))
    (getLast?_above (getLast?_members _)) (by decide) _
  · simp only [String.toList_append]
    exact ((flat_ofList (by decide)).append (flat_of_legal s.name.legal)).append
      (flat_ofList (by decide))
  · simp only [String.toList_append]
    exact ((leads_ofList (by decide)).append _).append _
  · obtain ⟨f, hf, rfl⟩ := List.mem_map.1 he
    exact (h.fields f hf).text frames

theorem SoundStructure.imports {s : Structure} (h : SoundStructure P s) :
    ∀ i ∈ s.imports, P i := by
  intro i hi
  rw [Structure.imports, OrderedSet.mem_ofList, List.mem_append, List.mem_flatMap,
    List.mem_flatMap] at hi
  rcases hi with ⟨f, hf, hi⟩ | ⟨m, hm, hi⟩
  · exact (h.fields f hf).type.imports i hi
  · exact (h.methods m hm).imports i hi

def methodLine (m : InterfaceMethod) : String := m.name.name ++ signature m.params m.results

theorem exists_toList_signature (params : List Parameter) (results : List GoType) :
    ∃ rest, (signature params results).toList = '(' :: rest := by
  unfold signature GoType.withResults
  split_ifs
  · exact ⟨_, by rw [String.toList_append, String.toList_append]; rfl⟩
  · exact ⟨_, by simp only [String.toList_append]; rfl⟩

theorem text_methodLine {m : InterfaceMethod} (h : SoundSignature P m.params m.results)
    (frames : List Frame) : SoundText frames (methodLine m).toList frames := by
  refine Flat.text ?_ ?_ frames
  · rw [methodLine, String.toList_append]
    exact (flat_of_legal m.name.legal).append h.flat
  · obtain ⟨rest, hrest⟩ := exists_toList_signature m.params m.results
    rw [methodLine, String.toList_append, hrest, ← List.singleton_append, ← List.append_assoc]
    exact (leads_of_legal m.name.legal (by decide)).append rest

structure SoundInterface (P : Import → Prop) (d : Interface) : Prop where
  comment : d.comment.Lined
  methods : ∀ m ∈ d.methods, m.comment.Lined ∧ SoundSignature P m.params m.results

theorem SoundInterface.imports {d : Interface} (h : SoundInterface P d) :
    ∀ i ∈ d.imports, P i := by
  intro i hi
  rw [Interface.imports, OrderedSet.mem_ofList, List.mem_flatMap] at hi
  obtain ⟨m, hm, hi⟩ := hi
  exact (h.methods m hm).2.imports i hi

theorem source_interface (d : Interface) :
    d.source = d.comment.above ++ ("type " ++ d.name.name ++ " interface" ++ " \x7b\n" ++
      String.join ((d.methods.map fun m ↦ m.comment.above ++ methodLine m).map (· ++ "\n")) ++
      "\x7d") := by
  have hhead : " interface \x7b\n" = " interface" ++ " \x7b\n" := by decide
  have hmembers : d.methods.map InterfaceMethod.source =
      (d.methods.map fun m ↦ m.comment.above ++ methodLine m).map (· ++ "\n") := by
    rw [List.map_map]
    refine List.map_congr_left fun m _ ↦ ?_
    simp only [InterfaceMethod.source, methodLine, Function.comp_apply, String.append_assoc]
  rw [Interface.source, hhead, hmembers]
  simp only [String.append_assoc]

theorem flat_interfaceHead (d : Interface) :
    Flat ("type " ++ d.name.name ++ " interface").toList := by
  simp only [String.toList_append]
  exact ((flat_ofList (by decide)).append (flat_of_legal d.name.legal)).append
    (flat_ofList (by decide))

theorem leads_interfaceHead (d : Interface) :
    Leads ("type " ++ d.name.name ++ " interface").toList := by
  simp only [String.toList_append]
  exact ((leads_ofList (by decide)).append _).append _

theorem SoundInterface.text {d : Interface} (h : SoundInterface P d) :
    SoundText [] d.source.toList [] := by
  rw [source_interface]
  refine text_above h.comment
    (text_members (flat_interfaceHead d) (leads_interfaceHead d) (fun e he frames ↦ ?_) [])
  obtain ⟨m, hm, rfl⟩ := List.mem_map.1 he
  obtain ⟨hc, hs⟩ := h.methods m hm
  exact text_above hc (text_methodLine hs frames)

theorem mem_pieces_above {c : Comment} {s : String} {t : List Char}
    (h : t ∈ pieces '\n' s.toList) : t ∈ pieces '\n' (c.above ++ s).toList := by
  by_cases hne : c.lines = []
  · rwa [above_of_nil hne]
  · rw [above_eq hne, pieces_append]
    exact List.mem_append_right _ h

theorem mem_pieces_terminated {l : List String} {e : String} (he : e ∈ l) {t : List Char}
    (h : t ∈ pieces '\n' e.toList) (s : List Char) :
    t ∈ pieces '\n' (l.flatMap (fun e ↦ e.toList ++ ['\n']) ++ s) := by
  induction l with
  | nil => cases he
  | cons e' l ih =>
    rw [List.flatMap_cons, List.append_assoc, List.append_assoc, List.singleton_append,
      pieces_append, List.mem_append]
    rcases List.mem_cons.1 he with rfl | he
    · exact .inl h
    · exact .inr (ih he)

theorem mem_pieces_interface {d : Interface} {m : InterfaceMethod} (hm : m ∈ d.methods)
    (hs : SoundSignature P m.params m.results) :
    (methodLine m).toList ∈ pieces '\n' d.source.toList := by
  have hline : (methodLine m).toList ∈ pieces '\n' (methodLine m).toList := by
    rw [pieces_of_not_mem]
    · exact List.mem_singleton_self _
    · rw [methodLine, String.toList_append]
      exact ((flat_of_legal m.name.legal).append hs.flat).single
  rw [source_interface]
  refine mem_pieces_above ?_
  rw [toList_members, pieces_append]
  have hmem : m.comment.above ++ methodLine m ∈
      d.methods.map fun m ↦ m.comment.above ++ methodLine m := List.mem_map.2 ⟨m, hm, rfl⟩
  exact List.mem_append_right _ (mem_pieces_terminated hmem (mem_pieces_above hline) _)

end RpcStubs.Layout
