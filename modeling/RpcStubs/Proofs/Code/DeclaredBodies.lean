import RpcStubs.Proofs.Code.BlockLayout
import RpcStubs.Proofs.Code.FailureKinds

namespace RpcStubs

open Text Layout

/-- The builder fails, and the layout is the reason. -/
def Refused (x : Build String) : Prop := ∃ failure, x = .error failure ∧ failure.isFormat = true

namespace Layout

def bodyLines (ls : List String) : List String :=
  if ("\n".intercalate ls).isEmpty then [] else ls

theorem joined_append {a b : List String} (ha : a ≠ []) (hb : b ≠ []) :
    "\n".intercalate (a ++ b) = "\n".intercalate a ++ "\n" ++ "\n".intercalate b := by
  rw [← String.toList_inj]
  simp only [String.toList_append, String.toList_intercalate, List.map_append]
  rw [intercalate_append _ (by simpa using ha) (by simpa using hb), List.append_assoc]

theorem joined_singleton (l : String) : "\n".intercalate [l] = l := by
  rw [← String.toList_inj, String.toList_intercalate]
  simp

theorem ne_nil_of_joined {ls : List String} (h : ¬("\n".intercalate ls).isEmpty = true) :
    ls ≠ [] := by
  rintro rfl
  exact h rfl

theorem braced_joined (head : String) (ls : List String) :
    braced head ("\n".intercalate ls) =
      "\n".intercalate ([head ++ " \x7b"] ++ bodyLines ls ++ ["\x7d"]) := by
  rw [braced, bodyLines]
  split_ifs with he
  · rw [List.append_nil, joined_append (by simp) (by simp), joined_singleton, joined_singleton,
      ← String.toList_inj]
    simp
  · have hne := ne_nil_of_joined he
    rw [joined_append (by simp) (by simp), joined_append (by simp) hne, joined_singleton,
      joined_singleton, ← String.toList_inj]
    simp

theorem Stands.unique {frames : List Frame} {blocks blocks' : List Bool}
    (h : Stands frames blocks) (h' : Stands frames blocks') : blocks = blocks' := by
  induction h generalizing blocks' with
  | nil =>
    cases h'
    rfl
  | @cons _ _ o k hk _ ih =>
    cases h' with
    | cons hk' h' => rw [ih h', Bool.eq_iff_iff.2 (hk.symm.trans hk')]

theorem Follows.eq_of_isEmpty {frames : List Frame} {ls : List String} {r : Option (List Bool)}
    (h : Follows frames ls r) {blocks : List Bool} (hs : Stands frames blocks)
    (he : ("\n".intercalate ls).isEmpty = true) : r = some blocks := by
  have hnil {l : String} {ls : List String} (he : ("\n".intercalate (l :: ls)).isEmpty = true) :
      l.toList = [] ∧ ls = [] := by
    rw [String.isEmpty_iff, ← String.toList_inj, String.toList_intercalate] at he
    cases ls with
    | nil => exact ⟨by simpa using he, rfl⟩
    | cons l' ls =>
      rw [List.map_cons, List.map_cons, List.intercalate_cons_cons] at he
      simp at he
  cases h with
  | done hs' => rw [hs.unique hs']
  | line hl hrest =>
    obtain ⟨hl', rfl⟩ := hnil he
    rw [SoundText, hl', pieces] at hl
    cases hl with
    | cons hline hend =>
      cases hend
      cases hrest with
      | done hs' =>
        rw [hline.eq_of_nil] at hs'
        rw [hs.unique hs']
  | stuck hl =>
    have hbrace := hl.brace
    rw [(hnil he).1] at hbrace
    cases hbrace

theorem Follows.bodyLines {frames : List Frame} {ls : List String} {r : Option (List Bool)}
    (h : Follows frames ls r) {blocks : List Bool} (hs : Stands frames blocks) :
    Follows frames (bodyLines ls) r := by
  rw [Layout.bodyLines]
  split_ifs with he
  · rw [h.eq_of_isEmpty hs he]
    exact .done hs
  · exact h

/-- The head of a declaration or literal, with a block after it that takes no branches. -/
structure Head (head : String) : Prop where
  flat : Flat head.toList
  leads : Leads head.toList
  kind : (blockFrame head).opener ≠ .ifBlock

/-- What lines do to the open blocks, wherever they stand. -/
def Leaves (ls : List String) (g : List Bool → Option (List Bool)) : Prop :=
  ∀ frames blocks, Stands frames blocks → Follows frames ls (g blocks)

theorem Leaves.append {a b : List String} {g g' : List Bool → Option (List Bool)}
    (ha : Leaves a g) (hb : Leaves b g') : Leaves (a ++ b) fun blocks ↦ (g blocks).bind g' :=
  fun frames blocks hs ↦ (ha frames blocks hs).bind hb

theorem Leaves.bodyLines {ls : List String} {g : List Bool → Option (List Bool)}
    (h : Leaves ls g) : Leaves (Layout.bodyLines ls) g :=
  fun frames blocks hs ↦ (h frames blocks hs).bodyLines hs

theorem Head.leaves {head : String} (h : Head head) :
    Leaves [head ++ " \x7b"] fun blocks ↦ some (false :: blocks) := by
  intro frames blocks hs
  have hk : (blockFrame head).opener = .ifBlock ↔ false = true := by simp [h.kind]
  exact .line (h.flat.text_opening h.leads frames) (.done (hs.block hk))

theorem leaves_close : Leaves ["\x7d"] (Step.close.turn takesBranches ·) :=
  fun _ _ hs ↦ (follows_close hs).of_ok

theorem leaves_ofSteps {steps : List Step} (h : ∀ s ∈ steps, s.Simple) {b : Block}
    (hb : Block.ofSteps steps = .ok b) :
    Leaves b.lines fun blocks ↦ openBlocks takesBranches blocks steps :=
  fun _ _ hs ↦ Block.follows_ofSteps h hb hs

theorem Head.leaves_braced {head : String} (h : Head head) {ls : List String}
    {g : List Bool → Option (List Bool)} (hls : Leaves ls g) :
    Leaves ([head ++ " \x7b"] ++ Layout.bodyLines ls ++ ["\x7d"]) fun blocks ↦
      (g (false :: blocks)).bind (Step.close.turn takesBranches ·) :=
  (h.leaves.append hls.bodyLines).append leaves_close

theorem finish_ofList {s t : List Char} (h : (formatChars s).map trim = .ok t) (builder : String) :
    finish builder (String.ofList s) = .ok (String.ofList t) := by
  rw [finish, formatFragment_ofList h]
  rfl

theorem exists_above_eq {c : Comment} (hc : c.Lined) (ls : List String) (hne : ls ≠ []) :
    ∃ cs, c.above ++ "\n".intercalate ls = "\n".intercalate (cs ++ ls) ∧ Leaves cs some := by
  by_cases hl : c.lines = []
  · exact ⟨[], above_of_nil hl _, fun _ _ hs ↦ .done hs⟩
  · refine ⟨[c.render], ?_, fun frames _ hs ↦ .line (text_comment hc hl frames) (.done hs)⟩
    rw [joined_append (by simp) hne, joined_singleton, ← String.toList_inj, above_eq hl]
    simp

/-- A declaration is laid out if its lines leave nothing open, and refused otherwise. -/
theorem Head.finish_cases {head : String} (h : Head head) {c : Comment} (hc : c.Lined)
    {ls : List String} {g : List Bool → Option (List Bool)} (hls : Leaves ls g)
    (builder : String) :
    (g [false]).bind (Step.close.turn takesBranches ·) = some [] ∧
        Renders (finish builder (c.above ++ braced head ("\n".intercalate ls))) ∨
      (g [false]).bind (Step.close.turn takesBranches ·) ≠ some [] ∧
        Refused (finish builder (c.above ++ braced head ("\n".intercalate ls))) := by
  have hlast : (c.above ++ braced head ("\n".intercalate ls)).toList.getLast? = some '\x7d' :=
    getLast?_above (getLast?_braced _ _)
  rw [braced_joined] at hlast ⊢
  obtain ⟨cs, hsource, hcs⟩ :=
    exists_above_eq hc ([head ++ " \x7b"] ++ bodyLines ls ++ ["\x7d"]) (by simp)
  have hfollows : Follows [] (cs ++ ([head ++ " \x7b"] ++ bodyLines ls ++ ["\x7d"]))
      ((g [false]).bind (Step.close.turn takesBranches ·)) :=
    (hcs.append (h.leaves_braced hls)) [] [] .nil
  rw [hsource] at hlast ⊢
  by_cases hr : (g [false]).bind (Step.close.turn takesBranches ·) = some []
  · rw [hr] at hfollows
    obtain ⟨frames, hsound, hs⟩ := hfollows.exists_sound
    cases hs
    exact .inl ⟨hr, renders_finish (hsound.text (by simp)) hlast (by decide) builder⟩
  · obtain ⟨reason, hreason⟩ := hfollows.formatFragment_eq_error hr
    generalize "\n".intercalate (cs ++ ([head ++ " \x7b"] ++ bodyLines ls ++ ["\x7d"])) = source
      at hreason
    have hfail : finish builder source = .error (.within builder (.format reason source)) := by
      rw [finish, hreason]
      rfl
    exact .inr ⟨hr, _, hfail, (laysOut_finish _ _).of_error _ hfail⟩

theorem not_refused_of_renders {x : Build String} (h : Renders x) : ¬Refused x := by
  rintro ⟨failure, hfailure, -⟩
  obtain ⟨text, htext, -⟩ := h
  rw [htext] at hfailure
  cases hfailure

theorem Head.refused_iff {head : String} (h : Head head) {c : Comment} (hc : c.Lined)
    {ls : List String} {g : List Bool → Option (List Bool)} (hls : Leaves ls g)
    (builder : String) :
    Refused (finish builder (c.above ++ braced head ("\n".intercalate ls))) ↔
      (g [false]).bind (Step.close.turn takesBranches ·) ≠ some [] := by
  obtain ⟨hr, hrenders⟩ | ⟨hr, hrefused⟩ := h.finish_cases hc hls builder
  · exact iff_of_false (not_refused_of_renders hrenders) (not_not_intro hr)
  · exact iff_of_true hrefused hr

theorem head_of_lead {lead rest : String} (hf : Flat (lead ++ rest).toList)
    (hl : isLead lead.toList = true) {c : Char} (hc : lead.toList.head? = some c)
    (hb : isBlank c = false) (hne : c ∉ ['\x7d', 'i', 'e']) : Head (lead ++ rest) where
  flat := hf
  leads := leads_lead hl rest
  kind := by
    refine blockFrame_ne_ifBlock ?_ hb hne
    rw [String.toList_append, List.head?_append, hc]
    rfl

end Layout

/-- A function as its builder makes it, before it gets its body. -/
inductive Function.Made : Function → Prop
  | new {name : String} {params : List Parameter} {results : List GoType} {f : Function} :
      Function.new name params results = .ok f → (∀ p ∈ params, p.type.Built) →
      (∀ t ∈ results, t.Built) → Made f
  | withComment {f : Function} (text : String) : Made f → Made (f.withComment text)

inductive Method.Made : Method → Prop
  | new {receiver name : String} {receiverType : GoType} {params : List Parameter}
      {results : List GoType} {m : Method} :
      Method.new receiver receiverType name params results = .ok m → receiverType.Built →
      (∀ p ∈ params, p.type.Built) → (∀ t ∈ results, t.Built) → Made m
  | withComment {m : Method} (text : String) : Made m → Made (m.withComment text)

inductive FuncLiteral.Made : FuncLiteral → Prop
  | new {name : String} {params : List Parameter} {results : List GoType} {l : FuncLiteral} :
      FuncLiteral.new name params results = .ok l → (∀ p ∈ params, p.type.Built) →
      (∀ t ∈ results, t.Built) → Made l

inductive Closure.Made : Closure → Prop
  | new {name : String} {params innerParams : List Parameter} {innerResults : List GoType}
      {c : Closure} : Closure.new name params innerParams innerResults = .ok c →
      (∀ p ∈ params, p.type.Built) → (∀ p ∈ innerParams, p.type.Built) →
      (∀ t ∈ innerResults, t.Built) → Made c
  | withComment {c : Closure} (text : String) : Made c → Made (c.withComment text)

theorem soundBody_empty : SoundBody (fun _ ↦ True) {} := fun frames ↦ soundBlock_empty frames

theorem usable_params {params : List Parameter} (h : ∀ p ∈ params, p.type.Built) :
    ∀ p ∈ params, Usable (fun _ ↦ True) p.type := fun p hp ↦ (h p hp).usable

theorem usable_results {results : List GoType} (h : ∀ t ∈ results, t.Built) :
    ∀ t ∈ results, Usable (fun _ ↦ True) t := fun t ht ↦ (h t ht).usable

theorem Function.Made.sound {f : Function} (h : f.Made) :
    SoundFunction (fun _ ↦ True) (f.withBody {}) := by
  induction h with
  | @new name params results f hf hp hr =>
    have hy : Yields (Function.new name params results) _ :=
      (yields_build (usable_params hp) (usable_results hr) soundBody_empty).inBuilder _
    rw [hf] at hy
    exact hy.of_ok.1
  | withComment text _ ih => exact ⟨lined_wrapped text, ih.signature, ih.body⟩

theorem Function.Made.head {f : Function} (h : f.Made) : Head ("func " ++ f.prototype) := by
  refine head_of_lead ?_ (by decide) rfl (by decide) (by decide)
  rw [String.toList_append]
  exact (flat_ofList (by decide)).append h.sound.flat_prototype

theorem Method.Made.sound {m : Method} (h : m.Made) :
    SoundMethod (fun _ ↦ True) (m.withBody {}) := by
  induction h with
  | @new receiver name receiverType params results m hm ht hp hr =>
    have hy : Yields (Method.new receiver receiverType name params results) _ :=
      yields_method ht.usable (usable_params hp) (usable_results hr) soundBody_empty
    rw [hm] at hy
    exact hy.of_ok.1
  | withComment text _ ih =>
    exact ⟨ih.receiver, lined_wrapped text, ih.function.signature, ih.function.body⟩

theorem Method.Made.head {m : Method} (h : m.Made) : Head m.head where
  flat := h.sound.flat_head
  leads := leads_methodHead m
  kind := by
    refine blockFrame_ne_ifBlock (c := 'f') ?_ (by decide) (by decide)
    simp [Method.head]

theorem FuncLiteral.Made.sound {l : FuncLiteral} (h : l.Made) :
    SoundFuncLiteral (fun _ ↦ True) (l.withBody {}) := by
  cases h with
  | @new name params results _ hl hp hr =>
    have hy : Yields (FuncLiteral.new name params results) _ :=
      yields_funcLiteral (usable_params hp) (usable_results hr)
    rw [hl] at hy
    exact hy.of_ok {} soundBody_empty

theorem FuncLiteral.Made.head {l : FuncLiteral} (h : l.Made) : Head (literalHead l) where
  flat := h.sound.flat_head
  leads := leads_literalHead l
  kind := by
    have hword := isWord_of_legal l.name.legal
    have hne (w : String) (hw : isKeyword w = true) : l.name.name.toList ≠ w.toList := by
      intro hl
      have hk := not_isKeyword_of_legal l.name.legal
      rw [String.toList_inj.1 hl, hw] at hk
      cases hk
    -- the name and a space stay when blanks at the end of the head are dropped
    obtain ⟨rest, hrest⟩ : ∃ rest, trim ((literalHead l).toList ++ [' ']) =
        l.name.name.toList ++ ' ' :: rest := by
      have hsplit : (literalHead l).toList ++ [' '] = (l.name.name.toList ++ [' ']) ++
          (":= func".toList ++ (signature l.params l.results).toList ++ [' ']) := by
        simp [literalHead]
      have hstart : trimStart ((literalHead l).toList ++ [' ']) =
          (literalHead l).toList ++ [' '] := by
        refine dropWhile_of_head fun c hc ↦ ?_
        obtain ⟨d, w, hw, hd⟩ := exists_of_isWord hword
        rw [hsplit, hw] at hc
        obtain rfl : d = c := Option.some_inj.1 hc
        exact isBlank_of_isWordChar (isWordChar_of_startsWord hd)
      have hvisible : trimEnd (":= func".toList ++ (signature l.params l.results).toList ++ [' ']) ≠
          [] := trimEnd_ne_nil (c := ':') (by simp) (by decide)
      refine ⟨trimEnd (":= func".toList ++ (signature l.params l.results).toList ++ [' ']), ?_⟩
      rw [trim, hstart, hsplit, trimEnd_append_of_ne_nil hvisible, List.append_assoc]
      rfl
    simp only [blockFrame]
    refine of_ne_ifBlock ?_
    have helse : ("else".toList ++ ' ' :: "if ".toList).isPrefixOf
        (l.name.name.toList ++ ' ' :: rest) = false :=
      not_isPrefixOf_word (not_mem_of_isWord hword (by decide)) (by decide)
        (.inl (hne "else" (by decide)).symm)
    rw [hrest, ofHead_word hword helse, if_neg (hne "if" (by decide))]
    split_ifs <;> decide

structure Closure.Sound (c : Closure) : Prop where
  comment : c.comment.Lined
  params : SoundSignature (fun _ ↦ True) c.params []
  inner : SoundSignature (fun _ ↦ True) c.innerParams c.innerResults

theorem Closure.Made.sound {c : Closure} (h : c.Made) : c.Sound := by
  induction h with
  | @new name params innerParams innerResults c hc hp hi hr =>
    have hy : Yields (Closure.new name params innerParams innerResults) Closure.Sound := by
      have hnone : ∀ t ∈ ([] : List GoType), Usable (fun _ ↦ True) t := by simp
      refine Yields.inBuilder ?_ _
      refine (yields_signature (usable_params hp) hnone).bind fun _ hparams ↦ ?_
      refine (yields_signature (usable_params hi) (usable_results hr)).bind fun _ hinner ↦ ?_
      exact (yields_ofString name).bind fun i _ ↦ yields_pure ⟨lined_empty, hparams, hinner⟩
    rw [hc] at hy
    exact hy.of_ok
  | withComment text _ ih => exact ⟨lined_wrapped text, ih.params, ih.inner⟩

/-- The head of the function that a closure returns. -/
theorem Closure.Made.innerHead {c : Closure} (h : c.Made) : Head ("return " ++ c.innerType) := by
  refine head_of_lead ?_ (by decide) rfl (by decide) (by decide)
  rw [String.toList_append, Closure.innerType, String.toList_append]
  exact (flat_ofList (by decide)).append ((flat_ofList (by decide)).append h.sound.inner.flat)

def Closure.head (c : Closure) : String :=
  "func " ++ c.name.name ++ "(" ++ Parameter.list c.params ++ ") " ++ c.innerType

theorem Closure.Made.head {c : Closure} (h : c.Made) : Head c.head := by
  have hparams : Flat ("(" ++ Parameter.list c.params ++ ")").toList :=
    flat_parens (flat_parameters fun p hp ↦
      ⟨flat_of_legal (h.sound.params.params p hp).1, (h.sound.params.params p hp).2.flat⟩)
  have hinner : Flat (" func" ++ signature c.innerParams c.innerResults).toList := by
    rw [String.toList_append]
    exact (flat_ofList (by decide)).append h.sound.inner.flat
  have hsplit : c.head = "func " ++
      (c.name.name ++ (("(" ++ Parameter.list c.params ++ ")") ++ (" func" ++
        signature c.innerParams c.innerResults))) := by
    rw [← String.toList_inj]
    simp [Closure.head, Closure.innerType]
  rw [hsplit]
  refine head_of_lead ?_ (by decide) rfl (by decide) (by decide)
  rw [String.toList_append, String.toList_append, String.toList_append]
  exact (flat_ofList (by decide)).append
    ((flat_of_legal c.name.legal).append (hparams.append hinner))

section Bodies

variable {steps : List Step} (hsimple : ∀ s ∈ steps, s.Simple) {b : Block}
  (hb : Block.ofSteps steps = .ok b)
include hsimple hb

theorem Layout.Head.refused_body_iff {head : String} (h : Head head) {c : Comment} (hc : c.Lined)
    (builder : String) (hn : ¬WellNested steps) :
    Refused (finish builder (c.above ++ braced head b.source)) ↔ ¬Escapes takesBranches steps := by
  have hiff := h.refused_iff hc (leaves_ofSteps hsimple hb) builder
  rw [← openBlocks_snoc, ne_eq, openBlocks_enclosed_iff] at hiff
  refine hiff.trans (not_congr (or_iff_right fun hopen ↦ hn ?_))
  exact wellNested_of_openBlocks hopen

theorem Function.Made.refused_iff {f : Function} (h : f.Made) (hn : ¬WellNested steps) :
    Refused (f.withBody b).render ↔ ¬Escapes takesBranches steps :=
  h.head.refused_body_iff hsimple hb h.sound.comment Function.builder hn

theorem Function.Made.renders_or_refused {f : Function} (h : f.Made) :
    Renders (f.withBody b).render ∨ Refused (f.withBody b).render :=
  (h.head.finish_cases h.sound.comment (leaves_ofSteps hsimple hb) Function.builder).imp
    And.right And.right

theorem Method.Made.refused_iff {m : Method} (h : m.Made) (hn : ¬WellNested steps) :
    Refused (m.withBody b).render ↔ ¬Escapes takesBranches steps :=
  h.head.refused_body_iff hsimple hb h.sound.function.comment Method.builder hn

theorem FuncLiteral.Made.refused_iff {l : FuncLiteral} (h : l.Made) (hn : ¬WellNested steps) :
    Refused (l.withBody b).render ↔ ¬Escapes takesBranches steps :=
  h.head.refused_body_iff hsimple hb lined_empty FuncLiteral.builder hn

end Bodies

/-- Between the braces of a closure, the steps of its two bodies leave nothing open. -/
def ClosesBoth (takes : String → Bool) (outer inner : List Step) : Prop :=
  ∃ blocks, openBlocks takes [false] outer = some blocks ∧
    openBlocks takes (false :: blocks) (inner ++ [.close, .close]) = some []

def Closure.lines (c : Closure) : List String :=
  bodyLines c.outer.lines ++
    (["return " ++ c.innerType ++ " \x7b"] ++ bodyLines c.inner.lines ++ ["\x7d"])

theorem Closure.body_eq (c : Closure) : c.body = "\n".intercalate c.lines := by
  rw [Closure.body, Closure.lines, Block.source, Block.source, braced_joined]
  by_cases he : ("\n".intercalate c.outer.lines).isEmpty = true
  · have hlines : bodyLines c.outer.lines = [] := if_pos he
    rw [if_pos he, hlines, List.nil_append, String.empty_append]
  · have hlines : bodyLines c.outer.lines = c.outer.lines := if_neg he
    rw [if_neg he, hlines, joined_append (ne_nil_of_joined he) (by simp)]

theorem Closure.Made.refused_iff {c : Closure} (h : c.Made) {outer inner : List Step}
    (ho : ∀ s ∈ outer, s.Simple) (hi : ∀ s ∈ inner, s.Simple) {a b : Block}
    (ha : Block.ofSteps outer = .ok a) (hb : Block.ofSteps inner = .ok b) :
    Refused ({ c with outer := a, inner := b } : Closure).render ↔
      ¬ClosesBoth takesBranches outer inner := by
  have hlines := (leaves_ofSteps ho ha).bodyLines.append
    (h.innerHead.leaves_braced (leaves_ofSteps hi hb))
  have hiff := h.head.refused_iff h.sound.comment hlines Closure.builder
  have hcloses : ((openBlocks takesBranches [false] outer).bind fun blocks ↦
      (openBlocks takesBranches (false :: blocks) inner).bind
        (Step.close.turn takesBranches ·)).bind (Step.close.turn takesBranches ·) = some [] ↔
      ClosesBoth takesBranches outer inner := by
    have htwo : inner ++ [Step.close, .close] = (inner ++ [.close]) ++ [.close] := by simp
    rw [ClosesBoth, htwo, Option.bind_assoc, Option.bind_eq_some_iff]
    simp only [openBlocks_snoc]
  rw [ne_eq, hcloses] at hiff
  have hsource : ({ c with outer := a, inner := b } : Closure).source =
      c.comment.above ++ braced c.head
        ("\n".intercalate ({ c with outer := a, inner := b } : Closure).lines) := by
    rw [← Closure.body_eq]
    rfl
  rw [Closure.render, hsource]
  exact hiff

theorem GoFile.exists_render_of_sections {g : GoFile} {texts : List String}
    (h : g.sections = .ok texts) : ∀ d ∈ g.funcs, ∃ text, d.render = .ok text := by
  obtain ⟨_, -, h⟩ := bind_eq_ok h
  obtain ⟨_, -, h⟩ := bind_eq_ok h
  obtain ⟨_, -, h⟩ := bind_eq_ok h
  obtain ⟨_, -, h⟩ := bind_eq_ok h
  obtain ⟨_, -, h⟩ := bind_eq_ok h
  obtain ⟨_, -, h⟩ := bind_eq_ok h
  obtain ⟨_, hfuncs, -⟩ := bind_eq_ok h
  exact exists_of_mapM_eq_ok hfuncs

/-- A file is refused with each of its functions. -/
theorem GoFile.refused_of_mem {g : GoFile} {f : Function} (hf : .function f ∈ g.funcs)
    (h : Refused f.render) : Refused g.finish.result := by
  cases hbody : g.body with
  | error failure =>
    refine ⟨failure, by rw [GoFile.finish, hbody], ?_⟩
    exact g.laysOut_body.of_error failure hbody
  | ok body =>
    obtain ⟨texts, htexts, -⟩ := bind_eq_ok hbody
    have hsections : g.sections = .ok texts := by
      cases hs : g.sections with
      | error e =>
        rw [hs] at htexts
        cases htexts
      | ok texts' =>
        rw [hs] at htexts
        exact htexts
    obtain ⟨failure, hfailure, -⟩ := h
    obtain ⟨text, htext⟩ := GoFile.exists_render_of_sections hsections _ hf
    rw [Declaration.render, hfailure] at htext
    cases htext

/-- A file with one function that can be laid out, and with imports that can. -/
theorem GoFile.exists_finish_addFunc (package : Identifier) (fileName : String) {f : Function}
    (h : Renders f.render)
    (hi : ∀ i ∈ f.imports, Importable i ∧ i.localName ≠ some "case") :
    ∃ text, (({ package, fileName } : GoFile).addFunc f).finish.result = .ok text := by
  obtain ⟨body, hbody, hsound⟩ := h
  have hfile : (({ package, fileName } : GoFile).addFunc f).body = .ok body := by
    have hsections : (({ package, fileName } : GoFile).addFunc f).sections = .ok [body] := by
      have hfuncs : [Declaration.function f].mapM Declaration.render = .ok [body] := by
        rw [List.mapM_cons, Declaration.render, hbody]
        rfl
      simp only [GoFile.sections, GoFile.addFunc, List.nil_append, hfuncs]
      rfl
    rw [GoFile.body, hsections]
    simp [Build.inBuilder, Except.mapError, bind, Except.bind, pure, Except.pure]
  have himports : ∀ i ∈ (({ package, fileName } : GoFile).addFunc f).declaredImports,
      i ∈ f.imports := by
    intro i hi
    simpa [GoFile.declaredImports, GoFile.addFunc, GoFile.structures, Declaration.imports,
      ← OrderedSet.mem_def] using hi
  obtain ⟨text, htext⟩ : ∃ text,
      (({ package, fileName } : GoFile).addFunc f).layOut body = .ok text :=
    exists_layOut (text_frontMatter lined_empty) (fun _ ↦ hsound)
      (fun i hm ↦ (hi i (himports i hm)).1) fun i hm ↦ (hi i (himports i hm)).2
  refine ⟨text, ?_⟩
  simp only [GoFile.finish, hfile, htext]

/-- When a body that is not well nested is refused, wherever it stands. -/
theorem Block.refused_iff_not_escapes {steps : List Step} (hsimple : ∀ s ∈ steps, s.Simple)
    (hn : ¬WellNested steps) {b : Block} (hb : Block.ofSteps steps = .ok b) :
    (∀ f : Function, f.Made →
      (Refused (f.withBody b).render ↔ ¬Escapes takesBranches steps)) ∧
    (∀ m : Method, m.Made →
      (Refused (m.withBody b).render ↔ ¬Escapes takesBranches steps)) ∧
    (∀ l : FuncLiteral, l.Made →
      (Refused (l.withBody b).render ↔ ¬Escapes takesBranches steps)) ∧
    (∀ (c : Closure) (others : List Step) (o : Block), c.Made → (∀ s ∈ others, s.Simple) →
      Block.ofSteps others = .ok o →
      (Refused ({ c with outer := b, inner := o } : Closure).render ↔
        ¬ClosesBoth takesBranches steps others) ∧
      (Refused ({ c with outer := o, inner := b } : Closure).render ↔
        ¬ClosesBoth takesBranches others steps)) ∧
    (∀ (g : GoFile) (f : Function), f.Made → .function (f.withBody b) ∈ g.funcs →
      ¬Escapes takesBranches steps → Refused g.finish.result) ∧
    ∀ (package : Identifier) (fileName : String) (f : Function), f.Made →
      (∀ i ∈ (f.withBody b).imports, Importable i ∧ i.localName ≠ some "case") →
      (Refused (({ package, fileName } : GoFile).addFunc (f.withBody b)).finish.result ↔
        ¬Escapes takesBranches steps) := by
  have hfile {g : GoFile} {f : Function} (hf : f.Made) (hm : .function (f.withBody b) ∈ g.funcs)
      (he : ¬Escapes takesBranches steps) : Refused g.finish.result :=
    GoFile.refused_of_mem hm ((hf.refused_iff hsimple hb hn).2 he)
  refine ⟨fun f hf ↦ hf.refused_iff hsimple hb hn, fun m hm ↦ hm.refused_iff hsimple hb hn,
    fun l hl ↦ hl.refused_iff hsimple hb hn, fun c others o hc ho hb' ↦
      ⟨hc.refused_iff hsimple ho hb hb', hc.refused_iff ho hsimple hb' hb⟩,
    fun g f hf hm he ↦ hfile hf hm he, fun package fileName f hf hi ↦ ⟨fun h he ↦ ?_, fun he ↦ ?_⟩⟩
  · have hrenders := (hf.renders_or_refused hsimple hb).resolve_right fun hr ↦
      (hf.refused_iff hsimple hb hn).1 hr he
    obtain ⟨text, htext⟩ := GoFile.exists_finish_addFunc package fileName hrenders hi
    obtain ⟨failure, hfailure, -⟩ := h
    rw [htext] at hfailure
    cases hfailure
  · exact hfile hf (by simp [GoFile.addFunc]) he

/-- A branch that is not closed is refused in a function. -/
theorem Block.refused_iff_not_escapes_unclosed :
    ∃ f, Function.new "F" [] [] = .ok f ∧
      Refused (f.withBody ⟨["if a == b \x7b"], ∅⟩).render := by
  have hsimple : ∀ s ∈ [Step.ifBegin "a" .equal "b"], s.Simple :=
    List.forall_mem_singleton.2 ⟨rfl, rfl⟩
  have hn : ¬WellNested [.ifBegin "a" .equal "b"] :=
    Misnested.not_wellNested (.unequal (by decide))
  have hnew : Function.new "F" [] [] = .ok ⟨⟨"F", by decide⟩, {}, [], [], {}⟩ := rfl
  have hmade : Function.Made ⟨⟨"F", by decide⟩, {}, [], [], {}⟩ := .new hnew (by simp) (by simp)
  refine ⟨_, hnew, ((Block.refused_iff_not_escapes hsimple hn rfl).1 _ hmade).2 ?_⟩
  rintro ⟨a, b, k, hsteps, -, -⟩
  have hmem : Step.close ∈ [Step.ifBegin "a" .equal "b"] := by
    rw [hsteps]
    simp
  simp at hmem

/-- A body that closes the function around it and opens a block for the brace that is left is
written out, although it is not well nested. -/
theorem Block.renders_escaped :
    ¬WellNested [.close, .ifBegin "a" .equal "b"] ∧
      Block.ofSteps [.close, .ifBegin "a" .equal "b"] = .ok ⟨["\x7d", "if a == b \x7b"], ∅⟩ ∧
      (∀ s ∈ [Step.close, .ifBegin "a" .equal "b"], s.Simple) ∧
      ∃ f, Function.new "Broken" [] [] = .ok f ∧
        (f.withBody ⟨["\x7d", "if a == b \x7b"], ∅⟩).render =
          .ok "func Broken() \x7b\n\x7d\nif a == b \x7b\n\x7d" := by
  have hbroken : identifierFault? "Broken" = none := by decide
  have hsource : ((⟨⟨"Broken", hbroken⟩, {}, [], [], {}⟩ : Function).withBody
      ⟨["\x7d", "if a == b \x7b"], ∅⟩).source =
        "func Broken() \x7b\n\x7d\nif a == b \x7b\n\x7d" := rfl
  refine ⟨Misnested.not_wellNested (.earlyClose (a := []) .nil), rfl, ?_, _, rfl, ?_⟩
  · exact List.forall_mem_cons.2 ⟨trivial, List.forall_mem_singleton.2 ⟨rfl, rfl⟩⟩
  · rw [Function.render, hsource]
    exact finish_ofList (by decide +kernel) _

end RpcStubs
