import RpcStubs.Proofs.Code.Preamble
import RpcStubs.Proofs.Stub.Runs

namespace RpcStubs

namespace Text

theorem pieces_append_of_not_mem {sep : Char} {a : List Char} (ha : sep ∉ a) {s p : List Char}
    {ps : List (List Char)} (h : pieces sep s = p :: ps) :
    pieces sep (a ++ s) = (a ++ p) :: ps := by
  induction a with
  | nil => exact h
  | cons c a ih =>
    simp only [List.mem_cons, not_or] at ha
    exact pieces_cons_of_ne (Ne.symm ha.1) (ih ha.2)

theorem pieces_intercalate_flatMap {sep : Char} {ts : List (List Char)} (hne : ts ≠ []) :
    pieces sep (List.intercalate [sep] ts) = ts.flatMap (pieces sep) := by
  induction ts with
  | nil => exact absurd rfl hne
  | cons t ts ih =>
    cases ts with
    | nil => simp
    | cons u ts =>
      rw [List.intercalate_cons_cons, List.append_assoc, List.singleton_append, pieces_append,
        ih (by simp)]
      rfl

theorem blanks_of_mem_pieces {sep : Char} {s p : List Char} (hs : Blanks s)
    (h : p ∈ pieces sep s) : Blanks p := by
  intro c hc
  have hwithin : p <:+: List.intercalate [sep] (pieces sep s) := Layout.infix_intercalate h
  rw [intercalate_pieces] at hwithin
  exact hs c (hwithin.subset hc)

/-- Blanks at the end of a text come after its last piece, or make up pieces of their own. -/
theorem exists_pieces_append_blanks (sep : Char) {trail : List Char} (ht : Blanks trail)
    (s : List Char) :
    ∃ firsts rest, pieces sep (s ++ trail) = firsts ++ rest ∧
      List.Forall₂ (fun q p ↦ ∃ b, Blanks b ∧ p = q ++ b) (pieces sep s) firsts ∧
      ∀ t ∈ rest, Blanks t := by
  induction s with
  | nil =>
    obtain ⟨p, ps, hp⟩ := List.exists_cons_of_ne_nil (pieces_ne_nil sep trail)
    have hall : ∀ t ∈ pieces sep trail, Blanks t := fun t ↦ blanks_of_mem_pieces ht
    rw [hp, List.forall_mem_cons] at hall
    exact ⟨[p], ps, hp, .cons ⟨p, hall.1, rfl⟩ .nil, hall.2⟩
  | cons c s ih =>
    obtain ⟨firsts, rest, hpieces, hfirsts, hrest⟩ := ih
    by_cases hc : c = sep
    · refine ⟨[] :: firsts, rest, ?_, ?_, hrest⟩
      · rw [List.cons_append, pieces, if_pos hc, hpieces, List.cons_append]
      · rw [pieces, if_pos hc]
        exact .cons ⟨[], List.forall_mem_nil _, rfl⟩ hfirsts
    · obtain ⟨q, qs, hq⟩ := List.exists_cons_of_ne_nil (pieces_ne_nil sep s)
      rw [hq] at hfirsts
      cases hfirsts with
      | @cons _ p _ firsts hp hfirsts =>
        obtain ⟨b, hb, rfl⟩ := hp
        refine ⟨(c :: (q ++ b)) :: firsts, rest, pieces_cons_of_ne hc hpieces, ?_, hrest⟩
        rw [pieces_cons_of_ne hc hq]
        exact .cons ⟨b, hb, rfl⟩ hfirsts

end Text

namespace Layout

open Text

/-- Text of which every line but the first is blank or a comment. -/
def Contained (s : List Char) : Prop := ∀ t ∈ (pieces '\n' s).tail, Remark t

theorem contained_of_not_mem {s : List Char} (h : '\n' ∉ s) : Contained s := by
  rw [Contained, pieces_of_not_mem h]
  exact nofun

theorem contained_append {a : List Char} (ha : '\n' ∉ a) (s : List Char) :
    Contained (a ++ s) ↔ Contained s := by
  obtain ⟨p, ps, hp⟩ := List.exists_cons_of_ne_nil (pieces_ne_nil '\n' s)
  rw [Contained, Contained, pieces_append_of_not_mem ha hp, hp]
  rfl

theorem remark_append_blanks {b : List Char} (hb : Blanks b) (t : List Char) :
    Remark (t ++ b) ↔ Remark t := by
  rw [Remark, Remark, trim_append_blanks hb]

theorem contained_trimEnd (s : List Char) : Contained (trimEnd s) ↔ Contained s := by
  obtain ⟨trail, hs, htrail, -⟩ := exists_trimEnd s
  obtain ⟨firsts, rest, hpieces, hfirsts, hrest⟩ :=
    exists_pieces_append_blanks '\n' htrail (trimEnd s)
  have hall {qs ps : List (List Char)}
      (h : List.Forall₂ (fun q p ↦ ∃ b, Blanks b ∧ p = q ++ b) qs ps) :
      (∀ t ∈ ps, Remark t) ↔ ∀ t ∈ qs, Remark t := by
    induction h with
    | nil => rfl
    | cons hp _ ih =>
      obtain ⟨b, hb, rfl⟩ := hp
      rw [List.forall_mem_cons, List.forall_mem_cons, remark_append_blanks hb, ih]
  rw [← hs] at hpieces
  obtain ⟨q, qs, hq⟩ := List.exists_cons_of_ne_nil (pieces_ne_nil '\n' (trimEnd s))
  rw [hq] at hfirsts
  cases hfirsts with
  | @cons _ p _ ps _ hps =>
    rw [Contained, Contained, hq, hpieces, List.cons_append, List.tail_cons, List.tail_cons,
      List.forall_mem_append, hall hps]
    exact ⟨fun h ↦ ⟨h, fun t ht ↦ .inl (trim_eq_nil_iff.2 (hrest t ht))⟩, fun h ↦ h.1⟩

theorem isCommentText_trim (s : List Char) : isCommentText (trim ('/' :: '/' :: s)) = true := by
  have hslash : isBlank '/' = false := by decide
  obtain ⟨trail, he, htrail⟩ := exists_trim_of_head (t := '/' :: '/' :: s) fun c hc ↦ by
    rwa [← Option.some_inj.1 hc]
  have hnot (c : Char) (hc : c ∈ trail) : c ≠ '/' := by
    rintro rfl
    rw [htrail _ hc] at hslash
    cases hslash
  rcases hcore : trim ('/' :: '/' :: s) with _ | ⟨c, _ | ⟨d, core⟩⟩
  all_goals rw [hcore] at he
  · obtain rfl : trail = '/' :: '/' :: s := he.symm
    exact absurd rfl (hnot '/' List.mem_cons_self)
  · obtain rfl : trail = '/' :: s := (List.cons.inj he).2.symm
    exact absurd rfl (hnot '/' List.mem_cons_self)
  · obtain ⟨rfl, htail⟩ := List.cons.inj he
    obtain ⟨rfl, -⟩ := List.cons.inj htail
    rfl

/-- Every line of a comment starts as one; the others come from within its lines. -/
theorem remark_renderLine_iff (line : String) :
    (∀ t ∈ pieces '\n' (Comment.renderLine line).toList, Remark t) ↔ Contained line.toList := by
  unfold Comment.renderLine
  split_ifs with he
  · rw [String.isEmpty_iff.1 he]
    refine ⟨fun _ ↦ contained_of_not_mem List.not_mem_nil, fun _ ↦ ?_⟩
    rw [pieces_of_not_mem (by decide)]
    exact List.forall_mem_singleton.2 (.inr (by decide))
  · obtain ⟨p, ps, hp⟩ := List.exists_cons_of_ne_nil (pieces_ne_nil '\n' line.toList)
    have hfirst : Remark ("// ".toList ++ p) := .inr (isCommentText_trim (' ' :: p))
    rw [String.toList_append, pieces_append_of_not_mem (by decide) hp, Contained, hp,
      List.forall_mem_cons, List.tail_cons]
    exact and_iff_right hfirst

theorem mem_pieces_render {c : Comment} (hc : c.lines ≠ []) {t : List Char} :
    t ∈ pieces '\n' c.render.toList ↔
      ∃ line ∈ c.lines, t ∈ pieces '\n' (Comment.renderLine line).toList := by
  have hsep : "\n".toList = ['\n'] := by decide
  rw [Comment.render, String.toList_intercalate, hsep,
    pieces_intercalate_flatMap (by simpa using hc), List.map_map, List.flatMap_map,
    List.mem_flatMap]
  rfl

theorem remark_render_iff (c : Comment) :
    (∀ t ∈ pieces '\n' c.render.toList, Remark t) ↔ ∀ line ∈ c.lines, Contained line.toList := by
  by_cases hc : c.lines = []
  · rw [Comment.render, hc]
    exact ⟨fun _ ↦ List.forall_mem_nil _, fun _ ↦ List.forall_mem_singleton.2 (.inl rfl)⟩
  · simp only [mem_pieces_render hc, ← remark_renderLine_iff]
    constructor
    · intro h line hline t ht
      exact h t ⟨line, hline, ht⟩
    · rintro h t ⟨line, hline, ht⟩
      exact h line hline t ht

theorem contained_ofLines_iff (lines : List String) :
    (∀ line ∈ (Comment.ofLines lines).lines, Contained line.toList) ↔
      ∀ line ∈ lines, Contained line.toList := by
  rw [Comment.ofLines, List.forall_mem_map]
  simp only [String.toList_ofList, contained_trimEnd]

end Layout

namespace Stub

open Text Layout
open Schema (Context File)

theorem contained_banner_iff (name : String) :
    (∀ line ∈ Header.banner name, Contained line.toList) ↔ Contained name.toList := by
  simp only [Header.banner, List.forall_mem_cons, List.not_mem_nil, false_imp_iff, implies_true,
    and_true]
  have hname : Contained ("source: " ++ name).toList ↔ Contained name.toList := by
    rw [String.toList_append, contained_append (by decide)]
  rw [hname]
  exact and_iff_right (contained_of_not_mem (by decide))

theorem contained_sourceList_iff (names : List String) :
    (∀ line ∈ Header.sourceList names, Contained line.toList) ↔
      ∀ name ∈ names, Contained name.toList := by
  have hfixed : ∀ line ∈ ["", "It is generated from these files:"], Contained line.toList := by
    refine fun line hline ↦ contained_of_not_mem ?_
    revert line
    decide
  rw [Header.sourceList, List.forall_mem_append, List.forall_mem_map]
  simp only [String.toList_append, contained_append (show '\n' ∉ "\t".toList by decide)]
  exact and_iff_right hfixed

/-- The names that a header repeats stay in its comment. -/
def ContainedNames (ctx : Context) (f : File) (first : Prop) : Prop :=
  Contained f.name.toList ∧
    (first → ∀ i ∈ ctx.toGenerate, ∀ f', ctx.file i = .ok f' → Contained f'.name.toList)

theorem contained_packageLines_iff {ctx : Context} (hp : '\n' ∉ ctx.package.toList) {file : Nat}
    {lines : List String} (h : Header.packageLines ctx file = .ok lines) :
    (∀ line ∈ lines, Contained line.toList) ↔
      ∀ i ∈ ctx.toGenerate, ∀ f', ctx.file i = .ok f' → Contained f'.name.toList := by
  obtain ⟨comment, hcomment, h⟩ := bind_eq_ok h
  obtain ⟨sources, hsources, h⟩ := bind_eq_ok h
  cases h
  have hlookup (failure : Failure) (hf : ctx.registry.fileComment file = .error failure) :
      failure = .emptyComment := comment_eq_error hf
  have hyields := yields_commentLines hlookup
  rw [hcomment] at hyields
  have hsingle (l : List String) (hl : ∀ line ∈ l, '\n' ∉ line.toList) :
      ∀ line ∈ l, Contained line.toList := fun line hline ↦ contained_of_not_mem (hl line hline)
  rw [List.forall_mem_append, List.forall_mem_append, contained_sourceList_iff,
    and_iff_right ⟨hsingle _ (not_mem_packageIntroduction hp),
      hsingle _ (not_mem_packageComment hyields.of_ok)⟩, List.forall_mem_map]
  simp only [mem_iff_of_mapM_eq_ok hsources]
  exact ⟨fun h i hi f hf ↦ h f ⟨i, hi, hf⟩, fun h f ⟨i, hi, hf⟩ ↦ h i hi f hf⟩

theorem contained_fileHeader_iff {ctx : Context} (hp : '\n' ∉ ctx.package.toList) {file : Nat}
    {f : File} (hf : ctx.file file = .ok f) {first : Bool} {header : Comment}
    (h : fileHeader ctx file first = .ok header) :
    (∀ line ∈ header.lines, Contained line.toList) ↔ ContainedNames ctx f (first = true) := by
  obtain ⟨f', hf', h⟩ := bind_eq_ok h
  obtain rfl := Except.ok.inj (hf.symm.trans hf')
  obtain ⟨documentation, hdocumentation, rfl⟩ : ∃ documentation,
      (if first then Header.packageLines ctx file else pure []) = .ok documentation ∧
        header = .ofLines (Header.banner f.name ++ documentation) := by
    cases first with
    | false =>
      cases h
      exact ⟨[], rfl, rfl⟩
    | true =>
      change (Header.packageLines ctx file >>= fun d ↦ _) = _ at h
      obtain ⟨documentation, hdocumentation, h⟩ := bind_eq_ok h
      cases h
      exact ⟨documentation, hdocumentation, rfl⟩
  rw [contained_ofLines_iff, List.forall_mem_append, contained_banner_iff, ContainedNames]
  refine and_congr_right fun _ ↦ ?_
  cases first with
  | false =>
    cases hdocumentation
    exact ⟨fun _ ↦ nofun, fun _ ↦ nofun⟩
  | true =>
    rw [contained_packageLines_iff hp hdocumentation]
    exact ⟨fun h _ ↦ h, fun h ↦ h rfl⟩

namespace Config

variable {c : Config} {ctx : Context} {f : File} {g : GoFile} {made : List GeneratedFile}

theorem isWord_localName {fw : Framework} {i : Import} (h : Provided fw ctx f i) :
    ∀ name ∈ i.localName, isWord name.toList = true := by
  cases h with
  | runtime p => exact nofun
  | context => exact nofun
  | http => exact nofun
  | dependency hi =>
    intro name hname
    obtain ⟨t, ht, hi⟩ := hi.exists_type
    obtain ⟨-, -, -, hword⟩ := ht.spelled i hi
    rwa [Import.qualifier, Option.mem_def.1 hname] at hword

theorem Produces.framed_iff [Compressor] (hv : c.validate = .ok ()) {out : GeneratedFile}
    {body : String} (h : Produces c ctx out f g body) {file position : Nat}
    (hf : ctx.file file = .ok f) (hg : (c.draft ctx f file position).result = .ok g) :
    Framed g (resolveImports body g.declaredImports) out.content.toList ↔
      ContainedNames ctx f (position = 0) ∧
        ∀ i ∈ resolveImports body g.declaredImports, IsContents i.path.toList := by
  have hserving := serving_of_draft hv hf hg
  obtain ⟨start, hstart, hheader⟩ := header_of_draft hf hg
  have hpackage := yields_newFile ctx.package f.name
  rw [hstart] at hpackage
  rw [Layout.framed_iff h.content, remark_render_iff,
    contained_fileHeader_iff hpackage.of_ok.1 hf hheader, decide_eq_true_iff]
  intro i hi
  rcases mem_resolveImports hi with hi | ⟨path, -, rfl⟩
  · exact isWord_localName (hserving.sound.declaredImports i hi)
  · exact nofun

/-- Free text of a run stays where it is put, exactly if the names that a header repeats stay in its
comment and every imported path can stand between quotes. -/
theorem generate_framed_iff [Compressor] {r : Request} (h : (c.generate r).result = .ok made) :
    ∃ ctx, (Context.resolve r.files r.filesToGenerate).result = .ok ctx ∧
      (∀ out ∈ made, ∃ f g body, Produces c ctx out f g body) ∧
      ∀ out f g body file position, Produces c ctx out f g body → ctx.file file = .ok f →
        (c.draft ctx f file position).result = .ok g →
        (Framed g (resolveImports body g.declaredImports) out.content.toList ↔
          ContainedNames ctx f (position = 0) ∧
            ∀ i ∈ resolveImports body g.declaredImports, IsContents i.path.toList) := by
  obtain ⟨ctx, hctx, hproduces⟩ := exists_produces_of_generate h
  exact ⟨ctx, hctx, hproduces, fun out f g body file position hout hf hg ↦
    hout.framed_iff (validate_of_generate h) hf hg⟩

theorem isContents_of_clean {s : List Char} (h : Clean s) : IsContents s := by
  refine ⟨s.map fun c ↦ [c], literalUnit_of_clean h, ?_⟩
  rw [← List.flatMap_def, List.flatMap_singleton']

theorem generate_framed_callRequest :
    ∃ out f g body, (generate {} (callRequest [])).result = .ok [out] ∧
      Produces {} callContext out f g body ∧
      Framed g (resolveImports body g.declaredImports) out.content.toList := by
  obtain ⟨out, hout⟩ := exists_generate_callRequest
  obtain ⟨ctx, hctx, hproduces, hframed⟩ := generate_framed_iff hout
  obtain rfl := Except.ok.inj (resolve_callRequest.symm.trans hctx)
  obtain ⟨f, g, body, h⟩ := hproduces out List.mem_cons_self
  obtain ⟨file, hfile, position, hf, hg⟩ := h.drafted
  refine ⟨out, f, g, body, hout, h, (hframed out f g body file position h hf hg).2 ⟨?_, ?_⟩⟩
  · have hname (i : Nat) (hi : i ∈ callContext.toGenerate) (f' : File)
        (hf' : callContext.file i = .ok f') : Contained f'.name.toList := by
      obtain rfl := List.mem_singleton.1 hi
      obtain rfl := Except.ok.inj (hf' : Except.ok callingFile = .ok f')
      exact contained_of_not_mem (by decide)
    exact ⟨hname file hfile f hf, fun _ ↦ hname⟩
  · have hserving := yields_draft (c := {}) rfl hf position
    rw [hg] at hserving
    intro i hi
    exact isContents_of_clean (importable_of_mem_resolveImports (fun j hj ↦
      (hserving.of_ok.sound.declaredImports j hj).importable quotable_callRequest.framework
        quotable_callRequest.goPackage) i hi).path

def splitFile : File := .ofDescriptor [
  (1, .text "c\nd.proto"), (2, .text "r"),
  (4, .message [(1, .text "Q"), (3, .message [(1, .text "Q")])]), (6, .message [(1, .text "S")])]

def splitRequest : Request where
  files := [splitFile]
  filesToGenerate := ["c\nd.proto"]

def splitContext : Context where
  files := [splitFile]
  toGenerate := [0]
  package := "r"
  registry := .ofFiles [splitFile]

def isHarmless (t : List Char) : Bool :=
  (isCommentText t && !t.contains '\n') || (isFlat t && isLead t)

theorem soundLine_of_isHarmless {t : List Char} (h : isHarmless t = true) :
    SoundLine [] t [] := by
  simp only [isHarmless, Bool.or_eq_true, Bool.and_eq_true, Bool.not_eq_true'] at h
  rcases h with ⟨hcomment, hsingle⟩ | ⟨hflat, hlead⟩
  · obtain ⟨text, rfl⟩ := List.isPrefixOf_iff_prefix.1 hcomment
    have htext : '\n' ∉ text := fun hn ↦ by simp_all
    exact soundLine_comment htext []
  · exact (flat_of_isFlat hflat).soundLine (leads_of_isLead hlead).tame []

theorem single_splitContext : Single bareConfig splitContext splitFile (plainService "S" 0) where
  toGenerate := rfl
  file := rfl
  services := rfl
  package := by decide +kernel
  header := by decide +kernel
  resolved := rfl
  named := named_plainService 0 "S" (by decide)

theorem resolve_splitRequest :
    (Context.resolve splitRequest.files splitRequest.filesToGenerate).result =
      .ok splitContext := rfl

theorem exists_generate_splitRequest [Compressor] :
    ∃ out, (bareConfig.generate splitRequest).result = .ok [out] := by
  obtain ⟨g, hg⟩ := single_splitContext.exists_draft
  obtain ⟨start, -, hheader⟩ := header_of_draft rfl hg
  have hlines : (fileHeader splitContext 0 true).toOption.any (fun header ↦
      !header.lines.isEmpty && header.lines.all fun line ↦
        (pieces '\n' (Comment.renderLine line).toList).all isHarmless) = true := by decide +kernel
  have hsound : SoundText [] g.header.render.toList [] := by
    change fileHeader splitContext 0 true = _ at hheader
    rw [hheader] at hlines
    simp only [Except.toOption, Option.any_some, Bool.and_eq_true, Bool.not_eq_true',
      List.isEmpty_eq_false_iff, List.all_eq_true] at hlines
    refine sound_of_forall fun t ht ↦ soundLine_of_isHarmless ?_
    obtain ⟨line, hline, ht⟩ := (mem_pieces_render hlines.1).1 ht
    exact hlines.2 line hline t ht
  have hserving := yields_draft (c := bareConfig) rfl single_splitContext.file 0
  rw [hg] at hserving
  have hroot : Clean bareConfig.framework.toList := by
    unfold Clean
    decide
  have hclean : ∀ f ∈ splitContext.files, Clean f.goPackage.toList := by
    unfold Clean
    decide
  have hcase : ¬CaseImport splitContext splitFile := not_caseImport_of_methods (by decide)
  obtain ⟨text, htext⟩ := hserving.of_ok.sound.exists_finish
    (text_frontMatter_of_header fun _ ↦ hsound) (fun i hi ↦ hi.importable hroot hclean)
    fun i hi hname ↦ hcase ((hserving.of_ok.sound.declaredImports i hi).caseImport hname)
  exact ⟨_, result_generate_of_finish rfl ⟨rfl, [], [], rfl, rfl⟩ rfl rfl (by decide) hg htext⟩

theorem not_framed_splitRequest :
    ∃ out f g body, (bareConfig.generate splitRequest).result = .ok [out] ∧
      Produces bareConfig splitContext out f g body ∧
      ¬Framed g (resolveImports body g.declaredImports) out.content.toList := by
  obtain ⟨out, hout⟩ := exists_generate_splitRequest
  obtain ⟨ctx, hctx, hproduces⟩ := exists_produces_of_generate hout
  obtain rfl := Except.ok.inj (resolve_splitRequest.symm.trans hctx)
  obtain ⟨f, g, body, h⟩ := hproduces out List.mem_cons_self
  refine ⟨out, f, g, body, hout, h, fun hframed ↦ ?_⟩
  obtain ⟨file, hfile, position, hf, hg⟩ := h.drafted
  obtain ⟨⟨hname, -⟩, -⟩ := (h.framed_iff rfl hf hg).1 hframed
  obtain rfl := h.eq_of_single single_splitContext
  rcases hname "d.proto".toList (by decide) with hblank | hcomment
  · exact absurd hblank (by decide)
  · exact absurd hcomment (by decide)

end Config

end Stub

end RpcStubs
