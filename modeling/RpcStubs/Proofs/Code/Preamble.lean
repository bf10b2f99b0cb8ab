import RpcStubs.Proofs.Code.Files
import RpcStubs.Proofs.Code.Inversion

namespace RpcStubs.Layout

open Text

def shown (ts : List (List Char)) : List (List Char) := ts.filter fun t ↦ !(trim t).isEmpty

def shownLines (s : List Char) : List (List Char) := shown (pieces '\n' s)

theorem shown_append (a b : List (List Char)) : shown (a ++ b) = shown a ++ shown b :=
  List.filter_append ..

theorem shown_cons_of_blank {t : List Char} (h : trim t = []) (ts : List (List Char)) :
    shown (t :: ts) = shown ts := by
  rw [shown, List.filter_cons, h]
  rfl

theorem shown_cons_of_ne {t : List Char} (h : trim t ≠ []) (ts : List (List Char)) :
    shown (t :: ts) = t :: shown ts := by
  rw [shown, List.filter_cons, if_pos (by simpa using h)]
  rfl

theorem shown_map_trim (ts : List (List Char)) : shown (ts.map trim) = (shown ts).map trim := by
  rw [shown, List.filter_map]
  simp only [Function.comp_def, trim_trim]
  rfl

theorem shown_nil_cons (ts : List (List Char)) : shown ([] :: ts) = shown ts :=
  shown_cons_of_blank rfl ts

theorem shownLines_joinLines {ts : List (List Char)} (h : ∀ t ∈ ts, '\n' ∉ t) :
    shownLines (joinLines ts) = shown ts := by
  induction ts with
  | nil => rfl
  | cons t ts ih =>
    have hrest := ih fun u hu ↦ h u (List.mem_cons_of_mem t hu)
    rw [shownLines, joinLines_cons, pieces_append, pieces_of_not_mem (h t List.mem_cons_self),
      List.singleton_append]
    by_cases ht : trim t = []
    · rw [shown_cons_of_blank ht, shown_cons_of_blank ht]
      exact hrest
    · rw [shown_cons_of_ne ht, shown_cons_of_ne ht]
      exact congrArg (t :: ·) hrest

/-- Tidying drops blank lines only. -/
theorem shown_keep (previous : Option (List Char)) (ps : List Placed) :
    shown ((keep previous ps).map Placed.text) = shown (ps.map Placed.text) := by
  induction ps generalizing previous with
  | nil => rfl
  | cons p ps ih =>
    rw [keep, List.map_cons]
    split
    · next text hx =>
      rw [List.map_cons, ← List.singleton_append, shown_append, ih, ← shown_append,
        List.singleton_append]
    · next hx =>
      have hnil : p.text = [] := by rw [Placed.text, hx]; rfl
      rw [hnil, shown_nil_cons]
      split_ifs
      · rw [List.map_cons, hnil, shown_nil_cons, ih]
      · exact ih previous

theorem shownLines_layOut {source : List Char} {lines : List Line}
    (h : nest source = .ok lines) :
    shownLines (layOut lines) = shown ((place lines).map Placed.text) := by
  obtain ⟨gs, -, hreads⟩ := nest_eq_ok_iff.1 h
  obtain ⟨ls, hre⟩ := hreads.exists_reread rfl (placement_place lines) none
  have hsingle := (hre.marked rfl).single
  rw [hre.text_eq] at hsingle
  have hempty (ts : List (List Char)) : shown (orEmptyLine ts) = shown ts := by
    unfold orEmptyLine
    split_ifs with he
    · rw [List.isEmpty_iff.1 he]
      rfl
    · rfl
  rw [layOut_eq, tidy_arrange, shownLines_joinLines, hempty, shown_keep]
  intro t ht
  unfold orEmptyLine at ht
  split_ifs at ht
  · obtain rfl := List.mem_singleton.1 ht
    exact List.not_mem_nil
  · exact hsingle t ht

/-- Brackets directly inside which nothing is aligned. -/
def Loose (frames : List Frame) : Prop :=
  enclosingOpener frames = none ∨ enclosingOpener frames = some .group

/-- A line under the given brackets, and what is written for it. -/
structure Copies (frames : List Frame) (t w : List Char) : Prop where
  trim_eq : trim w = trim t
  outermost : frames = [] → w = trim t

theorem copies_of_written {frames : List Frame} (hf : Loose frames) {t : List Char}
    {after : Nesting} {p : Placed} (hl : p.line = lineOf false frames t after)
    (hw : Written p.line p.text?) : Copies frames t p.text := by
  obtain ⟨line, text?⟩ := p
  obtain rfl : line = lineOf false frames t after := hl
  simp only [Placed.text] at hw ⊢
  have hcells : (lineOf false frames t after).cells? = none := by
    rcases hf with hf | hf <;> simp [Line.cells?, lineOf, hf]
  cases hw with
  | verbatim h => cases h
  | aligned n i j hc =>
    rw [hcells] at hc
    cases hc
  | blank _ ht => exact ⟨ht.symm, fun _ ↦ ht.symm⟩
  | indented _ ht =>
    refine ⟨trim_indent _ (tight_trim t), ?_⟩
    rintro rfl
    have hindent : (lineOf false [] t after).indent (trim t) = 0 := by simp [Line.indent, lineOf]
    change List.replicate ((lineOf false [] t after).indent (trim t)) '\t' ++ trim t = trim t
    rw [hindent]
    rfl

/-- The placed lines are those of the text, read in code under the given brackets. -/
structure Continues (frames : List Frame) (text : List Char) (ps : List Placed) : Prop where
  read : ∃ gs q st, glyphText gs = text ∧ Marked none (.inside .code) gs (.inside q) ∧
    Reads ⟨.code, frames⟩ (cutLines false [] gs) (ps.map Placed.line) st
  written : ∀ p ∈ ps, Written p.line p.text?

theorem continues_place {source : List Char} {lines : List Line} (h : nest source = .ok lines) :
    Continues [] source (place lines) := by
  have hplace := placement_place lines
  obtain ⟨gs, hmark, hreads⟩ := nest_eq_ok_iff.1 h
  obtain ⟨hg, q, hm, -⟩ := mark_eq_ok_iff.1 hmark
  refine ⟨⟨gs, q, {}, hg, hm, ?_⟩, hplace.written⟩
  rw [hplace.line_eq]
  exact hreads

section Steps

variable {frames : List Frame} {rest : List Char} {ps : List Placed}

theorem Continues.step {t : List Char} (h : Continues frames (t ++ '\n' :: rest) ps)
    (ht : '\n' ∉ t) (hf : Loose frames) :
    ∃ p ps', ps = p :: ps' ∧ Copies frames t p.text ∧
      ∀ frames', Passes frames t frames' → Continues frames' rest ps' := by
  obtain ⟨⟨gs, q, st, hg, hm, hr⟩, hw⟩ := h
  obtain ⟨line, lines', after, hlines, hline, -, hpass⟩ := hr.pass ht hm hg
  obtain ⟨p, ps', rfl, hp, rfl⟩ := List.map_eq_cons_iff.1 hlines
  refine ⟨p, ps', rfl, copies_of_written hf (hp.trans hline) (hw p List.mem_cons_self), ?_⟩
  intro frames' hpasses
  obtain ⟨gs', hg', hm', hr'⟩ := hpass frames' hpasses
  exact ⟨⟨gs', q, st, hg', hm', hr'⟩, fun p' hp' ↦ hw p' (List.mem_cons_of_mem p hp')⟩

/-- Lines that leave the brackets as they are. -/
theorem Continues.walk {ts : List (List Char)} (h : Continues frames (joinLines ts ++ rest) ps)
    (hs : ∀ t ∈ ts, '\n' ∉ t) (hf : Loose frames) (hp : ∀ t ∈ ts, Passes frames t frames) :
    ∃ done ps', ps = done ++ ps' ∧ List.Forall₂ (Copies frames) ts (done.map Placed.text) ∧
      Continues frames rest ps' := by
  induction ts generalizing ps with
  | nil => exact ⟨[], ps, rfl, .nil, h⟩
  | cons t ts ih =>
    rw [joinLines_cons, List.append_assoc, List.cons_append] at h
    obtain ⟨p, ps, rfl, hcopy, hnext⟩ := h.step (hs t List.mem_cons_self) hf
    obtain ⟨done, ps', rfl, hdone, hrest⟩ := ih (hnext _ (hp t List.mem_cons_self))
      (fun u hu ↦ hs u (List.mem_cons_of_mem t hu)) fun u hu ↦ hp u (List.mem_cons_of_mem t hu)
    exact ⟨p :: done, ps', rfl, .cons hcopy hdone, hrest⟩

end Steps

/-- Blank lines stay blank, and the other ones correspond to each other. -/
theorem forall₂_shown {frames : List Frame} {ts ws : List (List Char)}
    (h : List.Forall₂ (Copies frames) ts ws) :
    List.Forall₂ (Copies frames) (shown ts) (shown ws) := by
  induction h with
  | nil => exact .nil
  | @cons t w ts ws hcopy _ ih =>
    by_cases ht : trim t = []
    · rwa [shown_cons_of_blank ht, shown_cons_of_blank (hcopy.trim_eq.trans ht)]
    · have hw : trim w ≠ [] := by rwa [hcopy.trim_eq]
      rw [shown_cons_of_ne ht, shown_cons_of_ne hw]
      exact .cons hcopy ih

/-- A line that is blank or a comment. -/
def Remark (t : List Char) : Prop := trim t = [] ∨ isCommentText (trim t) = true

theorem Remark.passes {t : List Char} (h : Remark t) (hs : '\n' ∉ t) (frames : List Frame) :
    Passes frames t frames := by
  rcases h with h | h
  · exact (flat_of_quiet (quiet_of_blanks (trim_eq_nil_iff.1 h)) hs).passes frames
  · obtain ⟨lead, trail, he, hl, -, -⟩ := exists_trim t
    obtain ⟨text, htext⟩ := List.isPrefixOf_iff_prefix.1 h
    have hcore : trim t ++ trail = '/' :: '/' :: (text ++ trail) := by
      rw [← htext]
      rfl
    have hsplit : t = lead ++ '/' :: '/' :: (text ++ trail) := by
      rw [← hcore, ← List.append_assoc]
      exact he
    rw [hsplit, List.mem_append, List.mem_cons, List.mem_cons, not_or, not_or, not_or] at hs
    obtain ⟨hlead, -, -, htail⟩ := hs
    have hspaces : Spaces lead := spaces_of_blanks hl hlead
    obtain ⟨gs, after, hg, hm, hrun, hframes⟩ := (soundLine_comment htail frames).passes
    refine ⟨lead.map (·, .code) ++ gs, after, ?_, hm.indent hspaces, ?_, hframes⟩
    · rw [glyphText_append, glyphText_map_pair, hg, hsplit]
    · rwa [turns_indent hspaces]

def packageLine (g : GoFile) : List Char := ("package " ++ g.package.name).toList

def importHead : List Char := "import ".toList ++ ['(']

theorem passes_importHead : Passes [] importHead [importFrame] := by
  have hhead := text_importHead
  rw [SoundText, pieces_of_not_mem (by decide)] at hhead
  cases hhead with
  | cons hl hrest =>
    cases hrest
    exact hl.passes

def headLines (g : GoFile) : List (List Char) :=
  if g.header.isEmpty then [] else pieces '\n' g.header.render.toList ++ [[]]

theorem render_of_isEmpty {c : Comment} (h : c.isEmpty = true) : c.render = "" := by
  rw [Comment.render, List.isEmpty_iff.1 h]
  rfl

theorem shown_headLines (g : GoFile) :
    shown (headLines g) = shownLines g.header.render.toList := by
  unfold headLines
  split_ifs with he
  · rw [render_of_isEmpty he]
    rfl
  · rw [shown_append, shown_nil_cons, shownLines]
    exact List.append_nil _

theorem not_mem_of_mem_headLines {g : GoFile} {t : List Char} (h : t ∈ headLines g) :
    '\n' ∉ t := by
  unfold headLines at h
  split_ifs at h
  · cases h
  · rcases List.mem_append.1 h with h | h
    · exact not_mem_of_mem_pieces h
    · obtain rfl := List.mem_singleton.1 h
      exact List.not_mem_nil

theorem remark_headLines_iff {g : GoFile} :
    (∀ t ∈ headLines g, Remark t) ↔ ∀ t ∈ pieces '\n' g.header.render.toList, Remark t := by
  have hnil : ∀ t ∈ [[]], Remark t := List.forall_mem_singleton.2 (.inl rfl)
  unfold headLines
  split_ifs with he
  · rw [render_of_isEmpty he]
    exact ⟨fun _ ↦ hnil, fun _ ↦ nofun⟩
  · rw [List.forall_mem_append]
    exact ⟨fun h ↦ h.1, fun h ↦ ⟨h, hnil⟩⟩

theorem toList_frontMatter (g : GoFile) :
    ("\n\n".intercalate (frontMatter g)).toList ++ ['\n'] =
      joinLines (headLines g ++ [packageLine g]) := by
  unfold frontMatter headLines packageLine
  generalize "package " ++ g.package.name = clause
  have hgap : "\n\n".toList = ['\n', '\n'] := by decide
  rw [String.toList_intercalate, hgap]
  split_ifs
  · simp
  · rw [joinLines_append, joinLines_append, joinLines_pieces]
    simp

theorem optional_ne_nil {text : String} (h : text ≠ "") : optional text = [text] :=
  if_neg fun he ↦ h (String.isEmpty_iff.1 he)

theorem importBlock_ne_empty {imports : ImportSet} (h : imports.items ≠ []) :
    importBlock imports ≠ "" := by
  intro he
  have htext := toList_importBlock h
  rw [he] at htext
  exact absurd htext (by simp)

theorem joinLines_importBlock {imports : ImportSet} (h : imports.items ≠ []) :
    joinLines ([] :: importHead :: ((importEntries imports).map String.toList ++ [[')']])) =
      '\n' :: ((importBlock imports).toList ++ ['\n']) := by
  have hentries : joinLines ((importEntries imports).map String.toList) =
      (importEntries imports).flatMap fun e ↦ e.toList ++ ['\n'] := by
    rw [joinLines, List.flatMap_map]
  have hblock : (importBlock imports).toList = importHead ++
      '\n' :: ((importEntries imports).flatMap (fun e ↦ e.toList ++ ['\n']) ++ [')']) :=
    toList_importBlock h
  rw [hblock, joinLines_cons, joinLines_cons, joinLines_append, hentries]
  simp

theorem exists_toList_intercalate_optional (block body : String) :
    ∃ tail, ("\n\n".intercalate (block :: optional body)).toList ++ ['\n'] =
      block.toList ++ '\n' :: tail := by
  unfold optional
  split_ifs
  · exact ⟨[], by simp⟩
  · exact ⟨'\n' :: (body.toList ++ ['\n']), by simp⟩

theorem exists_toList_assemble (g : GoFile) (imports : ImportSet) (body : String) :
    ∃ rest, (g.assemble imports body).toList = joinLines (headLines g ++ [packageLine g]) ++ rest ∧
      (imports.items ≠ [] → ∃ rest', rest = joinLines ([] :: importHead ::
        ((importEntries imports).map String.toList ++ [[')']])) ++ rest') := by
  have hgap : "\n\n".toList = ['\n', '\n'] := by decide
  have hfront : frontMatter g ≠ [] := by simp [frontMatter]
  generalize hparts : optional (importBlock imports) ++ optional body = parts
  have hassemble : (g.assemble imports body).toList =
      ("\n\n".intercalate (frontMatter g ++ parts)).toList ++ ['\n'] := by
    rw [assemble_eq, List.append_assoc, hparts, String.toList_append]
    rfl
  cases parts with
  | nil =>
    refine ⟨[], ?_, fun hne ↦ ?_⟩
    · rw [hassemble, List.append_nil, toList_frontMatter, List.append_nil]
    · rw [optional_ne_nil (importBlock_ne_empty hne)] at hparts
      cases hparts
  | cons part parts =>
    refine ⟨'\n' :: (("\n\n".intercalate (part :: parts)).toList ++ ['\n']), ?_, fun hne ↦ ?_⟩
    · rw [hassemble, ← toList_frontMatter, String.toList_intercalate, List.map_append,
        intercalate_append _ (by simpa using hfront) (by simp), ← String.toList_intercalate,
        ← String.toList_intercalate, hgap]
      simp
    · rw [optional_ne_nil (importBlock_ne_empty hne), List.singleton_append,
        List.cons.injEq] at hparts
      obtain ⟨rfl, rfl⟩ := hparts
      obtain ⟨tail, htail⟩ := exists_toList_intercalate_optional (importBlock imports) body
      refine ⟨tail, ?_⟩
      rw [htail, joinLines_importBlock hne, List.cons_append, List.append_assoc]
      rfl

def IsContents (s : List Char) : Prop :=
  ∃ units : List (List Char), (∀ u ∈ units, LiteralUnit u) ∧ s = units.flatten

def importOrder (imports : ImportSet) : List Import :=
  imports.items.filter Import.isStandard ++ imports.items.filter fun i ↦ !i.isStandard

theorem mem_importOrder {imports : ImportSet} {i : Import} (h : i ∈ imports) :
    i ∈ importOrder imports := by
  cases hs : i.isStandard with
  | true => exact List.mem_append_left _ (List.mem_filter.2 ⟨h, hs⟩)
  | false => exact List.mem_append_right _ (List.mem_filter.2 ⟨h, by simp [hs]⟩)

/-- A line of an import block is the literal of the path, behind the name if there is one. -/
def ImportLine (i : Import) (line : List Char) : Prop :=
  IsContents i.path.toList ∧
    match i.localName with
    | none => trim line = '"' :: (i.path.toList ++ ['"'])
    | some name => isWord name.toList = true ∧
        trim line = name.toList ++ ' ' :: '"' :: (i.path.toList ++ ['"'])

def ImportBlock (imports : ImportSet) (block : List (List Char)) : Prop :=
  if imports.items = [] then block = []
  else ∃ ls close, block = importHead :: (ls ++ [close]) ∧ trim close = [')'] ∧
    List.Forall₂ ImportLine (importOrder imports) ls

/-- Apart from blank lines, the text begins with comments in place of the header's lines, the
package clause and the imports. -/
def Framed (g : GoFile) (imports : ImportSet) (text : List Char) : Prop :=
  ∃ header block rest, shownLines text = header ++ packageLine g :: (block ++ rest) ∧
    header.length = (shownLines g.header.render.toList).length ∧
    (∀ t ∈ header, isCommentText t = true) ∧ ImportBlock imports block

/-- As long as lines are passed, they stand where the header's lines should. -/
theorem remark_of_continues {ts : List (List Char)} {rest : List Char} {ps : List Placed}
    {header tail : List (List Char)} (h : Continues [] (joinLines ts ++ rest) ps)
    (hs : ∀ t ∈ ts, '\n' ∉ t) (hshown : shown (ps.map Placed.text) = header ++ tail)
    (hlen : header.length = (shown ts).length) (hc : ∀ t ∈ header, isCommentText t = true) :
    ∀ t ∈ ts, Remark t := by
  induction ts generalizing ps header with
  | nil => simp
  | cons t ts ih =>
    have ht := hs t List.mem_cons_self
    rw [joinLines_cons, List.append_assoc, List.cons_append] at h
    obtain ⟨p, ps, rfl, hcopy, hnext⟩ := h.step ht (.inl rfl)
    have htext := hcopy.outermost rfl
    rw [List.map_cons, htext] at hshown
    have hrest (hr : Remark t) {header' : List (List Char)}
        (hshown' : shown (ps.map Placed.text) = header' ++ tail)
        (hlen' : header'.length = (shown ts).length)
        (hc' : ∀ u ∈ header', isCommentText u = true) : ∀ u ∈ t :: ts, Remark u :=
      List.forall_mem_cons.2 ⟨hr, ih (hnext [] (hr.passes ht []))
        (fun u hu ↦ hs u (List.mem_cons_of_mem t hu)) hshown' hlen' hc'⟩
    by_cases hb : trim t = []
    · rw [shown_cons_of_blank hb] at hlen
      rw [shown_cons_of_blank (by rw [trim_trim, hb])] at hshown
      exact hrest (.inl hb) hshown hlen hc
    · rw [shown_cons_of_ne hb, List.length_cons] at hlen
      rw [shown_cons_of_ne (by rwa [trim_trim])] at hshown
      cases header with
      | nil => cases hlen
      | cons u header =>
        obtain ⟨rfl, hshown'⟩ := List.cons.inj hshown
        exact hrest (.inr (hc _ List.mem_cons_self)) hshown' (by simpa using hlen)
          fun v hv ↦ hc v (List.mem_cons_of_mem _ hv)

theorem eq_map_trim {ts ws : List (List Char)} (h : List.Forall₂ (Copies []) ts ws) :
    ws = ts.map trim := by
  induction h with
  | nil => rfl
  | cons hcopy _ ih => rw [List.map_cons, hcopy.outermost rfl, ih]

theorem flat_packageLine (g : GoFile) : Flat (packageLine g) := by
  rw [packageLine, String.toList_append]
  exact (flat_ofList (by decide)).append (flat_of_legal g.package.legal)

theorem tight_packageLine (g : GoFile) : Tight (packageLine g) := by
  have hword := isWord_of_legal g.package.legal
  have hne : g.package.name.toList ≠ [] := by
    obtain ⟨c, rest, hc, -⟩ := exists_of_isWord hword
    rw [hc]
    exact List.cons_ne_nil c rest
  rw [packageLine, String.toList_append]
  refine ⟨fun c hc ↦ ?_, fun c hc ↦ ?_⟩
  · obtain rfl : 'p' = c := Option.some_inj.1 hc
    decide
  · rw [List.getLast?_append_of_ne_nil _ hne] at hc
    exact isBlank_of_isWordChar (isWordChar_of_mem hword (List.mem_of_getLast? hc))

theorem tight_quoted (s : List Char) : Tight ('"' :: (s ++ ['"'])) := by
  refine ⟨fun c hc ↦ ?_, fun c hc ↦ ?_⟩
  · obtain rfl : '"' = c := Option.some_inj.1 hc
    decide
  · rw [← List.cons_append, List.getLast?_append] at hc
    obtain rfl : '"' = c := by simpa using hc
    decide

theorem tight_render {i : Import} (hn : ∀ name ∈ i.localName, isWord name.toList = true) :
    Tight i.render.toList := by
  cases hname : i.localName with
  | none =>
    rw [toList_render_plain hname]
    exact tight_quoted _
  | some name =>
    rw [toList_render_aliased hname]
    exact tight_aliased (hn name hname)

theorem importLine_of_copies {i : Import} {frames : List Frame} {w : List Char}
    (hp : IsContents i.path.toList) (hn : ∀ name ∈ i.localName, isWord name.toList = true)
    (h : Copies frames i.render.toList w) : ImportLine i w := by
  have htrim := h.trim_eq.trans (tight_render hn).trim_eq
  refine ⟨hp, ?_⟩
  cases hname : i.localName with
  | none => rwa [toList_render_plain hname] at htrim
  | some name =>
    rw [toList_render_aliased hname] at htrim
    exact ⟨hn name hname, htrim⟩

section Imports

variable {imports : ImportSet} (hn : ∀ i ∈ imports, ∀ name ∈ i.localName, isWord name.toList = true)
include hn

theorem shown_importEntries :
    shown ((importEntries imports).map String.toList) =
      (importOrder imports).map fun i ↦ i.render.toList := by
  have hall (l : List Import) (hl : ∀ i ∈ l, i ∈ imports) :
      shown ((l.map Import.render).map String.toList) = l.map fun i ↦ i.render.toList := by
    rw [List.map_map, shown, List.filter_eq_self.2]
    · rfl
    · intro t ht
      obtain ⟨i, hi, rfl⟩ := List.mem_map.1 ht
      change (!(trim i.render.toList).isEmpty) = true
      rw [(tight_render (hn i (hl i hi))).trim_eq]
      cases hname : i.localName <;> simp [toList_render_plain, toList_render_aliased, hname]
  have hgap (b : Bool) : shown ((if b then [] else [""]).map String.toList) = [] := by
    cases b <;> rfl
  rw [importEntries, List.map_append, List.map_append, shown_append, shown_append, hgap,
    hall _ fun i hi ↦ (List.mem_filter.1 hi).1, hall _ fun i hi ↦ (List.mem_filter.1 hi).1,
    List.append_nil, importOrder, List.map_append]

theorem forall₂_importLine (hp : ∀ i ∈ imports, IsContents i.path.toList) {ws : List (List Char)}
    (h : List.Forall₂ (Copies [importFrame]) ((importEntries imports).map String.toList) ws) :
    List.Forall₂ ImportLine (importOrder imports) (shown ws) := by
  have hshown := forall₂_shown h
  rw [shown_importEntries hn, List.forall₂_map_left_iff] at hshown
  have hmem : ∀ i ∈ importOrder imports, i ∈ imports := by
    intro i hi
    rcases List.mem_append.1 hi with hi | hi <;> exact (List.mem_filter.1 hi).1
  refine ((List.forall₂_and_left _ _).2 ⟨hmem, hshown⟩).imp fun i w hi ↦ ?_
  exact importLine_of_copies (hp i hi.1) (hn i hi.1) hi.2

theorem flat_importEntry (hp : ∀ i ∈ imports, IsContents i.path.toList) {t : List Char}
    (ht : t ∈ (importEntries imports).map String.toList) : Flat t := by
  obtain ⟨e, he, rfl⟩ := List.mem_map.1 ht
  rcases mem_importEntries he with rfl | ⟨i, hi, rfl⟩
  · exact flat_nil
  · obtain ⟨units, hunits, hpath⟩ := hp i hi
    refine flat_render ?_ (hn i hi)
    rw [hpath]
    exact flat_literal hunits

/-- The lines of an import block are passed one by one. -/
theorem Continues.importBlock (hp : ∀ i ∈ imports, IsContents i.path.toList)
    (hne : imports.items ≠ []) {rest : List Char} {ps : List Placed}
    (h : Continues [] (joinLines ([] :: importHead ::
      ((importEntries imports).map String.toList ++ [[')']])) ++ rest) ps) :
    ∃ block tail, shown (ps.map Placed.text) = block ++ tail ∧ ImportBlock imports block := by
  have hsingle (t : List Char) (ht : t ∈ (importEntries imports).map String.toList) : '\n' ∉ t :=
    (flat_importEntry hn hp ht).single
  rw [joinLines_cons, joinLines_cons, joinLines_append] at h
  simp only [List.append_assoc, List.cons_append] at h
  obtain ⟨blank, ps₁, rfl, hblank, h₁⟩ := h.step List.not_mem_nil (.inl rfl)
  obtain ⟨head, ps₂, rfl, hhead, h₂⟩ := (h₁ [] (flat_nil.passes [])).step (by decide) (.inl rfl)
  obtain ⟨entries, ps₃, rfl, hentries, h₃⟩ := (h₂ [importFrame] passes_importHead).walk hsingle
    (.inr rfl) fun t ht ↦ (flat_importEntry hn hp ht).passes _
  rw [joinLines_cons, List.append_assoc, List.cons_append] at h₃
  have hparen : '\n' ∉ [')'] := by decide
  obtain ⟨close, ps₄, rfl, hclose, -⟩ := h₃.step hparen (.inr rfl)
  refine ⟨importHead :: (shown (entries.map Placed.text) ++ [close.text]),
    shown (ps₄.map Placed.text), ?_, ?_⟩
  · have hb : trim blank.text = [] := hblank.trim_eq
    have hh : head.text = importHead := hhead.outermost rfl
    have hc : trim close.text = [')'] := hclose.trim_eq
    rw [List.map_cons, List.map_cons, List.map_append, List.map_cons, shown_cons_of_blank hb, hh,
      shown_cons_of_ne (by decide), shown_append, shown_cons_of_ne (by rw [hc]; decide)]
    simp
  · rw [ImportBlock, if_neg hne]
    exact ⟨_, _, rfl, hclose.trim_eq, forall₂_importLine hn hp hentries⟩

end Imports

theorem framed_of_continues {g : GoFile} {imports : ImportSet} {body : String} {ps : List Placed}
    {text : List Char} (h : Continues [] (g.assemble imports body).toList ps)
    (hshown : shownLines text = shown (ps.map Placed.text))
    (hr : ∀ t ∈ pieces '\n' g.header.render.toList, Remark t)
    (hp : ∀ i ∈ imports, IsContents i.path.toList)
    (hn : ∀ i ∈ imports, ∀ name ∈ i.localName, isWord name.toList = true) :
    Framed g imports text := by
  have hremark := remark_headLines_iff.2 hr
  obtain ⟨rest, hsource, himports⟩ := exists_toList_assemble g imports body
  rw [hsource] at h
  obtain ⟨done, ps', rfl, hdone, hrest⟩ := h.walk
    (List.forall_mem_append.2 ⟨fun _ ↦ not_mem_of_mem_headLines,
      List.forall_mem_singleton.2 (flat_packageLine g).single⟩) (.inl rfl)
    (List.forall_mem_append.2 ⟨fun t ht ↦ (hremark t ht).passes (not_mem_of_mem_headLines ht) [],
      List.forall_mem_singleton.2 ((flat_packageLine g).passes [])⟩)
  obtain ⟨block, tail, htail, hblock⟩ : ∃ block tail,
      shown (ps'.map Placed.text) = block ++ tail ∧ ImportBlock imports block := by
    by_cases hne : imports.items = []
    · exact ⟨[], _, rfl, by rw [ImportBlock, if_pos hne]⟩
    · obtain ⟨rest', rfl⟩ := himports hne
      exact hrest.importBlock hn hp hne
  have hclause : trim (packageLine g) ≠ [] := by
    rw [(tight_packageLine g).trim_eq, packageLine, String.toList_append]
    exact List.append_ne_nil_of_left_ne_nil (by decide) _
  refine ⟨(shown (headLines g)).map trim, block, tail, ?_, ?_, ?_, hblock⟩
  · rw [hshown, List.map_append, shown_append, htail, eq_map_trim hdone, List.map_append,
      shown_append, shown_map_trim, List.map_singleton, (tight_packageLine g).trim_eq,
      shown_cons_of_ne hclause]
    simp [shown]
  · rw [List.length_map, shown_headLines]
  · intro t ht
    obtain ⟨u, hu, rfl⟩ := List.mem_map.1 ht
    obtain ⟨hu, hb⟩ := List.mem_filter.1 hu
    exact (hremark u hu).resolve_left (by simpa using hb)

/-- A laid out file is framed exactly if every line of its header is blank or a comment and every
path that it imports can stand between quotes. -/
theorem framed_iff {g : GoFile} {body text : String} (h : g.layOut body = .ok text)
    (hn : ∀ i ∈ resolveImports body g.declaredImports, ∀ name ∈ i.localName,
      isWord name.toList = true) :
    Framed g (resolveImports body g.declaredImports) text.toList ↔
      (∀ t ∈ pieces '\n' g.header.render.toList, Remark t) ∧
        ∀ i ∈ resolveImports body g.declaredImports, IsContents i.path.toList := by
  obtain ⟨lines, hnest, htext⟩ :=
    formatChars_eq_ok_iff.1 (format_eq_ok_iff.1 (eq_ok_of_inBuilder h))
  have hcontinues := continues_place hnest
  have hshown : shownLines text.toList = shown ((place lines).map Placed.text) := by
    rw [← htext]
    exact shownLines_layOut hnest
  constructor
  · rintro ⟨header, block, tail, htail, hlen, hcomment, hblock⟩
    obtain ⟨rest, hsource, -⟩ :=
      exists_toList_assemble g (resolveImports body g.declaredImports) body
    rw [hsource, joinLines_append, List.append_assoc] at hcontinues
    rw [hshown] at htail
    rw [← shown_headLines] at hlen
    refine ⟨remark_headLines_iff.1 (remark_of_continues hcontinues
      (fun _ ↦ not_mem_of_mem_headLines) htail hlen hcomment), fun i hi ↦ ?_⟩
    rw [ImportBlock, if_neg (List.ne_nil_of_mem hi)] at hblock
    obtain ⟨ls, close, -, -, hls⟩ := hblock
    exact ((List.forall₂_and_left _ _).1 hls).1 i (mem_importOrder hi)
  · rintro ⟨hr, hp⟩
    exact framed_of_continues hcontinues hshown hr hp hn

end RpcStubs.Layout
