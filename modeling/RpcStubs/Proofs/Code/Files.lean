import RpcStubs.Code.File
import RpcStubs.Proofs.Code.Declarations
import RpcStubs.Proofs.Code.ResolvedImports

namespace RpcStubs.Layout

open Text

variable {P : Import → Prop}

theorem joinLines_pieces (s : List Char) : joinLines (pieces '\n' s) = s ++ ['\n'] := by
  rw [joinLines_eq_intercalate (pieces_ne_nil _ _), intercalate_pieces]

theorem SoundText.exists_format {s : String} (h : SoundText [] s.toList []) :
    ∃ text, format (s ++ "\n") = .ok text := by
  obtain ⟨ls, lines, htext, hreads, -, -⟩ := Sound.exists_reads h
  have hnest := nest_joinLines hreads
  rw [htext, joinLines_pieces] at hnest
  have hformat : formatChars (s ++ "\n").toList = .ok (layOut lines) := by
    rw [String.toList_append]
    exact formatChars_eq_ok_iff.2 ⟨lines, hnest, rfl⟩
  exact ⟨_, by rw [format, hformat]⟩

/-- A line that starts in code and leads to code, between the brackets open before and after it. -/
def Passes (frames : List Frame) (t : List Char) (frames' : List Frame) : Prop :=
  ∃ gs after, glyphText gs = t ∧ LineMarked .code gs .code ∧
    Nesting.run ⟨frames, none⟩ (turns [] gs) = some after ∧ after.frames = frames'

theorem SoundLine.passes {frames frames' : List Frame} {t : List Char}
    (h : SoundLine frames t frames') : Passes frames t frames' := by
  obtain ⟨⟨gs, after, ht, hm, hn, hframes⟩, -⟩ := h
  exact ⟨gs, after, ht, hm, hn.run_eq, hframes⟩

theorem Flat.passes {t : List Char} (h : Flat t) (frames : List Frame) :
    Passes frames t frames := by
  obtain ⟨hs, gs, rfl, hd, hm⟩ := h
  obtain ⟨after, hrun, hframes⟩ := run_of_dyck hs hd ⟨frames, none⟩ []
  exact ⟨gs, after, rfl, ⟨hs, .code, hm none, rfl⟩, hrun, hframes⟩

/-- A line in code is read before the lines that follow it, and those from where it leads. -/
theorem Reads.pass {frames : List Frame} {t rest : List Char} (ht : '\n' ∉ t) {gs : List Glyph}
    {q : Region} {lines : List Line} {st : Start}
    (hm : Marked none (.inside .code) gs (.inside q)) (hg : glyphText gs = t ++ '\n' :: rest)
    (hr : Reads ⟨.code, frames⟩ (cutLines false [] gs) lines st) :
    ∃ line lines' after, lines = line :: lines' ∧ line = lineOf false frames t after ∧
      Obeys (trim t) (enclosingOpener frames) after.closedFirst ∧
      ∀ frames', Passes frames t frames' → ∃ gs', glyphText gs' = rest ∧
        Marked none (.inside .code) gs' (.inside q) ∧
        Reads ⟨.code, frames'⟩ (cutLines false [] gs') lines' st := by
  obtain ⟨ga, gb, rfl, rfl, hgb⟩ := exists_of_glyphText_eq_append hg
  obtain ⟨⟨c, r⟩, gb, rfl, hc, rfl⟩ := List.map_eq_cons_iff.1 hgb
  obtain rfl : c = '\n' := hc
  obtain ⟨⟨q', hma, hq'⟩, hmb⟩ := marked_line.1 hm
  rw [cutLines_line ht] at hr
  cases hr with
  | @cons _ _ r' _ _ line lines' after _ hl hn hrest =>
    refine ⟨line, lines', after, rfl, hn.line_eq, hn.obeys rfl, ?_⟩
    rintro frames' ⟨gs₀, after₀, ht₀, ⟨-, q₀, hm₀, hq₀⟩, hrun₀, rfl⟩
    obtain ⟨rfl, hq⟩ := hma.unique hm₀ ht₀.symm
    obtain rfl : q' = q₀ := by simpa using hq
    obtain rfl : r = .code := Option.some_inj.1 (hq'.symm.trans hq₀)
    obtain rfl : after₀ = after := Option.some_inj.1 (hrun₀.symm.trans hn.run_eq)
    obtain rfl : r' = .code := by
      obtain ⟨q₁, hm₁, hq₁⟩ := hl.marked
      obtain ⟨-, hq⟩ := hm₁.unique hm₀ rfl
      obtain rfl : q₁ = q' := by simpa using hq
      exact Option.some_inj.1 (hq₁.symm.trans hq₀)
    exact ⟨gb, rfl, hmb, hrest⟩

/-- What is read after sound lines is read from where they lead. -/
theorem Reads.after_sound {frames frames' : List Frame} {ts : List (List Char)}
    (h : Sound frames ts frames') {gs : List Glyph} {q : Region} {lines : List Line} {st : Start}
    (hm : Marked none (.inside .code) gs (.inside q)) {rest : List Char}
    (hg : glyphText gs = joinLines ts ++ rest)
    (hr : Reads ⟨.code, frames⟩ (cutLines false [] gs) lines st) :
    ∃ gs' lines', glyphText gs' = rest ∧ Marked none (.inside .code) gs' (.inside q) ∧
      Reads ⟨.code, frames'⟩ (cutLines false [] gs') lines' st := by
  induction h generalizing gs lines with
  | nil frames => exact ⟨gs, lines, by simpa using hg, hm, hr⟩
  | @cons frames frames' frames'' t ts hl _ ih =>
    rw [joinLines_cons, List.append_assoc, List.cons_append] at hg
    obtain ⟨_, lines', _, -, -, -, hpass⟩ := hr.pass hl.single hm hg
    obtain ⟨gs', hg', hm', hr'⟩ := hpass _ hl.passes
    exact ih hm' hg' hr'

def importFrame : Frame := ⟨'(', .group⟩

structure Importable (i : Import) : Prop where
  path : Clean i.path.toList
  name : ∀ name ∈ i.localName, isWord name.toList = true

theorem toList_render_plain {i : Import} (h : i.localName = none) :
    i.render.toList = '"' :: (i.path.toList ++ ['"']) := by
  rw [Import.render, h]
  simp

theorem toList_render_aliased {i : Import} {name : String} (h : i.localName = some name) :
    i.render.toList = name.toList ++ ' ' :: '"' :: (i.path.toList ++ ['"']) := by
  rw [Import.render, h]
  simp

theorem flat_render {i : Import} (hpath : Flat ('"' :: (i.path.toList ++ ['"'])))
    (hname : ∀ name ∈ i.localName, isWord name.toList = true) : Flat i.render.toList := by
  cases hn : i.localName with
  | none =>
    rw [toList_render_plain hn]
    exact hpath
  | some name =>
    have hspace : Flat [' '] := flat_of_isFlat (by decide)
    rw [toList_render_aliased hn]
    exact (flat_of_isWord (hname name hn)).append (hspace.append hpath)

theorem Importable.flat {i : Import} (h : Importable i) : Flat i.render.toList :=
  flat_render (flat_quotedClean h.path) h.name

theorem tight_aliased {name path : List Char} (h : isWord name = true) :
    Tight (name ++ ' ' :: '"' :: (path ++ ['"'])) := by
  obtain ⟨c, name, rfl, hc⟩ := exists_of_isWord h
  refine ⟨fun d hd ↦ ?_, fun d hd ↦ ?_⟩
  · obtain rfl : c = d := by simpa using hd
    exact isBlank_of_isWordChar (isWordChar_of_startsWord hc)
  · rw [List.getLast?_append, List.getLast?_cons_cons, ← List.cons_append,
      List.getLast?_append] at hd
    obtain rfl : '"' = d := by simpa using hd
    decide

/-- A line of an import block obeys the rules unless its name is `case`. -/
theorem soundLine_import {i : Import} (h : Importable i) (hc : i.localName ≠ some "case") :
    SoundLine [importFrame] i.render.toList [importFrame] := by
  have not_clause : ¬(false = true ∨ false = true) := by decide
  refine h.flat.soundLine_of_obeys (fun closedFirst ↦ ?_) (absurd · (by decide))
  cases hn : i.localName with
  | none =>
    rw [toList_render_plain hn]
    exact (tame_of_head (by decide) (by decide) _).obeys _ _
  | some name =>
    have hword := h.name name hn
    rw [toList_render_aliased hn]
    by_cases hmem : name.toList ∈ clauseWords
    · rw [(tight_aliased hword).trim_eq]
      simp only [clauseWords, List.mem_cons, List.not_mem_nil, or_false, String.toList_inj] at hmem
      rcases hmem with rfl | rfl | rfl
      · exact ⟨(absurd · Bool.false_ne_true), rfl, (absurd · not_clause)⟩
      · exact absurd hn hc
      · exact ⟨(absurd · Bool.false_ne_true), rfl, (absurd · not_clause)⟩
    · rw [← List.singleton_append, ← List.append_assoc]
      exact ((leads_word hword hmem (by decide)).append _).tame.obeys _ _

theorem startsCase_render {i : Import} (h : i.localName = some "case") :
    startsCase (trim i.render.toList) = true := by
  rw [toList_render_aliased h, (tight_aliased (by decide)).trim_eq]
  rfl

def importEntries (imports : ImportSet) : List String :=
  (imports.items.filter Import.isStandard).map Import.render ++
    (if (imports.items.filter Import.isStandard).isEmpty ||
        (imports.items.filter fun i ↦ !i.isStandard).isEmpty then [] else [""]) ++
    (imports.items.filter fun i ↦ !i.isStandard).map Import.render

theorem toList_importBlock {imports : ImportSet} (h : imports.items ≠ []) :
    (importBlock imports).toList = ("import ".toList ++ ['(']) ++
      '\n' :: ((importEntries imports).flatMap (fun e ↦ e.toList ++ ['\n']) ++ [')']) := by
  have hlines (l : List Import) :
      (importLines l).toList = (l.map Import.render).flatMap fun e ↦ e.toList ++ ['\n'] := by
    rw [importLines, String.toList_join, List.flatMap_map, List.flatMap_map]
    simp
  have hpartition : imports.items.partition Import.isStandard =
      (imports.items.filter Import.isStandard, imports.items.filter fun i ↦ !i.isStandard) := by
    rw [List.partition_eq_filter_filter]
    rfl
  have hgap (b : Bool) : (if b then "" else "\n").toList =
      (if b then [] else [""]).flatMap fun e : String ↦ e.toList ++ ['\n'] := by
    cases b <;> rfl
  rw [importBlock, if_neg (by simpa [OrderedSet.isEmpty] using h), hpartition]
  simp only [String.toList_append, hlines, hgap, importEntries, List.flatMap_append]
  simp

theorem mem_importEntries {imports : ImportSet} {e : String} :
    e ∈ importEntries imports → e = "" ∨ ∃ i ∈ imports, e = i.render := by
  intro h
  simp only [importEntries, List.mem_append, List.mem_map, List.mem_filter] at h
  rcases h with (⟨i, hi, rfl⟩ | h) | ⟨i, hi, rfl⟩
  · exact .inr ⟨i, hi.1, rfl⟩
  · split_ifs at h
    · cases h
    · exact .inl (List.mem_singleton.1 h)
  · exact .inr ⟨i, hi.1, rfl⟩

theorem mem_importEntries_of_mem {imports : ImportSet} {i : Import} (h : i ∈ imports) :
    i.render ∈ importEntries imports := by
  have hi : i ∈ imports.items := h
  simp only [importEntries, List.mem_append, List.mem_map, List.mem_filter]
  cases hs : i.isStandard with
  | true => exact .inl (.inl ⟨i, ⟨hi, hs⟩, rfl⟩)
  | false => exact .inr ⟨i, ⟨hi, by simp [hs]⟩, rfl⟩

theorem text_importHead : SoundText [] ("import ".toList ++ ['(']) [importFrame] := by
  have hline := (flat_of_isFlat (s := "import ".toList) (by decide)).soundLine_opening (b := '(')
    rfl ((leads_ofList (by decide)) _) []
  rw [of_eq_group (by decide)] at hline
  exact hline.text

theorem soundLine_importEntry {imports : ImportSet} (hp : ∀ i ∈ imports, Importable i)
    {e : String} (he : e ∈ importEntries imports) (hc : startsCase (trim e.toList) = false) :
    SoundLine [importFrame] e.toList [importFrame] := by
  rcases mem_importEntries he with rfl | ⟨i, hi, rfl⟩
  · exact soundLine_blank _
  · refine soundLine_import (hp i hi) fun hn ↦ ?_
    rw [startsCase_render hn] at hc
    cases hc

theorem text_importBlock {imports : ImportSet} (hne : imports.items ≠ [])
    (hp : ∀ i ∈ imports, Importable i) (hc : ∀ i ∈ imports, i.localName ≠ some "case") :
    SoundText [] (importBlock imports).toList [] := by
  have hentry (e : String) (he : e ∈ importEntries imports) :
      SoundText [importFrame] e.toList [importFrame] := by
    rcases mem_importEntries he with rfl | ⟨i, hi, rfl⟩
    · exact (soundLine_blank _).text
    · exact (soundLine_import (hp i hi) (hc i hi)).text
  rw [toList_importBlock hne]
  exact text_importHead.append (text_terminated hentry (soundLine_closing rfl []).text)

theorem sound_of_forall {frames : List Frame} {ts : List (List Char)}
    (h : ∀ t ∈ ts, SoundLine frames t frames) : Sound frames ts frames := by
  induction ts with
  | nil => exact .nil _
  | cons t ts ih =>
    exact .cons (h t List.mem_cons_self) (ih fun u hu ↦ h u (List.mem_cons_of_mem t hu))

/-- An import block up to the first import that is named `case`. -/
theorem exists_case_line {imports : ImportSet} (hp : ∀ i ∈ imports, Importable i) {i : Import}
    (hi : i ∈ imports) (hc : i.localName = some "case") :
    ∃ ts t rest, (importBlock imports).toList = joinLines ts ++ (t ++ '\n' :: rest) ∧
      Sound [] ts [importFrame] ∧ Flat t ∧ startsCase (trim t) = true := by
  have hfind : ((importEntries imports).find? fun e ↦ startsCase (trim e.toList)).isSome = true :=
    List.find?_isSome.2 ⟨i.render, mem_importEntries_of_mem hi, startsCase_render hc⟩
  obtain ⟨e, he⟩ := Option.isSome_iff_exists.1 hfind
  obtain ⟨hcase, before, rest, hsplit, hbefore⟩ := List.find?_eq_some_iff_append.1 he
  have hlines : Sound [importFrame] (before.map String.toList) [importFrame] := by
    refine sound_of_forall fun t ht ↦ ?_
    obtain ⟨e', he', rfl⟩ := List.mem_map.1 ht
    exact soundLine_importEntry hp (by simp [hsplit, he']) (by simpa using hbefore e' he')
  have hflat : Flat e.toList := by
    have hmem : e ∈ importEntries imports := by simp [hsplit]
    rcases mem_importEntries hmem with rfl | ⟨i, hi, rfl⟩
    · exact absurd hcase (by decide)
    · exact (hp i hi).flat
  refine ⟨("import ".toList ++ ['(']) :: before.map String.toList, e.toList,
    rest.flatMap (fun e ↦ e.toList ++ ['\n']) ++ [')'], ?_, ?_, hflat, hcase⟩
  · rw [toList_importBlock (List.ne_nil_of_mem hi), hsplit, joinLines_cons, joinLines,
      List.flatMap_map]
    simp
  · have hhead := text_importHead
    rw [SoundText, pieces_of_not_mem (by decide)] at hhead
    exact hhead.append hlines

/-- A file of which every declaration is sound. -/
structure SoundFile (P : Import → Prop) (g : GoFile) : Prop where
  imports : ∀ i ∈ g.imports, P i
  consts : ∀ d ∈ g.consts, SoundConst P d
  vars : ∀ d ∈ g.vars, BytesVar d
  interfaces : ∀ d ∈ g.interfaces, SoundInterface P d
  prototypes : g.prototypes = []
  groupedTypes : g.groupedTypes = []
  types : g.types = []
  typesWithMethods : ∀ d ∈ g.typesWithMethods, SoundStructure P d
  funcs : ∀ d ∈ g.funcs, ∃ f, d = .function f ∧ SoundFunction P f

section Additions

variable {g : GoFile} (h : SoundFile P g)
include h

theorem SoundFile.addImports {l : List Import} (hl : ∀ i ∈ l, P i) :
    SoundFile P (l.foldl GoFile.addImport g) := by
  induction l generalizing g with
  | nil => exact h
  | cons i l ih =>
    refine ih { h with imports := fun j hj ↦ ?_ } fun j hj ↦ hl j (List.mem_cons_of_mem i hj)
    rcases OrderedSet.mem_insert.1 hj with rfl | hj
    · exact hl j List.mem_cons_self
    · exact h.imports j hj

theorem SoundFile.addConst {d : Const} (hd : SoundConst P d) : SoundFile P (g.addConst d) :=
  { h with consts := List.forall_mem_append.2 ⟨h.consts, List.forall_mem_singleton.2 hd⟩ }

theorem SoundFile.addVar {d : Var} (hd : BytesVar d) : SoundFile P (g.addVar d) :=
  { h with vars := List.forall_mem_append.2 ⟨h.vars, List.forall_mem_singleton.2 hd⟩ }

theorem SoundFile.addInterface {d : Interface} (hd : SoundInterface P d) :
    SoundFile P (g.addInterface d) :=
  { h with
    interfaces := List.forall_mem_append.2 ⟨h.interfaces, List.forall_mem_singleton.2 hd⟩ }

theorem SoundFile.addTypeWithMethods {d : Structure} (hd : SoundStructure P d) :
    SoundFile P (g.addTypeWithMethods d) :=
  { h with
    typesWithMethods :=
      List.forall_mem_append.2 ⟨h.typesWithMethods, List.forall_mem_singleton.2 hd⟩ }

theorem SoundFile.addFunc {d : Function} (hd : SoundFunction P d) : SoundFile P (g.addFunc d) :=
  { h with
    funcs := List.forall_mem_append.2 ⟨h.funcs, List.forall_mem_singleton.2 ⟨d, rfl, hd⟩⟩ }

end Additions

theorem SoundFile.declaredImports {g : GoFile} (h : SoundFile P g) :
    ∀ i ∈ g.declaredImports, P i := by
  intro i hi
  simp only [GoFile.declaredImports, GoFile.structures, h.prototypes, h.groupedTypes, h.types,
    OrderedSet.mem_insertAll, List.mem_append, List.mem_flatMap, List.flatMap_nil, List.not_mem_nil,
    List.nil_append, or_false] at hi
  rcases hi with ((((⟨d, hd, hi⟩ | ⟨d, hd, hi⟩) | ⟨d, hd, hi⟩) | ⟨d, hd, hi⟩) | ⟨d, hd, hi⟩) | hi
  · exact (h.consts d hd).type.imports i (OrderedSet.mem_ofList.1 hi)
  · rw [Var.imports, (h.vars d hd).type] at hi
    cases hi
  · exact (h.interfaces d hd).imports i hi
  · exact (h.typesWithMethods d hd).imports i hi
  · obtain ⟨f, rfl, hf⟩ := h.funcs d hd
    exact hf.imports i hi
  · exact h.imports i hi

theorem exists_mapM {α β : Type} {f : α → Build β} {S : β → Prop} {l : List α}
    (h : ∀ a ∈ l, ∃ b, f a = .ok b ∧ S b) :
    ∃ bs, l.mapM f = .ok bs ∧ (∀ b ∈ bs, S b) ∧ ∀ a ∈ l, ∃ b ∈ bs, f a = .ok b := by
  induction l with
  | nil => exact ⟨[], rfl, by simp, by simp⟩
  | cons a l ih =>
    obtain ⟨b, hb, hs⟩ := h a List.mem_cons_self
    obtain ⟨bs, hbs, hall, hmem⟩ := ih fun c hc ↦ h c (List.mem_cons_of_mem a hc)
    refine ⟨b :: bs, ?_, List.forall_mem_cons.2 ⟨hs, hall⟩, ?_⟩
    · rw [List.mapM_cons, hb, hbs]
      rfl
    · refine List.forall_mem_cons.2 ⟨⟨b, List.mem_cons_self, hb⟩, fun c hc ↦ ?_⟩
      obtain ⟨d, hd, hf⟩ := hmem c hc
      exact ⟨d, List.mem_cons_of_mem b hd, hf⟩

theorem SoundStructure.exists_renderWithMethods {d : Structure} (h : SoundStructure P d) :
    ∃ texts, GoFile.renderWithMethods d = .ok texts ∧
      ∀ t ∈ texts, SoundText [] t.toList [] := by
  obtain ⟨text, htext, hs⟩ := h.renders
  obtain ⟨texts, htexts, hall, -⟩ := exists_mapM (l := d.methods)
    (f := fun m ↦ Build.inBuilder Structure.builder m.render)
    (S := fun t ↦ SoundText [] t.toList []) fun m hm ↦ by
      obtain ⟨t, ht, hs⟩ := (h.methods m hm).renders
      exact ⟨t, by rw [ht]; rfl, hs⟩
  refine ⟨text :: texts, ?_, List.forall_mem_cons.2 ⟨hs, hall⟩⟩
  rw [GoFile.renderWithMethods, htext, Structure.renderMethods, htexts]
  rfl

theorem SoundInterface.renders {d : Interface} (h : SoundInterface P d) : Renders d.render := by
  refine renders_finish h.text (c := '\x7d') ?_ (by decide) _
  rw [source_interface]
  exact getLast?_above (getLast?_members _)

/-- The sections of a sound file around its interfaces can be laid out, whatever those are. -/
theorem SoundFile.exists_sections_around {g : GoFile} (h : SoundFile P g) :
    ∃ before after, (∀ t ∈ before ++ after, SoundText [] t.toList []) ∧
      ∀ header ds texts, ds.mapM Interface.render = .ok texts →
        { g with header, interfaces := ds }.sections = .ok (before ++ texts ++ after) := by
  obtain ⟨consts, hconsts, hc, -⟩ := exists_mapM fun d hd ↦ (h.consts d hd).renders
  obtain ⟨vars, hvars, hv, -⟩ := exists_mapM fun d hd ↦ (h.vars d hd).renders
  obtain ⟨types, htypes, ht, -⟩ :=
    exists_mapM fun d hd ↦ (h.typesWithMethods d hd).exists_renderWithMethods
  obtain ⟨funcs, hfuncs, hf, -⟩ := exists_mapM (l := g.funcs) (f := Declaration.render)
    (S := fun t ↦ SoundText [] t.toList []) fun d hd ↦ by
      obtain ⟨f, rfl, hf⟩ := h.funcs d hd
      exact hf.renders
  refine ⟨consts ++ vars, types.flatten ++ funcs, ?_, fun header ds texts hinterfaces ↦ ?_⟩
  · simp only [List.mem_append, List.mem_flatten]
    rintro t ((h | h) | ⟨l, hl, h⟩ | h)
    · exact hc t h
    · exact hv t h
    · exact ht l hl t h
    · exact hf t h
  · have hgroup : { g with header, interfaces := ds }.groupSection = [] := by
      rw [GoFile.groupSection, h.groupedTypes]
      rfl
    have hnone : consts ++ vars ++ texts ++ [] ++ [] ++ [] ++ types.flatten ++ funcs =
        consts ++ vars ++ texts ++ (types.flatten ++ funcs) := by simp
    rw [GoFile.sections, hgroup, hconsts, hvars, hinterfaces, h.prototypes, h.types, htypes, hfuncs,
      ← hnone]
    rfl

theorem SoundFile.exists_sections {g : GoFile} (h : SoundFile P g) :
    ∃ texts, g.sections = .ok texts ∧ (∀ t ∈ texts, SoundText [] t.toList []) ∧
      ∀ d ∈ g.interfaces, ∃ t ∈ texts, d.render = .ok t := by
  obtain ⟨before, after, hs, hsections⟩ := h.exists_sections_around
  obtain ⟨interfaces, hinterfaces, hi, hmem⟩ :=
    exists_mapM fun d hd ↦ (h.interfaces d hd).renders
  rw [List.forall_mem_append] at hs
  refine ⟨_, hsections g.header g.interfaces interfaces hinterfaces, ?_, fun d hd ↦ ?_⟩
  · exact List.forall_mem_append.2 ⟨List.forall_mem_append.2 ⟨hs.1, hi⟩, hs.2⟩
  · obtain ⟨t, ht, hr⟩ := hmem d hd
    exact ⟨t, by simp [ht], hr⟩

theorem text_blocks {texts : List String} (hne : texts ≠ [])
    (h : ∀ t ∈ texts, SoundText [] t.toList []) :
    SoundText [] ("\n\n".intercalate texts).toList [] := by
  refine toList_intercalate_closed (P := (SoundText [] · [])) (fun a b ha hb ↦ ?_) hne h
  exact ha.append ((soundLine_blank []).text.append hb)

theorem SoundFile.exists_body {g : GoFile} (h : SoundFile P g) :
    ∃ texts, g.body = .ok ("\n\n".intercalate texts) ∧
      (∀ t ∈ texts, SoundText [] t.toList []) ∧
      ∀ d ∈ g.interfaces, ∃ t ∈ texts, d.render = .ok t := by
  obtain ⟨texts, hsections, hs, hi⟩ := h.exists_sections
  refine ⟨texts, ?_, hs, hi⟩
  rw [GoFile.body, hsections]
  rfl

theorem SoundFile.text_body {g : GoFile} (h : SoundFile P g) {body : String}
    (hb : g.body = .ok body) (hne : ¬body.isEmpty = true) : SoundText [] body.toList [] := by
  obtain ⟨texts, hbody, hsound, -⟩ := h.exists_body
  obtain rfl := Except.ok.inj (hbody.symm.trans hb)
  refine text_blocks (fun hnil ↦ hne ?_) hsound
  rw [hnil]
  rfl

theorem mem_resolveImports {body : String} {declared : ImportSet} {i : Import}
    (h : i ∈ resolveImports body declared) :
    i ∈ declared ∨ ∃ path ∈ standardPaths, i = .plain path := by
  rcases mem_resolveImports_iff.1 h with h | ⟨q, -, -, hq⟩
  · exact .inl h.1
  · obtain ⟨path, hpath, rfl⟩ := List.mem_map.1 (List.mem_of_find?_eq_some hq)
    exact .inr ⟨path, hpath, rfl⟩

theorem importable_standard {path : String} (h : path ∈ standardPaths) :
    Importable (.plain path) := by
  have hall : ∀ path ∈ standardPaths,
      '"' ∉ path.toList ∧ '\\' ∉ path.toList ∧ '\n' ∉ path.toList := by decide
  exact ⟨hall path h, by simp [Import.plain]⟩

theorem importable_of_mem_resolveImports {body : String} {declared : ImportSet}
    (hp : ∀ i ∈ declared, Importable i) :
    ∀ i ∈ resolveImports body declared, Importable i := by
  intro i hi
  rcases mem_resolveImports hi with hi | ⟨path, hpath, rfl⟩
  · exact hp i hi
  · exact importable_standard hpath

def frontMatter (g : GoFile) : List String :=
  (if g.header.isEmpty then [] else [g.header.render]) ++ ["package " ++ g.package.name]

theorem text_frontMatter_of_header {g : GoFile}
    (h : ¬g.header.isEmpty = true → SoundText [] g.header.render.toList []) :
    ∀ t ∈ frontMatter g, SoundText [] t.toList [] := by
  intro t ht
  rw [frontMatter, List.mem_append] at ht
  rcases ht with ht | ht
  · split_ifs at ht with he
    · cases ht
    · obtain rfl := List.mem_singleton.1 ht
      exact h he
  · obtain rfl := List.mem_singleton.1 ht
    refine Flat.text ?_ ?_ []
    · rw [String.toList_append]
      exact (flat_ofList (by decide)).append (flat_of_legal g.package.legal)
    · rw [String.toList_append]
      exact (leads_ofList (by decide)).append _

theorem text_frontMatter {g : GoFile} (h : g.header.Lined) :
    ∀ t ∈ frontMatter g, SoundText [] t.toList [] :=
  text_frontMatter_of_header fun he ↦ text_comment h (by simpa [Comment.isEmpty] using he) []

def optional (text : String) : List String := if text.isEmpty then [] else [text]

theorem assemble_eq (g : GoFile) (imports : ImportSet) (body : String) :
    g.assemble imports body =
      "\n\n".intercalate (frontMatter g ++ optional (importBlock imports) ++ optional body) ++
        "\n" := rfl

theorem text_optional {text : String} (h : ¬text.isEmpty = true → SoundText [] text.toList []) :
    ∀ t ∈ optional text, SoundText [] t.toList [] := by
  intro t ht
  unfold optional at ht
  split_ifs at ht with he
  · cases ht
  · obtain rfl := List.mem_singleton.1 ht
    exact h he

/-- A sound body can be laid out if none of the imports that serve it is named `case`. -/
theorem exists_layOut_of_resolved {g : GoFile}
    (hg : ∀ t ∈ frontMatter g, SoundText [] t.toList []) {body : String}
    (hb : ¬body.isEmpty = true → SoundText [] body.toList [])
    (hp : ∀ i ∈ g.declaredImports, Importable i)
    (hc : ∀ i ∈ resolveImports body g.declaredImports, i.localName ≠ some "case") :
    ∃ text, g.layOut body = .ok text := by
  have himports : ∀ i ∈ resolveImports body g.declaredImports, Importable i :=
    importable_of_mem_resolveImports hp
  have hblock : ¬(importBlock (resolveImports body g.declaredImports)).isEmpty = true →
      SoundText [] (importBlock (resolveImports body g.declaredImports)).toList [] := by
    intro hne
    refine text_importBlock (fun hnil ↦ hne ?_) himports hc
    rw [importBlock, OrderedSet.isEmpty, hnil]
    rfl
  obtain ⟨text, htext⟩ := SoundText.exists_format
    (s := "\n\n".intercalate (frontMatter g ++
      optional (importBlock (resolveImports body g.declaredImports)) ++ optional body))
    (text_blocks (by simp [frontMatter]) fun t ht ↦ by
      simp only [List.mem_append] at ht
      rcases ht with (ht | ht) | ht
      · exact hg t ht
      · exact text_optional hblock t ht
      · exact text_optional hb t ht)
  refine ⟨text, ?_⟩
  rw [GoFile.layOut, assemble_eq, htext]
  rfl

theorem exists_layOut {g : GoFile} (hg : ∀ t ∈ frontMatter g, SoundText [] t.toList [])
    {body : String}
    (hb : ¬body.isEmpty = true → SoundText [] body.toList [])
    (hp : ∀ i ∈ g.declaredImports, Importable i)
    (hc : ∀ i ∈ g.declaredImports, i.localName ≠ some "case") :
    ∃ text, g.layOut body = .ok text := by
  refine exists_layOut_of_resolved hg hb hp fun i hi ↦ ?_
  rcases mem_resolveImports hi with hi | ⟨path, -, rfl⟩
  · exact hc i hi
  · exact nofun

/-- A file up to the line of an import that is named `case`. -/
theorem exists_case_source {g : GoFile} (hg : g.header.Lined) {imports : ImportSet}
    (hp : ∀ i ∈ imports, Importable i) {i : Import} (hi : i ∈ imports)
    (hc : i.localName = some "case") (body : String) :
    ∃ ts t rest, (g.assemble imports body).toList = joinLines ts ++ (t ++ '\n' :: rest) ∧
      Sound [] ts [importFrame] ∧ Flat t ∧ startsCase (trim t) = true := by
  obtain ⟨ts, t, rest, hblock, hts, ht, hcase⟩ := exists_case_line hp hi hc
  generalize hb : importBlock imports = block at hblock
  have hoptional : optional block = [block] := by
    refine if_neg fun hempty ↦ ?_
    rw [String.isEmpty_iff.1 hempty] at hblock
    simp at hblock
  obtain ⟨tail, htail⟩ : ∃ tail,
      ("\n\n".intercalate ([block] ++ optional body)).toList = block.toList ++ tail := by
    unfold optional
    split_ifs
    · exact ⟨[], by simp⟩
    · exact ⟨"\n\n".toList ++ body.toList, by simp⟩
  have hfront := text_blocks (by simp [frontMatter]) (text_frontMatter hg)
  refine ⟨pieces '\n' ("\n\n".intercalate (frontMatter g)).toList ++ ([] :: ts), t,
    rest ++ tail ++ ['\n'], ?_, Sound.append hfront (.cons (soundLine_blank []) hts), ht, hcase⟩
  have hgap : "\n\n".toList = ['\n'] ++ ['\n'] := by decide
  rw [assemble_eq, hb, hoptional, List.append_assoc, String.toList_append,
    String.toList_intercalate, List.map_append, intercalate_append _ (by simp [frontMatter])
      (by simp), ← String.toList_intercalate, ← String.toList_intercalate, htail, hblock,
    joinLines_append, joinLines_pieces, joinLines_cons, hgap]
  simp

theorem result_finish {g : GoFile} {body : String} (h : g.body = .ok body) :
    g.finish.result = g.layOut body := by
  unfold GoFile.finish
  rw [h]
  cases hl : g.layOut body <;> simp only [hl]

end RpcStubs.Layout
