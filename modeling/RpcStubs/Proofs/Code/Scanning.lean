import RpcStubs.Proofs.Code.Files
import RpcStubs.Proofs.Code.Inversion

namespace RpcStubs.Layout

open Text

/-- Laying out a text moves blanks, but parts no stretch and joins no two. -/
theorem codeStretches_format {s t : String} (h : format s = .ok t) :
    ∃ gs gt, mark s.toList = .ok gs ∧ mark t.toList = .ok gt ∧
      codeStretches gt = codeStretches gs := by
  obtain ⟨lines, hnest, hlay⟩ := formatChars_eq_ok_iff.1 (format_eq_ok_iff.1 h)
  obtain ⟨gs, hmark, hreads⟩ := nest_eq_ok_iff.1 hnest
  obtain ⟨ls, hre⟩ := hreads.exists_reread rfl (placement_place lines) none
  have hstretches := hre.stretches_eq
  rw [← codeStretches_cutLines false gs] at hstretches
  rw [layOut_eq, tidy_arrange, ← hre.text_eq] at hlay
  cases ls with
  | nil =>
    -- nothing is left but the newline at the end
    refine ⟨gs, [('\n', .code)], hmark, ?_, hstretches⟩
    rw [← hlay]
    rfl
  | cons l ls =>
    obtain ⟨gt, hmark', hcut⟩ := exists_mark_joinLines (hre.marked rfl)
    refine ⟨gs, gt, hmark, ?_, ?_⟩
    · rw [← hlay]
      exact hmark'
    · rw [codeStretches_cutLines false gt, hcut, hstretches]

theorem usedQualifiers_eq_of_format {s t : String} (h : format s = .ok t) :
    usedQualifiers t = usedQualifiers s := by
  obtain ⟨gs, gt, hs, ht, hstretches⟩ := codeStretches_format h
  exact usedQualifiers_congr hs ht hstretches

/-- The text can be marked, and the scan finds these qualifiers in it. -/
def Scans (s : List Char) (found : List String) : Prop :=
  ∃ gs, mark s = .ok gs ∧ qualifiersFrom {} [] false [] (codeOnly gs) = found

theorem Scans.usedQualifiers_eq {s : String} {found : List String} (h : Scans s.toList found) :
    usedQualifiers s = .ofList found := by
  obtain ⟨gs, hmark, hfound⟩ := h
  simp only [usedQualifiers, hmark, hfound]

theorem Scans.unique {s : List Char} {found found' : List String} (h : Scans s found)
    (h' : Scans s found') : found = found' := by
  obtain ⟨gs, hmark, rfl⟩ := h
  obtain ⟨gs', hmark', rfl⟩ := h'
  rw [hmark] at hmark'
  cases hmark'
  rfl

theorem qualifiersFrom_line (a b : List Glyph) (r : Region) :
    qualifiersFrom {} [] false [] (codeOnly (a ++ ('\n', r) :: b)) =
      qualifiersFrom {} [] false [] (codeOnly a) ++
        qualifiersFrom {} [] false [] (codeOnly b) := by
  have hsep : isDotted (if r = .code then '\n' else ' ') = false := by
    split_ifs <;> decide
  rw [codeOnly_append]
  exact qualifiersFrom_parted hsep {} [] false [] (codeOnly a) (codeOnly b)

theorem Scans.append {a b : List Char} {found found' : List String} (ha : Scans a found)
    (hb : Scans b found') : Scans (a ++ '\n' :: b) (found ++ found') := by
  obtain ⟨ga, hma, rfl⟩ := ha
  obtain ⟨gb, hmb, rfl⟩ := hb
  exact ⟨_, mark_line hma hmb, qualifiersFrom_line ..⟩

/-- What follows such a text is scanned as if it stood alone. -/
theorem Scans.rest {a b : List Char} {found : List String} (ha : Scans a [])
    (h : Scans (a ++ '\n' :: b) found) : Scans b found := by
  obtain ⟨ga, hma, hfa⟩ := ha
  obtain ⟨gs, hms, rfl⟩ := h
  obtain ⟨rfl, q, hqa, hq⟩ := mark_eq_ok_iff.1 hma
  obtain ⟨ht, q', hqs, hq'⟩ := mark_eq_ok_iff.1 hms
  obtain ⟨ga', gb, rfl, hta, htb⟩ := exists_of_glyphText_eq_append ht
  obtain ⟨⟨c, r⟩, gb, rfl, hc, rfl⟩ := List.map_eq_cons_iff.1 htb
  obtain rfl : c = '\n' := hc
  obtain ⟨⟨p, hpa, hp⟩, hqb⟩ := marked_line.1 hqs
  obtain ⟨rfl, hmode⟩ := hpa.unique hqa hta
  obtain rfl : p = q := by simpa using hmode
  obtain rfl : r = .code := Option.some_inj.1 (hp.symm.trans hq)
  refine ⟨gb, mark_eq_ok_iff.2 ⟨rfl, q', hqb, hq'⟩, ?_⟩
  rw [qualifiersFrom_line, hfa, List.nil_append]

/-- A newline at the end does not count. -/
theorem Scans.of_newline {s : List Char} {found : List String} (h : Scans (s ++ ['\n']) found) :
    Scans s found := by
  obtain ⟨gs, hms, rfl⟩ := h
  obtain ⟨gs, hmark, rfl⟩ := exists_mark_of_newline hms
  refine ⟨gs, hmark, ?_⟩
  rw [qualifiersFrom_line]
  exact (List.append_nil _).symm

theorem qualifiersFrom_of_not_mem {s : List Char} (h : '.' ∉ s) (before : Before)
    (word : List Char) (member : Bool) : qualifiersFrom before word member [] s = [] := by
  induction s generalizing before word member with
  | nil => rfl
  | cons c s ih =>
    obtain ⟨hc, hs⟩ : '.' ≠ c ∧ '.' ∉ s := by simpa using h
    rw [qualifiersFrom]
    split_ifs with hw hstart hword hdot
    · exact ih hs _ _ _
    · exact ih hs _ _ _
    · exact ih hs _ _ _
    · simp [Ne.symm hc] at hdot
    · exact ih hs _ _ _

theorem scans_of_marked {gs : List Glyph} {q : Region}
    (hm : Marked none (.inside .code) gs (.inside q)) (hq : q.nextLine = some .code)
    (hdot : '.' ∉ codeOnly gs) : Scans (glyphText gs) [] :=
  ⟨gs, mark_eq_ok_iff.2 ⟨rfl, q, hm, hq⟩, qualifiersFrom_of_not_mem hdot _ _ _⟩

theorem scans_plain {s : List Char} (h : ∀ c ∈ s, isPlain c = true) (hdot : '.' ∉ s) :
    Scans s [] := by
  have hcode := scans_of_marked (marked_plain h) rfl (by rwa [codeOnly_map_code])
  rwa [glyphText_map_pair] at hcode

theorem codeOnly_map {r : Region} (h : r ≠ .code) (s : List Char) :
    codeOnly (s.map (·, r)) = List.replicate s.length ' ' := by
  induction s with
  | nil => rfl
  | cons c s ih =>
    rw [List.map_cons, List.length_cons, List.replicate_succ, ← ih]
    simp [codeOnly, h]

theorem marked_comment {s : List Char} (h : '\n' ∉ s) :
    Marked none (.inside .code) (('/' :: '/' :: s).map (·, .lineComment))
      (.inside .lineComment) :=
  .cons (rfl : _ = some (Region.lineComment, Mode.opening .lineComment))
    (.cons rfl (marked_lineComment h))

theorem scans_comment {s : List Char} (h : '\n' ∉ s) : Scans ('/' :: '/' :: s) [] := by
  have hdot : '.' ∉ codeOnly (('/' :: '/' :: s).map (·, Region.lineComment)) := by
    rw [codeOnly_map (by decide)]
    simp
  have hscans := scans_of_marked (marked_comment h) rfl hdot
  rwa [glyphText_map_pair] at hscans

theorem scans_empty : Scans [] [] := scans_plain (by simp) (by simp)

theorem scans_lines {texts : List String} (hne : texts ≠ [])
    (h : ∀ t ∈ texts, Scans t.toList []) : Scans ("\n".intercalate texts).toList [] := by
  refine toList_intercalate_closed (P := (Scans · [])) (fun a b ha hb ↦ ?_) hne h
  exact ha.append hb

theorem scans_blocks {texts : List String} (hne : texts ≠ [])
    (h : ∀ t ∈ texts, Scans t.toList []) : Scans ("\n\n".intercalate texts).toList [] := by
  refine toList_intercalate_closed (P := (Scans · [])) (fun a b ha hb ↦ ?_) hne h
  exact ha.append (scans_empty.append hb)

theorem scans_header {c : Comment} (hc : c.Lined) (hne : c.lines ≠ []) :
    Scans c.render.toList [] := by
  refine scans_lines (by simpa using hne) fun t ht ↦ ?_
  obtain ⟨line, hline, rfl⟩ := List.mem_map.1 ht
  unfold Comment.renderLine
  split_ifs
  · exact scans_comment (s := []) (by simp)
  · rw [String.toList_append]
    exact scans_comment (s := ' ' :: line.toList) (by simp [hc line hline])

theorem scans_package (p : Identifier) : Scans ("package " ++ p.name).toList [] := by
  have hclause : ∀ c ∈ "package ".toList, isPlain c = true := by decide
  have hword := isWord_of_legal p.legal
  rw [String.toList_append]
  refine scans_plain (fun c hc ↦ ?_) fun hdot ↦ ?_
  · rcases List.mem_append.1 hc with hc | hc
    · exact hclause c hc
    · exact isPlain_of_isWordChar (isWordChar_of_mem hword hc)
  · rcases List.mem_append.1 hdot with hdot | hdot
    · revert hdot
      decide
    · exact not_mem_of_isWord hword (by decide) hdot

/-- The name of an import is the only code on its line. -/
theorem Importable.scans {i : Import} (h : Importable i) : Scans i.render.toList [] := by
  obtain ⟨name, hname, hdot, he⟩ : ∃ name : List Char, (∀ c ∈ name, isPlain c = true) ∧
      '.' ∉ name ∧ i.render.toList = name ++ '"' :: (i.path.toList ++ ['"']) := by
    cases hn : i.localName with
    | none => exact ⟨[], by simp, by simp, toList_render_plain hn⟩
    | some name =>
      have hword := h.name name hn
      refine ⟨name.toList ++ [' '], fun c hc ↦ ?_, ?_, ?_⟩
      · rcases List.mem_append.1 hc with hc | hc
        · exact isPlain_of_isWordChar (isWordChar_of_mem hword hc)
        · obtain rfl := List.mem_singleton.1 hc
          decide
      · simpa using not_mem_of_isWord hword (by decide)
      · rw [toList_render_aliased hn]
        simp
  have hquoted : Marked none (.inside .code) (('"' :: (i.path.toList ++ ['"'])).map (·, .str))
      (.inside .code) := marked_quotedClean h.path none
  have hscans := scans_of_marked ((marked_plain hname).append hquoted) rfl ?_
  · rwa [glyphText_append, glyphText_map_pair, glyphText_map_pair, ← he] at hscans
  · rw [codeOnly_append, codeOnly_map_code, codeOnly_map (by decide)]
    simp [hdot]

theorem scans_terminated {entries : List String} (h : ∀ e ∈ entries, Scans e.toList [])
    {s : List Char} (hs : Scans s []) :
    Scans (entries.flatMap (fun e ↦ e.toList ++ ['\n']) ++ s) [] := by
  induction entries with
  | nil => exact hs
  | cons e entries ih =>
    have hrest := ih fun f hf ↦ h f (List.mem_cons_of_mem e hf)
    have hline := (h e List.mem_cons_self).append hrest
    simpa using hline

theorem scans_importBlock {imports : ImportSet} (hne : imports.items ≠ [])
    (hp : ∀ i ∈ imports, Importable i) : Scans (importBlock imports).toList [] := by
  have hhead : Scans ("import ".toList ++ ['(']) [] := scans_plain (by decide) (by decide)
  have hclose : Scans [')'] [] := scans_plain (by decide) (by decide)
  rw [toList_importBlock hne]
  refine hhead.append (scans_terminated (fun e he ↦ ?_) hclose)
  rcases mem_importEntries he with rfl | ⟨i, hi, rfl⟩
  · exact scans_empty
  · exact (hp i hi).scans

def preamble (g : GoFile) (imports : ImportSet) : List String :=
  frontMatter g ++ optional (importBlock imports)

theorem scans_of_mem_preamble {g : GoFile} (hg : g.header.Lined) {imports : ImportSet}
    (hp : ∀ i ∈ imports, Importable i) : ∀ t ∈ preamble g imports, Scans t.toList [] := by
  intro t ht
  simp only [preamble, frontMatter, optional, List.mem_append] at ht
  rcases ht with (ht | ht) | ht
  · split_ifs at ht with he
    · cases ht
    · obtain rfl := List.mem_singleton.1 ht
      exact scans_header hg (by simpa [Comment.isEmpty] using he)
  · obtain rfl := List.mem_singleton.1 ht
    exact scans_package g.package
  · split_ifs at ht with he
    · cases ht
    · obtain rfl := List.mem_singleton.1 ht
      refine scans_importBlock (fun hnil ↦ he ?_) hp
      rw [importBlock, OrderedSet.isEmpty, hnil]
      rfl

/-- What stands before the body of a file uses no package. -/
theorem Scans.of_assemble {g : GoFile} (hg : g.header.Lined) {imports : ImportSet}
    (hp : ∀ i ∈ imports, Importable i) {body : String} {found : List String}
    (h : Scans (g.assemble imports body).toList found) : Scans body.toList found := by
  have hne : preamble g imports ≠ [] := by simp [preamble, frontMatter]
  have hfront := scans_blocks hne (scans_of_mem_preamble hg hp)
  rw [assemble_eq, String.toList_append, ← preamble] at h
  have h' := h.of_newline
  by_cases hb : body.isEmpty = true
  · obtain rfl := String.isEmpty_iff.1 hb
    rw [optional, if_pos hb, List.append_nil] at h'
    rw [h'.unique hfront]
    exact scans_empty
  · rw [optional, if_neg hb, String.toList_intercalate, List.map_append,
      intercalate_append _ (by simpa using hne) (by simp), ← String.toList_intercalate] at h'
    have hgap : Scans ([] ++ '\n' :: body.toList) found := hfront.rest (by simpa using h')
    exact scans_empty.rest hgap

theorem usedQualifiers_eq_of_layOut {g : GoFile} (hg : g.header.Lined)
    (hp : ∀ i ∈ g.declaredImports, Importable i) {body text : String}
    (h : g.layOut body = .ok text) : usedQualifiers text = usedQualifiers body := by
  have hformat := eq_ok_of_inBuilder h
  obtain ⟨gs, -, hmark, -⟩ := codeStretches_format hformat
  have hbody := Scans.of_assemble hg (importable_of_mem_resolveImports hp) ⟨gs, hmark, rfl⟩
  have hsource : Scans (g.assemble (resolveImports body g.declaredImports) body).toList _ :=
    ⟨gs, hmark, rfl⟩
  rw [usedQualifiers_eq_of_format hformat, hsource.usedQualifiers_eq, hbody.usedQualifiers_eq]

/-- The scan finds the same in a text and in what is laid out of it. So the imports that serve the
body of a file are those that serve the finished text. -/
theorem usedQualifiers_format :
    (∀ s t, format s = .ok t → usedQualifiers t = usedQualifiers s) ∧
      ∀ (g : GoFile) (body text : String), g.header.Lined →
        (∀ i ∈ g.declaredImports, Importable i) → g.layOut body = .ok text →
        resolveImports text g.declaredImports = resolveImports body g.declaredImports := by
  constructor
  · intro s t h
    exact usedQualifiers_eq_of_format h
  · intro g body text hg hp h
    rw [resolveImports, resolveImports, usedQualifiers_eq_of_layOut hg hp h]

def sampleFile : GoFile where
  package := ⟨"stubs", by decide⟩
  fileName := "stubs.go"
  header := ⟨["Kept by hand."]⟩
  imports := .ofList [.plain "a.b/m", .aliased "a.b/kit" "p", .plain "a.b/idle"]

def sampleBody : String := "var x = p.S\x7b\nk:...q.V,\nkey:  m.W.X, // n.N\n\x7d"

def sampleText : String :=
  "// Kept by hand.\n\npackage stubs\n\nimport (\n\tp \"a.b/kit\"\n\t\"a.b/m\"\n)\n\n" ++
    "var x = p.S\x7b\n\tk:   ...q.V,\n\tkey: m.W.X, // n.N\n\x7d\n"

theorem importable_sampleFile : ∀ i ∈ sampleFile.declaredImports, Importable i := by
  have hall : ∀ i ∈ sampleFile.declaredImports.items,
      ('"' ∉ i.path.toList ∧ '\\' ∉ i.path.toList ∧ '\n' ∉ i.path.toList) ∧
        ∀ name ∈ i.localName, isWord name.toList = true := by decide
  exact fun i hi ↦ ⟨(hall i hi).1, (hall i hi).2⟩

theorem usedQualifiers_format_sample :
    (usedQualifiers sampleBody).items = ["m", "p", "q"] ∧
      usedQualifiers sampleText = usedQualifiers
        (sampleFile.assemble (resolveImports sampleBody sampleFile.declaredImports) sampleBody) ∧
      resolveImports sampleText sampleFile.declaredImports =
        resolveImports sampleBody sampleFile.declaredImports := by
  have hlay : sampleFile.layOut sampleBody = .ok sampleText := by decide +kernel
  have hheader : sampleFile.header.Lined := by
    intro line hline
    obtain rfl := List.mem_singleton.1 hline
    decide
  refine ⟨by decide +kernel, usedQualifiers_format.1 _ _ (eq_ok_of_inBuilder hlay), ?_⟩
  exact usedQualifiers_format.2 _ _ _ hheader importable_sampleFile hlay

end RpcStubs.Layout
