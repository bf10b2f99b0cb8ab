import RpcStubs.Code.Layout
import RpcStubs.Proofs.Layout.Respacing

namespace RpcStubs.Layout

open Text

/-- A line and the text that is written for it; a blank line has none. -/
inductive Written (l : Line) : Option (List Char) → Prop
  | verbatim : l.verbatim = true → Written l (some l.text)
  | blank : l.verbatim = false → trim l.text = [] → Written l none
  | indented : l.verbatim = false → trim l.text ≠ [] →
      Written l (some (List.replicate (l.indent (trim l.text)) '\t' ++ trim l.text))
  | aligned (n i j : Nat) {c : Cells} : l.cells? = some c →
      Written l (some (List.replicate n '\t' ++
        c.join (List.replicate (i + 1) ' ') (List.replicate (j + 1) ' ')))

theorem written_indented (l : Line) : Written l l.indented := by
  unfold Line.indented
  cases hv : l.verbatim with
  | true => exact .verbatim hv
  | false =>
    cases ht : trim l.text with
    | nil => exact .blank hv ht
    | cons c cs =>
      have h := Written.indented (l := l) hv (by simp [ht])
      rw [ht] at h
      exact h

theorem cells?_eq_of_slot_eq {l : Line} {d : Nat} {c : Cells} (h : l.slot = .cells d c) :
    d = l.depth ∧ l.cells? = some c := by
  unfold Line.slot at h
  split at h
  · cases h
  · split at h
    · next hc =>
      cases h
      exact ⟨rfl, hc⟩
    · cases h

theorem written_alignSlot (l : Line) (before after : List Slot) :
    Written l ((alignSlot before after l.slot).or l.indented) := by
  cases hs : l.slot with
  | comment => exact written_indented l
  | other => exact written_indented l
  | cells d c =>
    obtain ⟨rfl, hc⟩ := cells?_eq_of_slot_eq hs
    rw [alignSlot]
    split
    · exact written_indented l
    · obtain ⟨i, j, he⟩ := exists_alignCells_eq_join (runFrom l.depth before)
        (runFrom l.depth after) c
      rw [he]
      exact .aligned l.depth i j hc

theorem forall₂_written_arrange (lines : List Line) :
    List.Forall₂ Written lines (arrange lines) := by
  suffices h : ∀ before, List.Forall₂ Written lines (List.zipWith
      (fun (l : Line) aligned ↦ aligned.or l.indented) lines
      (alignSlots before (lines.map Line.slot))) from h []
  induction lines with
  | nil => exact fun _ ↦ .nil
  | cons l lines ih =>
    intro before
    rw [List.map_cons, alignSlots, List.zipWith_cons_cons]
    exact .cons (written_alignSlot l _ _) (ih _)

structure Columned (l : Line) (c : Cells) : Prop where
  verbatim : l.verbatim = false
  balanced : l.balanced = true
  proper : c.Proper
  enclosing : ∀ name type tag, c = .field name type tag → l.enclosing = some .struct
  text : ∃ gap tagGap, trim l.text = c.join gap tagGap ∧ c.Gaps gap tagGap
  cells?_join : ∀ gap tagGap, c.Gaps gap tagGap → ∀ text, trim text = c.join gap tagGap →
    Line.cells? { l with text := text } = some c

theorem not_isPrefixOf_of_head {w s : List Char} {c d : Char} (hw : w.head? = some c)
    (hs : s.head? = some d) (hne : c ≠ d) : w.isPrefixOf s = false := by
  cases w with
  | nil => cases hw
  | cons c' w =>
    cases s with
    | nil => rfl
    | cons d' s =>
      cases hw
      cases hs
      rw [List.isPrefixOf_cons_cons, beq_false_of_ne hne, Bool.false_and]

theorem exists_head?_join {c : Cells} (hp : c.Proper) (gap tagGap : List Char) :
    ∃ d, (c.join gap tagGap).head? = some d ∧ startsWord d = true := by
  have h {name : List Char} (hn : isWord name = true) (rest : List Char) :
      ∃ d, (name ++ rest).head? = some d ∧ startsWord d = true := by
    obtain ⟨d, tail, rfl, hd⟩ := exists_of_isWord hn
    exact ⟨d, rfl, hd⟩
  rcases c with ⟨name, type, _ | tag⟩ | ⟨key, value⟩ <;> exact h hp.1 _

theorem not_isPrefixOf_join {c : Cells} (hp : c.Proper) {w : List Char} {d : Char}
    (hw : w.head? = some d) (hd : startsWord d = false) (gap tagGap : List Char) :
    w.isPrefixOf (c.join gap tagGap) = false := by
  obtain ⟨e, he, hes⟩ := exists_head?_join hp gap tagGap
  refine not_isPrefixOf_of_head hw he ?_
  rintro rfl
  rw [hes] at hd
  cases hd

theorem exists_field_of_fieldCells? {t : List Char} {c : Cells} (h : fieldCells? t = some c) :
    ∃ name type tag, c = .field name type tag := by
  unfold fieldCells? at h
  split at h
  · cases h
  · simp only at h
    split at h
    · cases h
    · split at h <;> cases h <;> exact ⟨_, _, _, rfl⟩

theorem exists_keyed_of_keyedCells? {t : List Char} {c : Cells} (h : keyedCells? t = some c) :
    ∃ key value, c = .keyed key value := by
  unfold keyedCells? at h
  split at h
  · cases h
  · simp only at h
    split at h <;> cases h
    exact ⟨_, _, rfl⟩

theorem isCommentText_join {c : Cells} (hp : c.Proper) (gap tagGap : List Char) :
    isCommentText (c.join gap tagGap) = false :=
  not_isPrefixOf_join hp rfl (by decide) gap tagGap

theorem columned_of_cells? {l : Line} {c : Cells} (h : l.cells? = some c) : Columned l c := by
  unfold Line.cells? at h
  split_ifs at h with hx
  obtain ⟨⟨hv, hb⟩, -⟩ : (l.verbatim = false ∧ l.balanced = true) ∧ _ := by simpa using hx
  have htight : Tight (trim l.text) := tight_trim l.text
  have hguard (gap tagGap : List Char) (hp : c.Proper) :
      (l.verbatim || !l.balanced || isCommentText (c.join gap tagGap)) = false := by
    rw [hv, hb, isCommentText_join hp]
    rfl
  split at h
  · next he =>
    obtain ⟨hp, htext⟩ := fieldCells?_eq_some htight h
    obtain ⟨name, type, tag, rfl⟩ := exists_field_of_fieldCells? h
    refine ⟨hv, hb, hp, fun _ _ _ _ ↦ he, htext, fun gap tagGap hg text ht ↦ ?_⟩
    simp only [Line.cells?, ht, hguard gap tagGap hp, he, fieldCells?_join hp hg]
    rfl
  · next he =>
    obtain ⟨hp, htext⟩ := keyedCells?_eq_some htight h
    obtain ⟨key, value, rfl⟩ := exists_keyed_of_keyedCells? h
    refine ⟨hv, hb, hp, by simp, htext, fun gap tagGap hg text ht ↦ ?_⟩
    simp only [Line.cells?, ht, hguard gap tagGap hp, he, keyedCells?_join hp hg]
    rfl
  · cases h

/-- A line with columns begins with a word and a separator, whatever its gaps are. -/
theorem exists_join_eq {c : Cells} (hp : c.Proper) :
    ∃ name d, isWord name = true ∧ (d = ' ' ∨ d = ':') ∧
      ∀ gap tagGap, c.Gaps gap tagGap → ∃ rest, c.join gap tagGap = name ++ d :: rest := by
  cases c with
  | field name type tag =>
    refine ⟨name, ' ', hp.1, .inl rfl, fun gap tagGap hg ↦ ?_⟩
    obtain ⟨r, rfl⟩ := exists_cons_of_head? (hg.lead _ _ _ rfl)
    cases tag <;> exact ⟨_, rfl⟩
  | keyed key value => exact ⟨key, ':', hp.1, .inr rfl, fun _ _ _ ↦ ⟨_, rfl⟩⟩

theorem isPrefixOf_word_iff {word name rest : List Char} {sep d : Char} (hw : sep ∉ name)
    (hd : d ∉ word) :
    (word ++ [sep]).isPrefixOf (name ++ d :: rest) = true ↔ word = name ∧ sep = d := by
  constructor
  · exact isPrefixOf_word hw hd
  · rintro ⟨rfl, rfl⟩
    rw [List.isPrefixOf_iff_prefix, List.prefix_append_right_inj]
    exact ⟨rest, rfl⟩

/-- Which clause a line starts does not depend on its gaps. -/
theorem isPrefixOf_join_congr {c : Cells} (hp : c.Proper) {gap tagGap gap' tagGap' : List Char}
    (hg : c.Gaps gap tagGap) (hg' : c.Gaps gap' tagGap') {word : List Char} {sep : Char}
    (hsep : Name.isWordChar sep = false) (hword : ' ' ∉ word ∧ ':' ∉ word) :
    (word ++ [sep]).isPrefixOf (c.join gap tagGap) =
      (word ++ [sep]).isPrefixOf (c.join gap' tagGap') := by
  obtain ⟨name, d, hn, hd, hjoin⟩ := exists_join_eq hp
  obtain ⟨rest, hr⟩ := hjoin gap tagGap hg
  obtain ⟨rest', hr'⟩ := hjoin gap' tagGap' hg'
  have hdw : d ∉ word := by
    rcases hd with rfl | rfl
    · exact hword.1
    · exact hword.2
  rw [hr, hr', Bool.eq_iff_iff, isPrefixOf_word_iff (not_mem_of_isWord hn hsep) hdw,
    isPrefixOf_word_iff (not_mem_of_isWord hn hsep) hdw]

theorem Obeys.regap {c : Cells} {gap tagGap gap' tagGap' : List Char}
    {enclosing first : Option Opener} (hp : c.Proper) (hg : c.Gaps gap tagGap)
    (hg' : c.Gaps gap' tagGap') (h : Obeys (c.join gap tagGap) enclosing first)
    (ht : isLooseElse (c.join gap' tagGap') = false) :
    Obeys (c.join gap' tagGap') enclosing first where
  attached := by
    have hne (w : List Char) (hw : w.head? = some '\x7d') :
        w.isPrefixOf (c.join gap' tagGap') = false := not_isPrefixOf_join hp hw (by decide) _ _
    rw [startsElse, hne _ (by decide), hne _ (by decide)]
    simp
  tight := ht
  clause := by
    have hcase : startsCase (c.join gap' tagGap') = startsCase (c.join gap tagGap) :=
      isPrefixOf_join_congr hp hg' hg (by decide)
        (by decide : ' ' ∉ "case".toList ∧ ':' ∉ "case".toList)
    have hdefault : startsDefault (c.join gap' tagGap') = startsDefault (c.join gap tagGap) :=
      isPrefixOf_join_congr hp hg' hg (by decide)
        (by decide : ' ' ∉ "default".toList ∧ ':' ∉ "default".toList)
    rw [hcase, hdefault]
    exact h.clause

theorem eq_code_of_spansLines {r : Region} (hr : r.nextLine = some r)
    (hv : r.spansLines = false) : r = .code := by
  revert hr hv
  cases r <;> decide

theorem exists_glyphs_trim (gs : List Glyph) :
    ∃ lead core trail, gs = lead ++ core ++ trail ∧ Blanks (glyphText lead) ∧
      Blanks (glyphText trail) ∧ glyphText core = trim (glyphText gs) := by
  obtain ⟨lead, trail, he, hl, ht, -⟩ := exists_trim (glyphText gs)
  obtain ⟨a, t, rfl, ha, rfl⟩ := exists_of_glyphText_eq_append he
  obtain ⟨l, c, rfl, rfl, hc⟩ := exists_of_glyphText_eq_append ha
  exact ⟨l, c, t, rfl, hl, ht, hc⟩

/-- What is between the blanks of a line of code is a line of code. -/
theorem LineMarked.core {r' : Region} {lead core trail : List Glyph}
    (h : LineMarked .code (lead ++ core ++ trail) r') (hl : Blanks (glyphText lead))
    (ht : Blanks (glyphText trail)) : LineMarked .code core r' := by
  obtain ⟨hs, q, hm, hq⟩ := h
  simp only [glyphText_append, List.mem_append, not_or] at hs
  obtain ⟨⟨hsl, hsc⟩, hst⟩ := hs
  rw [List.append_assoc] at hm
  obtain ⟨-, hm'⟩ := hm.drop_lead (spaces_of_blanks hl hsl)
  exact ⟨hsc, q, hm'.drop_trail (spaces_of_blanks ht hst) (not_literal_of_nextLine hq), hq⟩

theorem LineMarked.indent {r' : Region} {core : List Glyph} (h : LineMarked .code core r')
    {lead : List Char} (hl : Spaces lead) : LineMarked .code (lead.map (·, .code) ++ core) r' := by
  obtain ⟨hs, q, hm, hq⟩ := h
  refine ⟨?_, q, (marked_spaces hl .code).append hm, hq⟩
  rw [glyphText_append, glyphText_map_pair, List.mem_append, not_or]
  exact ⟨fun hn ↦ (hl _ hn).2 rfl, hs⟩

theorem turns_indent {lead : List Char} (hl : Spaces lead) (core : List Glyph) :
    turns [] (lead.map (·, .code) ++ core) = turns [] core := by
  have h : turns [] (lead.map (·, .code) ++ core ++ []) = turns [] core :=
    turns_trim (by rw [glyphText_map_pair]; exact hl.blanks) blanks_nil
  rwa [List.append_nil] at h

theorem respaced_indent {lead : List Char} (hl : Spaces lead) (core : List Glyph) :
    Respaced core (lead.map (·, .code) ++ core) := by
  have h : Respaced (lead.map (·, .code) ++ core ++ []) core :=
    respaced_trim (by rw [glyphText_map_pair]; exact hl.blanks) blanks_nil
  rw [List.append_nil] at h
  exact h.symm

theorem LineNested.line_verbatim {frames : List Frame} {l : MarkedLine} {line : Line}
    {after : Nesting} (h : LineNested frames l line after) : line.verbatim = l.verbatim := by
  rw [h.line_eq]
  rfl

theorem LineNested.line_text {frames : List Frame} {l : MarkedLine} {line : Line}
    {after : Nesting} (h : LineNested frames l line after) : line.text = glyphText l.glyphs := by
  rw [h.line_eq]
  rfl

/-- Other glyphs with the same effect make another line in the same place. -/
theorem LineNested.rewrite {frames : List Frame} {l : MarkedLine} {line : Line} {after : Nesting}
    (h : LineNested frames l line after) {gs : List Glyph}
    (hrun : Nesting.run ⟨frames, none⟩ (turns [] gs) = some after)
    (hobeys : l.verbatim = false →
      Obeys (trim (glyphText gs)) (enclosingOpener frames) after.closedFirst) :
    LineNested frames ⟨l.verbatim, gs⟩ { line with text := glyphText gs } after := by
  obtain ⟨-, -, rfl⟩ := h
  exact ⟨hrun, hobeys, rfl⟩

/-- What is between the blanks of a line does all that the line does. -/
theorem exists_core {frames : List Frame} {l : MarkedLine} {line : Line} {after : Nesting}
    {r : Region} (hl : LineMarked .code l.glyphs r) (hn : LineNested frames l line after) :
    ∃ core, glyphText core = trim line.text ∧ LineMarked .code core r ∧
      Respaced l.glyphs core ∧
      Nesting.run ⟨frames, none⟩ (turns [] core) = some after := by
  obtain ⟨lead, core, trail, he, hlead, htrail, hcore⟩ := exists_glyphs_trim l.glyphs
  have hrun := hn.run_eq
  rw [he] at hl hrun
  refine ⟨core, by rw [hcore, hn.line_text], hl.core hlead htrail, ?_, ?_⟩
  · rw [he]
    exact respaced_trim hlead htrail
  · rwa [turns_trim hlead htrail] at hrun

theorem trim_indent (n : Nat) {s : List Char} (hs : Tight s) :
    trim (List.replicate n '\t' ++ s) = s := by
  rw [trim_blanks_append (spaces_replicate_tab n).blanks, hs.trim_eq]

theorem tight_join {c : Cells} (hp : c.Proper) {gap tagGap : List Char} :
    Tight (c.join gap tagGap) := by
  obtain ⟨d, hd, hds⟩ := exists_head?_join hp gap tagGap
  refine ⟨fun e he ↦ ?_, fun e he ↦ ?_⟩
  · obtain rfl : d = e := by
      rw [hd] at he
      exact Option.some_inj.1 he
    exact isBlank_of_isWordChar (isWordChar_of_startsWord hds)
  · rcases c with ⟨name, type, _ | tag⟩ | ⟨key, value⟩
    · obtain ⟨-, hne, htight, -⟩ := hp
      rw [Cells.join, List.getLast?_append_of_ne_nil _ (by simp [hne]),
        List.getLast?_append_of_ne_nil _ hne] at he
      exact htight.last e he
    · obtain ⟨-, hne, -, -, htag⟩ := hp
      obtain ⟨hquote, hlast⟩ := htag tag rfl
      have htne : tag ≠ [] := by
        rintro rfl
        cases hquote
      rw [Cells.join, List.getLast?_append_of_ne_nil _ (by simp [hne]),
        List.getLast?_append_of_ne_nil _ (by simp [hne]),
        List.getLast?_append_of_ne_nil _ (by simp [htne]),
        List.getLast?_append_of_ne_nil _ htne] at he
      exact hlast e he
    · obtain ⟨-, hne, htight, -⟩ := hp
      rw [Cells.join, List.getLast?_append_of_ne_nil _ (by simp),
        ← List.cons_append, List.getLast?_append_of_ne_nil _ hne] at he
      exact htight.last e he

theorem elseIf_of_isLooseElse {s : List Char} (h : isLooseElse s = false) :
    "else if ".toList.isPrefixOf s = false := by
  rw [isLooseElse, Bool.or_eq_false_iff] at h
  exact h.2

theorem length_frames_of_balanced {frames : List Frame} {l : MarkedLine} {line : Line}
    {after : Nesting} (h : LineNested frames l line after) (hb : line.balanced = true) :
    after.frames.length = frames.length := by
  rw [h.line_eq, lineOf, Bool.and_eq_true, beq_iff_eq] at hb
  exact hb.2

theorem mem_join {c : Cells} {gap' tagGap' : List Char} (gap tagGap : List Char) {d : Char}
    (h : d ∈ c.join gap' tagGap') : d ∈ c.join gap tagGap ∨ d ∈ gap' ∨ d ∈ tagGap' := by
  rcases c with ⟨name, type, _ | tag⟩ | ⟨key, value⟩ <;>
  · simp only [Cells.join, List.mem_append, List.mem_cons] at h ⊢
    tauto

/-- An aligned line is read like the line it was, unless it has become a loose `else`. -/
theorem exists_aligned {frames : List Frame} {l : MarkedLine} {line : Line} {after : Nesting}
    {r : Region} {c : Cells} (hl : LineMarked .code l.glyphs r)
    (hn : LineNested frames l line after) (hc : Columned line c) (n i j : Nat) :
    ∃ gs, glyphText gs = List.replicate n '\t' ++
        c.join (List.replicate (i + 1) ' ') (List.replicate (j + 1) ' ') ∧
      LineMarked .code gs r ∧ Respaced l.glyphs gs ∧
      (isLooseElse (trim (glyphText gs)) = false →
        LineNested frames ⟨l.verbatim, gs⟩ { line with text := glyphText gs } after) := by
  obtain ⟨core, hcore, ⟨hsingle, q, hm, hq⟩, hsame, hrun⟩ := exists_core hl hn
  obtain ⟨gap, tagGap, htext, hg⟩ := hc.text
  have hg' : c.Gaps _ _ := gaps_replicate c i j
  rw [htext] at hcore
  obtain ⟨core', hcore', hm', hsame', hturns⟩ := exists_respaced hc.proper hg hg'
    (spaces_replicate_space _) hsingle hcore hm
  have hsingle' : '\n' ∉ glyphText core' := by
    intro h
    rw [hcore'] at h
    rcases mem_join gap tagGap h with h | h | h
    · exact hsingle (hcore ▸ h)
    · cases List.eq_of_mem_replicate h
    · cases List.eq_of_mem_replicate h
  refine ⟨(List.replicate n '\t').map (·, .code) ++ core', ?_,
    LineMarked.indent ⟨hsingle', q, hm', hq⟩ (spaces_replicate_tab n), ?_, fun hloose ↦ ?_⟩
  · rw [glyphText_append, glyphText_map_pair, hcore']
  · exact (hsame.trans hsame').trans (respaced_indent (spaces_replicate_tab n) core')
  · rw [glyphText_append, glyphText_map_pair, hcore',
      trim_indent n (tight_join hc.proper)] at hloose
    have hobeys (hv : l.verbatim = false) : Obeys (c.join gap tagGap) (enclosingOpener frames)
        after.closedFirst := by
      have h := hn.obeys hv
      rwa [MarkedLine.text_eq, ← hn.line_text, htext] at h
    have hv : l.verbatim = false := hn.line_verbatim ▸ hc.verbatim
    refine hn.rewrite ?_ fun hv ↦ ?_
    · rw [turns_indent (spaces_replicate_tab n)]
      refine hturns ?_ ?_ frames after hrun (length_frames_of_balanced hn hc.balanced)
      · rw [hcore]
        exact elseIf_of_isLooseElse (hobeys hv).tight
      · rw [hcore']
        exact elseIf_of_isLooseElse hloose
    · rw [glyphText_append, glyphText_map_pair, hcore', trim_indent n (tight_join hc.proper)]
      exact (hobeys hv).regap hc.proper hg hg' hloose

theorem Written.exists_read {line : Line} {x : Option (List Char)} (hw : Written line x)
    {frames : List Frame} {q r : Region} {l : MarkedLine} {after : Nesting}
    (hq : q.nextLine = some q) (hv : l.verbatim = q.spansLines) (hl : LineMarked q l.glyphs r)
    (hn : LineNested frames l line after) :
    ∃ gs, glyphText gs = x.getD [] ∧ LineMarked q gs r ∧ Respaced l.glyphs gs ∧
      ((line.verbatim = false → isLooseElse (trim (glyphText gs)) = false) →
        LineNested frames ⟨l.verbatim, gs⟩ { line with text := glyphText gs } after) := by
  have hcode (h : line.verbatim = false) : q = .code := by
    refine eq_code_of_spansLines hq ?_
    rw [← hv, ← hn.line_verbatim, h]
  have hobeys (h : line.verbatim = false) :
      Obeys (trim line.text) (enclosingOpener frames) after.closedFirst := by
    have ho := hn.obeys (hn.line_verbatim ▸ h)
    rwa [MarkedLine.text_eq, ← hn.line_text] at ho
  cases hw with
  | verbatim h =>
    refine ⟨l.glyphs, hn.line_text.symm, hl, .refl _, fun _ ↦ hn.rewrite hn.run_eq hn.obeys⟩
  | blank h ht =>
    obtain rfl := hcode h
    obtain ⟨core, hcore, hm, hsame, hrun⟩ := exists_core hl hn
    rw [ht] at hcore
    refine ⟨core, hcore, hm, hsame, fun _ ↦ hn.rewrite hrun fun _ ↦ ?_⟩
    rw [hcore, ← ht, trim_trim]
    exact hobeys h
  | indented h ht =>
    obtain rfl := hcode h
    obtain ⟨core, hcore, hm, hsame, hrun⟩ := exists_core hl hn
    refine ⟨(List.replicate (line.indent (trim line.text)) '\t').map (·, .code) ++ core, ?_,
      hm.indent (spaces_replicate_tab _), ?_, fun _ ↦ hn.rewrite ?_ fun _ ↦ ?_⟩
    · rw [glyphText_append, glyphText_map_pair, hcore]
      rfl
    · exact hsame.trans (respaced_indent (spaces_replicate_tab _) core)
    · rwa [turns_indent (spaces_replicate_tab _)]
    · rw [glyphText_append, glyphText_map_pair, hcore, trim_indent _ (tight_trim _)]
      exact hobeys h
  | aligned n i j hc =>
    have hcol := columned_of_cells? hc
    obtain rfl := hcode hcol.verbatim
    obtain ⟨gs, htext, hm, hsame, hread⟩ := exists_aligned hl hn hcol n i j
    exact ⟨gs, htext, hm, hsame, fun h ↦ hread (h hcol.verbatim)⟩

end RpcStubs.Layout
