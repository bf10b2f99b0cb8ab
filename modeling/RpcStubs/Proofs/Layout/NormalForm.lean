import RpcStubs.Proofs.Layout.Brackets
import RpcStubs.Proofs.Layout.Settled

namespace RpcStubs.Layout

open Text

/-- The brackets open behind a word, innermost first: what follows each of them is matched, apart
from those that were opened later. -/
inductive Unclosed : List Char → List Char → Prop
  | matched {word : List Char} : Dyck word → Unclosed word []
  | opens {before inner unclosed : List Char} {b : Char} :
      Unclosed before unclosed → isOpening b = true → Dyck inner →
      Unclosed (before ++ b :: inner) (b :: unclosed)

theorem isBracket_of_closes {o c : Char} (h : closes o c = true) :
    isOpening o = true ∧ isClosing c = true := by
  simp only [closes, Bool.or_eq_true, Bool.and_eq_true, beq_iff_eq] at h
  rcases h with (⟨rfl, rfl⟩ | ⟨rfl, rfl⟩) | ⟨rfl, rfl⟩ <;> decide

theorem not_isClosing_of_isOpening {c : Char} (h : isOpening c = true) : isClosing c = false := by
  simp only [isOpening, Bool.or_eq_true, beq_iff_eq] at h
  rcases h with (rfl | rfl) | rfl <;> decide

theorem Dyck.countP_eq {word : List Char} (h : Dyck word) :
    word.countP isOpening = word.countP isClosing := by
  induction h with
  | nil => rfl
  | wrap hc _ _ ihInner ihRest =>
    obtain ⟨ho, hc'⟩ := isBracket_of_closes hc
    obtain ⟨ho', hc''⟩ := isOpening_of_closes hc
    simp only [List.countP_cons, List.countP_append, ho, hc', ho', hc'', ihInner, ihRest]
    simp only [if_true, Bool.false_eq_true, if_false]
    omega

/-- There are as many open brackets as have been opened and not closed again. -/
theorem Unclosed.length_add {word unclosed : List Char} (h : Unclosed word unclosed) :
    unclosed.length + word.countP isClosing = word.countP isOpening := by
  induction h with
  | matched h => rw [h.countP_eq, List.length_nil, Nat.zero_add]
  | opens _ hb hinner ih =>
    simp only [List.countP_append, List.countP_cons, hb, not_isClosing_of_isOpening hb,
      hinner.countP_eq, List.length_cons, ← ih]
    simp only [if_true, Bool.false_eq_true, if_false]
    omega

theorem Unclosed.append {word more unclosed : List Char} (h : Unclosed word unclosed)
    (hm : Dyck more) : Unclosed (word ++ more) unclosed := by
  cases h with
  | matched h => exact .matched (h.append hm)
  | opens h hb hinner =>
    rw [List.append_assoc, List.cons_append]
    exact .opens h hb (hinner.append hm)

theorem Unclosed.turn {word before : List Char} {n n' : Nesting} {g : Glyph}
    (h : Unclosed word (n.frames.map Frame.bracket)) (hn : n.run (turnAt before g) = some n') :
    Unclosed (word ++ bracketsOf [g]) (n'.frames.map Frame.bracket) := by
  rcases turnAt_cases before g with ⟨ht, hb⟩ | ⟨ho, -, ht, hb⟩ | ⟨-, -, hb, first, ht⟩
  · rw [ht] at hn
    cases hn
    rwa [hb, List.append_nil]
  · rw [ht] at hn
    cases hn
    rw [hb]
    exact .opens h ho .nil
  · rw [ht] at hn
    obtain ⟨frames, closedFirst⟩ := n
    cases frames with
    | nil => cases hn
    | cons f rest =>
      by_cases hc : closes f.bracket g.1 = true
      · have hrest : n'.frames = rest := by
          simp only [Nesting.run, Nesting.turn, if_pos hc, Option.bind_some, Option.some_inj] at hn
          rw [← hn]
        generalize hw : (f :: rest).map Frame.bracket = unclosed at h
        cases h with
        | matched _ => cases hw
        | opens h _ hinner =>
          obtain ⟨rfl, rfl⟩ := List.cons.inj hw
          rw [hb, hrest, List.append_assoc, List.cons_append]
          exact h.append (.wrap hc hinner .nil)
      · simp [Nesting.run, Nesting.turn, hc] at hn

theorem Unclosed.turns {word before : List Char} {n n' : Nesting} {gs : List Glyph}
    (h : Unclosed word (n.frames.map Frame.bracket))
    (hn : n.run (Layout.turns before gs) = some n') :
    Unclosed (word ++ bracketsOf gs) (n'.frames.map Frame.bracket) := by
  induction gs generalizing word before n with
  | nil =>
    cases hn
    rwa [show bracketsOf [] = [] from rfl, List.append_nil]
  | cons g gs ih =>
    rw [Layout.turns, Nesting.run_append] at hn
    obtain ⟨n₁, h₁, h₂⟩ := Option.bind_eq_some_iff.1 hn
    rw [← List.singleton_append, bracketsOf_append, ← List.append_assoc]
    exact ih (h.turn h₁) h₂

theorem bracketsOf_visible (gs : List Glyph) : bracketsOf (visible gs) = bracketsOf gs := by
  have hblank {c : Char} (h : isBlank c = true) : (isOpening c || isClosing c) = false := by
    obtain ⟨ho, hc⟩ := unbracketed_of_blanks (s := [c]) (by simpa [Blanks] using h) c
      List.mem_cons_self
    rw [ho, hc]
    rfl
  unfold bracketsOf visible
  rw [List.filter_filter]
  congr 1
  refine List.filter_congr fun g _ ↦ ?_
  cases hb : isBlank g.1 with
  | false => simp
  | true => simp [hblank hb]

theorem Respaced.bracketsOf_eq {gs gs' : List Glyph} (h : Respaced gs gs') :
    bracketsOf gs' = bracketsOf gs := by
  rw [← bracketsOf_visible gs', h.visible_eq, bracketsOf_visible]

/-- A written line behind the brackets `word`, with the line it was written for. -/
structure Seated (word : List Char) (l : MarkedLine) (p : Placed) : Prop where
  verbatim : l.verbatim = p.line.verbatim
  text : l.text = p.text
  unclosed : ∃ unclosed, Unclosed word unclosed ∧ p.line.depth = unclosed.length
  inner : p.line.verbatim = false → outdents (trim p.line.text) = true → 0 < p.line.depth
  clause : p.line.verbatim = false →
    startsCase (trim p.line.text) = true ∨ startsDefault (trim p.line.text) = true →
      p.line.enclosing = some .switch

inductive LinesSeated : List Char → List MarkedLine → List Placed → Prop
  | nil (word : List Char) : LinesSeated word [] []
  | cons {word : List Char} {l : MarkedLine} {ls : List MarkedLine} {p : Placed}
      {ps : List Placed} : Seated word l p → LinesSeated (word ++ bracketsOf l.glyphs) ls ps →
      LinesSeated word (l :: ls) (p :: ps)

/-- The bracket at the start of a line of code closes one that was open. -/
theorem frames_ne_nil_of_isClosing {frames : List Frame} {after : Nesting} {r : Region}
    {core : List Glyph} (hm : LineMarked .code core r)
    (hrun : Nesting.run ⟨frames, none⟩ (turns [] core) = some after)
    (hc : (glyphText core).head?.any isClosing = true) : frames ≠ [] := by
  rintro rfl
  obtain ⟨-, q, hm, -⟩ := hm
  cases hm with
  | nil => cases hc
  | @cons _ m _ c r' rest hread _ =>
    have hclosing : isClosing c = true := hc
    have hopening : isOpening c = false := by
      by_contra ho
      rw [not_isClosing_of_isOpening (by simpa using ho)] at hclosing
      cases hclosing
    have hplain : isPlain c = true := by
      have h := isBracket_cases (.inr hclosing)
      revert h
      rintro (rfl | rfl | rfl | rfl | rfl | rfl) <;> decide
    obtain ⟨rfl, -⟩ : Region.code = r' ∧ Mode.inside .code = m := by
      simpa [Mode.read, readCode_of_isPlain hplain] using hread
    simp [turns, turnAt, hopening, hclosing, Nesting.run, Nesting.turn] at hrun

theorem LineNested.frames_ne_nil {frames : List Frame} {l : MarkedLine} {line : Line}
    {after : Nesting} {r : Region} (hl : LineMarked .code l.glyphs r)
    (hn : LineNested frames l line after) (hv : l.verbatim = false)
    (ho : outdents (trim line.text) = true) : frames ≠ [] := by
  have hclause : startsCase (trim line.text) = true ∨ startsDefault (trim line.text) = true →
      frames ≠ [] := by
    rw [hn.line_text, ← MarkedLine.text_eq]
    rintro h rfl
    cases (hn.obeys hv).clause h
  simp only [outdents, Bool.or_eq_true] at ho
  rcases ho with (h | h) | h
  · obtain ⟨core, hcore, hm, -, hrun⟩ := exists_core hl hn
    exact frames_ne_nil_of_isClosing hm hrun (hcore ▸ h)
  · exact hclause (.inl h)
  · exact hclause (.inr h)

theorem LineNested.seated {word : List Char} {frames : List Frame} {l : MarkedLine}
    {after : Nesting} {r q : Region} {p : Placed} {gs : List Glyph}
    (hword : Unclosed word (frames.map Frame.bracket)) (hq : q.nextLine = some q)
    (hv : l.verbatim = q.spansLines) (hl : LineMarked q l.glyphs r)
    (hn : LineNested frames l p.line after) (htext : glyphText gs = p.text) :
    Seated word ⟨l.verbatim, gs⟩ p where
  verbatim := hn.line_verbatim.symm
  text := htext
  unclosed := ⟨_, hword, by rw [hn.line_eq, lineOf, List.length_map]⟩
  inner hp ho := by
    have hlv : l.verbatim = false := hn.line_verbatim ▸ hp
    obtain rfl := eq_code_of_spansLines hq (hv ▸ hlv)
    rw [hn.line_eq, lineOf]
    exact List.length_pos_iff.2 (hn.frames_ne_nil hl hlv ho)
  clause hp hc := by
    have h := (hn.obeys (hn.line_verbatim ▸ hp)).clause
    rw [MarkedLine.text_eq, ← hn.line_text] at h
    rw [hn.line_eq]
    exact h hc

/-- The lines that are kept have their places in the result. -/
theorem Reads.exists_seated {st st' : Start} {ls : List MarkedLine} {lines : List Line}
    (h : Reads st ls lines st') (hst : st.region.nextLine = some st.region)
    {texts : List (Option (List Char))} {ps : List Placed} (hp : Placement lines texts ps)
    (previous : Option (List Char)) {word : List Char}
    (hword : Unclosed word (st.frames.map Frame.bracket)) :
    ∃ ls', (st'.region = .code → LinesMarked st.region ls') ∧
      LinesSeated word ls' (keep previous ps) := by
  obtain ⟨hlines, -, hw⟩ := hp
  induction h generalizing ps previous word with
  | nil =>
    obtain rfl := List.map_eq_nil_iff.1 hlines
    exact ⟨[], fun hc ↦ by rw [hc]; exact .nil, .nil word⟩
  | @cons st st' r l ls line lines after hv hl hn _ ih =>
    obtain ⟨p, ps, rfl, rfl, hps⟩ := List.map_eq_cons_iff.1 hlines
    have ih' (previous : Option (List Char)) {word : List Char}
        (hword : Unclosed word (after.frames.map Frame.bracket)) :=
      ih hl.nextLine previous hword hps fun p' hp' ↦ hw p' (List.mem_cons_of_mem p hp')
    have hpw : Written p.line p.text? := hw p List.mem_cons_self
    obtain ⟨gs, htext, hm, hsame, -⟩ := hpw.exists_read hst hv hl hn
    have hafter : Unclosed (word ++ bracketsOf gs) (after.frames.map Frame.bracket) := by
      rw [hsame.bracketsOf_eq]
      exact hword.turns hn.run_eq
    have hseat : Seated word ⟨l.verbatim, gs⟩ p := hn.seated hword hst hv hl htext
    have hkept (previous : Option (List Char)) : ∃ ls',
        (st'.region = .code → LinesMarked st.region ls') ∧
          LinesSeated word ls' (p :: keep previous ps) := by
      obtain ⟨ls', hmarked, h'⟩ := ih' previous hafter
      exact ⟨⟨l.verbatim, gs⟩ :: ls', fun hc ↦ .cons hv hm (hmarked hc), .cons hseat h'⟩
    rw [keep]
    split
    · exact hkept _
    · next hx =>
      split_ifs
      · exact hkept _
      · rw [hx] at hpw
        obtain ⟨rfl, hframes, -⟩ := hpw.dropped hst hv hl hn
        exact ih' previous (hframes ▸ hword)

theorem LinesSeated.exists_of_append {word : List Char} {above below : List MarkedLine}
    {l : MarkedLine} {ps : List Placed} (h : LinesSeated word (above ++ l :: below) ps) :
    ∃ psAbove p psBelow, ps = psAbove ++ p :: psBelow ∧
      above.map MarkedLine.text = psAbove.map Placed.text ∧
      Seated (word ++ bracketsOf (above.flatMap MarkedLine.glyphs)) l p ∧
      ∃ word', LinesSeated word' below psBelow := by
  induction above generalizing word ps with
  | nil =>
    cases h with
    | @cons _ _ _ p ps hseat hrest =>
      refine ⟨[], p, ps, rfl, rfl, ?_, _, hrest⟩
      rw [List.flatMap_nil, show bracketsOf [] = [] from rfl, List.append_nil]
      exact hseat
  | cons l₁ above ih =>
    cases h with
    | @cons _ _ _ p₁ ps hseat hrest =>
      obtain ⟨psAbove, p, psBelow, rfl, htexts, hl, hbelow⟩ := ih hrest
      refine ⟨p₁ :: psAbove, p, psBelow, rfl, ?_, ?_, hbelow⟩
      · rw [List.map_cons, List.map_cons, hseat.text, htexts]
      · rwa [List.flatMap_cons, bracketsOf_append, ← List.append_assoc]

theorem LinesSeated.texts_eq {word : List Char} {ls : List MarkedLine} {ps : List Placed}
    (h : LinesSeated word ls ps) : ls.map MarkedLine.text = ps.map Placed.text := by
  induction h with
  | nil => rfl
  | cons hseat _ ih => rw [List.map_cons, List.map_cons, hseat.text, ih]

/-- A line is as deep as the brackets before it: there is a tab for each that is open, one less
before a closing bracket or a clause, and then text without blanks around it. -/
def Indented (word text : List Char) : Prop :=
  ∃ unclosed core, Unclosed word unclosed ∧ core ≠ [] ∧ Tight core ∧
    (outdents core = true → unclosed ≠ []) ∧
    text = List.replicate (if outdents core then unclosed.length - 1 else unclosed.length) '\t' ++
      core

theorem exists_alignSlot_of_mem_place {lines : List Line} {p : Placed} (h : p ∈ place lines) :
    ∃ before after, p.text? = (alignSlot before after p.line.slot).or p.line.indented := by
  suffices hfrom : ∀ before, p ∈ List.zipWith Placed.mk lines (arrangeFrom before lines) →
      ∃ before after, p.text? = (alignSlot before after p.line.slot).or p.line.indented from
    hfrom [] h
  clear h
  induction lines with
  | nil => simp
  | cons l lines ih =>
    intro before
    rw [arrangeFrom_cons, List.zipWith_cons_cons, List.mem_cons]
    rintro (rfl | hp)
    · exact ⟨_, _, rfl⟩
    · exact ih _ hp

theorem opener_of_cells? {l : Line} {c : Cells} (h : l.cells? = some c) :
    l.enclosing = some .struct ∨ l.enclosing = some .literal := by
  unfold Line.cells? at h
  split_ifs at h
  split at h
  · next he => exact .inl he
  · next he => exact .inr he
  · cases h

/-- A line with columns closes nothing and starts no clause. -/
theorem not_outdents_join {l : Line} {c : Cells} (hc : l.cells? = some c)
    (hclause : startsCase (trim l.text) = true ∨ startsDefault (trim l.text) = true →
      l.enclosing = some .switch) (i j : Nat) :
    outdents (c.join (List.replicate (i + 1) ' ') (List.replicate (j + 1) ' ')) = false := by
  have hcol := columned_of_cells? hc
  obtain ⟨gap, tagGap, htext, hg⟩ := hcol.text
  have hno : ¬(startsCase (trim l.text) = true ∨ startsDefault (trim l.text) = true) := by
    intro h
    rcases opener_of_cells? hc with he | he <;>
    · rw [hclause h] at he
      cases he
  simp only [not_or, Bool.not_eq_true, htext] at hno
  have hcase := isPrefixOf_join_congr hcol.proper (gaps_replicate c i j) hg
    (by decide : Name.isWordChar ' ' = false)
    (by decide : ' ' ∉ "case".toList ∧ ':' ∉ "case".toList)
  have hdefault := isPrefixOf_join_congr hcol.proper (gaps_replicate c i j) hg
    (by decide : Name.isWordChar ':' = false)
    (by decide : ' ' ∉ "default".toList ∧ ':' ∉ "default".toList)
  obtain ⟨d, hd, hds⟩ := exists_head?_join hcol.proper (List.replicate (i + 1) ' ')
    (List.replicate (j + 1) ' ')
  have hclosing : isClosing d = false :=
    (unbracketed_of_isWord (s := [d]) (by simpa [isWord] using hds) d List.mem_cons_self).2
  rw [outdents, hd, Option.any_some, hclosing, Bool.false_or, startsCase, startsDefault]
  exact Bool.or_eq_false_iff.2 ⟨hcase.trans hno.1, hdefault.trans hno.2⟩

/-- The text of a line of code that is not blank. -/
theorem Seated.indented {lines : List Line} {word : List Char} {l : MarkedLine} {p : Placed}
    (h : Seated word l p) (hp : p ∈ place lines) (hv : l.verbatim = false)
    (ht : p.text? ≠ none) : Indented word l.text := by
  have hpv : p.line.verbatim = false := h.verbatim ▸ hv
  obtain ⟨unclosed, hu, hdepth⟩ := h.unclosed
  obtain ⟨before, after, htext⟩ := exists_alignSlot_of_mem_place hp
  rw [h.text, Placed.text]
  have hindented (hx : p.text? = p.line.indented) : Indented word (p.text?.getD []) := by
    have hne : trim p.line.text ≠ [] := by
      intro hnil
      rw [hx] at ht
      exact ht (by simp [Line.indented, hpv, hnil])
    refine ⟨unclosed, trim p.line.text, hu, hne, tight_trim _, fun ho ↦ ?_, ?_⟩
    · rw [← List.length_pos_iff, ← hdepth]
      exact h.inner hpv ho
    · rw [hx, Line.indented, ← hdepth]
      simp [hpv, hne, Line.indent]
  cases hs : p.line.slot with
  | comment => exact hindented (by rw [htext, hs]; rfl)
  | other => exact hindented (by rw [htext, hs]; rfl)
  | cells d c =>
    obtain ⟨rfl, hc⟩ := cells?_eq_of_slot_eq hs
    have hp := (columned_of_cells? hc).proper
    rw [hs, alignSlot] at htext
    split_ifs at htext with hrun
    · exact hindented htext
    · obtain ⟨i, j, he⟩ := exists_alignCells_eq_join (runFrom p.line.depth before)
        (runFrom p.line.depth after) c
      have ho := not_outdents_join hc (h.clause hpv) i j
      refine ⟨unclosed, c.join (List.replicate (i + 1) ' ') (List.replicate (j + 1) ' '), hu,
        join_ne_nil hp _ _, tight_join hp, fun h ↦ ?_, ?_⟩
      · rw [ho] at h
        cases h
      · rw [htext, he, ho, ← hdepth]
        rfl

theorem exists_of_keepsBlank {previous : Option (List Char)} {rest : List (Option (List Char))}
    (h : keepsBlank previous rest = true) :
    (∃ text, previous = some text ∧ text ≠ [] ∧ endsOpen text = false) ∧
      ∃ text, nextText rest = some text ∧ startsClosed text = false := by
  unfold keepsBlank at h
  split at h
  · next _ text text' hnext =>
    simp only [Bool.and_eq_true, Bool.not_eq_true', List.isEmpty_eq_false_iff] at h
    exact ⟨⟨text, rfl, h.1.1, h.1.2⟩, text', hnext, h.2⟩
  · cases h

/-- No blank line is kept behind an empty one. -/
theorem text?_ne_none_of_keep_empty {ps rest : List Placed} {p : Placed}
    (h : keep (some []) ps = p :: rest) : p.text? ≠ none := by
  induction ps with
  | nil => cases h
  | cons p' ps ih =>
    have hno : keepsBlank (some []) (ps.map Placed.text?) = false := by
      unfold keepsBlank
      cases nextText (ps.map Placed.text?) <;> rfl
    rw [keep, hno] at h
    split at h
    · next text hx =>
      obtain ⟨rfl, -⟩ := List.cons.inj h
      rw [hx]
      exact Option.some_ne_none text
    · exact ih h

/-- A blank line that is kept has its neighbours among the kept lines. -/
theorem exists_neighbours_of_keep {previous : Option (List Char)} {ps above below : List Placed}
    {p : Placed} (h : keep previous ps = above ++ p :: below) (hp : p.text? = none) :
    (∃ text, (above.map Placed.text).getLast?.or previous = some text ∧ text ≠ [] ∧
      endsOpen text = false) ∧
    ∃ n below', below = n :: below' ∧ n.text? ≠ none ∧ startsClosed n.text = false := by
  -- only a kept line becomes the previous one
  have hlast (q : Placed) (above : List Placed) (previous : Option (List Char)) :
      ((q :: above).map Placed.text).getLast?.or previous =
        (above.map Placed.text).getLast?.or (some q.text) := by
    rw [List.map_cons, List.getLast?_cons]
    cases (above.map Placed.text).getLast? <;> rfl
  induction ps generalizing previous above with
  | nil => simp [keep] at h
  | cons q ps ih =>
    rw [keep] at h
    split at h
    · next text hx =>
      cases above with
      | nil =>
        obtain ⟨rfl, -⟩ := List.cons.inj h
        rw [hp] at hx
        cases hx
      | cons q' above =>
        obtain ⟨rfl, hrest⟩ := List.cons.inj h
        rw [hlast, Placed.text, hx]
        exact ih hrest
    · next hx =>
      split_ifs at h with hk
      · cases above with
        | nil =>
          obtain ⟨rfl, hbelow⟩ := List.cons.inj h
          obtain ⟨hprevious, text, hnext, hclosed⟩ := exists_of_keepsBlank hk
          refine ⟨hprevious, ?_⟩
          rw [← nextText_keep (some []), hbelow] at hnext
          cases below with
          | nil => cases hnext
          | cons n below =>
            have hn := text?_ne_none_of_keep_empty hbelow
            obtain ⟨text', htext'⟩ := Option.ne_none_iff_exists'.1 hn
            simp only [nextText, List.map_cons, htext', List.findSome?_cons, id_eq,
              Option.some_inj] at hnext
            exact ⟨n, below, rfl, hn, by rwa [Placed.text, htext', Option.getD_some, hnext]⟩
        | cons q' above =>
          obtain ⟨rfl, hrest⟩ := List.cons.inj h
          rw [hlast, Placed.text, hx]
          exact ih hrest
      · exact ih h

/-- An empty line between the lines above and below it. -/
structure Separating (above below : List MarkedLine) : Prop where
  above : ∃ l, above.getLast? = some l ∧ l.text ≠ [] ∧ endsOpen l.text = false
  below : ∃ l, below.head? = some l ∧ l.text ≠ [] ∧ startsClosed l.text = false

/-- Every line that starts in code is empty between two lines with text, or has the text that its
brackets ask for. -/
def NormalForm (ls : List MarkedLine) : Prop :=
  ∀ above l below, ls = above ++ l :: below → l.verbatim = false →
    l.text = [] ∧ Separating above below ∨
      Indented (bracketsOf (above.flatMap MarkedLine.glyphs)) l.text

theorem Indented.ne_nil {word text : List Char} (h : Indented word text) : text ≠ [] := by
  obtain ⟨unclosed, core, -, hcore, -, -, rfl⟩ := h
  exact List.append_ne_nil_of_right_ne_nil _ hcore

theorem LinesMarked.of_append {r : Region} {above ls : List MarkedLine}
    (h : LinesMarked r (above ++ ls)) (hr : r.nextLine = some r) :
    ∃ q, q.nextLine = some q ∧ LinesMarked q ls := by
  induction above generalizing r with
  | nil => exact ⟨r, hr, h⟩
  | cons l above ih =>
    cases h with
    | cons _ hl hrest => exact ih hrest hl.nextLine

/-- A line without characters leads to where it starts. -/
theorem LinesMarked.of_empty {q : Region} {l : MarkedLine} {below : List MarkedLine}
    (h : LinesMarked q (l :: below)) (hq : q.nextLine = some q) (ht : l.text = []) :
    l.verbatim = q.spansLines ∧ LinesMarked q below := by
  cases h with
  | cons hv hl hrest =>
    rw [MarkedLine.text_eq, glyphText_eq_nil] at ht
    rw [ht] at hl
    obtain rfl := hl.eq_of_nil hq
    exact ⟨hv, hrest⟩

theorem normalForm_of_seated {lines : List Line} {ls : List MarkedLine}
    (hm : LinesMarked .code ls) (h : LinesSeated [] ls (keep none (place lines))) :
    NormalForm ls := by
  rintro above l below rfl hv
  obtain ⟨psAbove, p, psBelow, hkeep, habove, hseat, word, hbelow⟩ := h.exists_of_append
  have hmem {p' : Placed} (hp' : p' ∈ psAbove ++ p :: psBelow) : p' ∈ place lines :=
    keep_subset none _ p' (hkeep ▸ hp')
  by_cases hp : p.text? = none
  · left
    have ht : l.text = [] := by rw [hseat.text, Placed.text, hp, Option.getD_none]
    obtain ⟨⟨text, hprevious, hne, hopen⟩, n, psBelow, rfl, hn, hclosed⟩ :=
      exists_neighbours_of_keep hkeep hp
    rw [Option.or_none, ← habove, List.getLast?_map, Option.map_eq_some_iff] at hprevious
    obtain ⟨l', hl', rfl⟩ := hprevious
    obtain ⟨q, hq, hm'⟩ := hm.of_append rfl
    obtain ⟨hlv, hm'⟩ := hm'.of_empty hq ht
    cases hbelow with
    | @cons _ m below _ _ hnseat _ =>
      -- the region does not change on an empty line, so the next one is code as well
      have hmv : m.verbatim = false := by
        cases hm' with
        | cons hmv _ _ => rw [hmv, ← hlv, hv]
      refine ⟨ht, ⟨l', hl', hne, hopen⟩, m, rfl, ?_, hnseat.text ▸ hclosed⟩
      exact (hnseat.indented (hmem (by simp)) hmv hn).ne_nil
  · right
    exact hseat.indented (hmem (by simp)) hv hp

/-- The last line of a laid out text is not empty. -/
theorem NormalForm.last_ne_nil {above : List MarkedLine} {l : MarkedLine}
    (h : NormalForm (above ++ [l])) (hm : LinesMarked .code (above ++ [l])) : l.text ≠ [] := by
  intro ht
  obtain ⟨q, hq, hm'⟩ := hm.of_append rfl
  obtain ⟨hv, hend⟩ := hm'.of_empty hq ht
  cases hend
  rcases h above l [] rfl hv with ⟨-, -, l', hl', -⟩ | hi
  · cases hl'
  · exact hi.ne_nil ht

theorem visible_eq_nil_iff {gs : List Glyph} : visible gs = [] ↔ Blanks (glyphText gs) := by
  constructor
  · intro h c hc
    obtain ⟨g, hg, rfl⟩ := List.mem_map.1 hc
    simpa using List.filter_eq_nil_iff.1 h g hg
  · exact visible_of_blanks

theorem Indented.not_blanks {word text : List Char} (h : Indented word text) : ¬Blanks text := by
  obtain ⟨unclosed, core, -, hne, htight, -, rfl⟩ := h
  intro hb
  obtain ⟨c, core, rfl⟩ := List.exists_cons_of_ne_nil hne
  have hc : isBlank c = true := hb c (by simp)
  rw [htight.head c rfl] at hc
  cases hc

/-- There is nothing before the first line. -/
theorem NormalForm.first_indented {l : MarkedLine} {below : List MarkedLine}
    (h : NormalForm (l :: below)) (hm : LinesMarked .code (l :: below)) : Indented [] l.text := by
  have hv : l.verbatim = false := by
    cases hm with
    | cons hv _ _ => exact hv
  rcases h [] l below rfl hv with ⟨-, ⟨l', hl', -⟩, -⟩ | hi
  · cases hl'
  · exact hi

theorem NormalForm.not_blanks {l : MarkedLine} {below : List MarkedLine}
    (h : NormalForm (l :: below)) (hm : LinesMarked .code (l :: below)) : ¬Blanks l.text :=
  (h.first_indented hm).not_blanks

theorem exists_normalForm {s : List Char} {lines : List Line} (h : nest s = .ok lines) :
    ∃ ls, LinesMarked .code ls ∧ NormalForm ls ∧
      ls.map MarkedLine.text = tidy none (arrange lines) := by
  obtain ⟨gs, -, hreads⟩ := nest_eq_ok_iff.1 h
  obtain ⟨ls, hmarked, hseated⟩ := hreads.exists_seated rfl (placement_place lines) none
    (.matched .nil)
  refine ⟨ls, hmarked rfl, normalForm_of_seated (hmarked rfl) hseated, ?_⟩
  rw [tidy_arrange, hseated.texts_eq]

theorem format_cases {s t : String} (h : format s = .ok t) :
    t = "\n" ∨ ∃ ls, ls ≠ [] ∧ LinesMarked .code ls ∧ NormalForm ls ∧
      t.toList = joinLines (ls.map MarkedLine.text) := by
  obtain ⟨lines, hnest, hlay⟩ := formatChars_eq_ok_iff.1 (format_eq_ok_iff.1 h)
  obtain ⟨ls, hm, hform, htexts⟩ := exists_normalForm hnest
  rw [layOut_eq, ← htexts] at hlay
  cases ls with
  | nil => exact .inl (String.toList_injective hlay.symm)
  | cons l ls => exact .inr ⟨l :: ls, List.cons_ne_nil l ls, hm, hform, hlay.symm⟩

/-- What a laid out text looks like. -/
theorem normalForm_format {s t : String} (h : format s = .ok t) :
    (Blanks s.toList → t = "\n") ∧
      (¬Blanks s.toList →
        (∃ gt, mark t.toList = .ok gt ∧ NormalForm (cutLines false [] gt)) ∧
        ∃ text c, c ≠ '\n' ∧ t.toList = text ++ [c, '\n']) := by
  obtain ⟨lines, hnest, hlay⟩ := formatChars_eq_ok_iff.1 (format_eq_ok_iff.1 h)
  obtain ⟨gs, gt, hgs, hgt, hcontent⟩ := content_layOut hnest
  rw [hlay] at hgt
  have hblanks : Blanks s.toList ↔ visible gt = [] := by
    rw [← flatten_content gt, hcontent, flatten_content, visible_eq_nil_iff,
      (mark_eq_ok_iff.1 hgs).1]
  rcases format_cases h with rfl | ⟨ls, hne, hm, hform, htext⟩
  · have ht : gt = [('\n', .code)] := by
      have hmark : mark "\n".toList = .ok [('\n', .code)] := rfl
      rw [hmark] at hgt
      exact (Except.ok.inj hgt).symm
    exact ⟨fun _ ↦ rfl, fun hn ↦ absurd (hblanks.2 (by rw [ht]; decide)) hn⟩
  · obtain ⟨gt', hmark, hcut⟩ := exists_mark_joinLines hm
    rw [← htext, hgt] at hmark
    cases hmark
    refine ⟨fun hb ↦ ?_, fun _ ↦ ⟨⟨gt, hgt, hcut ▸ hform⟩, ?_⟩⟩
    · obtain ⟨l, below, rfl⟩ := List.exists_cons_of_ne_nil hne
      have ht : Blanks t.toList := by
        rw [← (mark_eq_ok_iff.1 hgt).1, ← visible_eq_nil_iff]
        exact hblanks.1 hb
      exact absurd (fun c hc ↦ ht c (by simp [htext, hc])) (hform.not_blanks hm)
    · obtain ⟨above, l, rfl⟩ := (List.eq_nil_or_concat' ls).resolve_left hne
      obtain ⟨text, c, hl⟩ :=
        (List.eq_nil_or_concat' l.text).resolve_left (hform.last_ne_nil hm)
      refine ⟨joinLines (above.map MarkedLine.text) ++ text, c, ?_, ?_⟩
      · rintro rfl
        exact hm.single l.text (by simp) (by simp [hl])
      · simp [htext, joinLines_append, hl]

theorem normalForm_format_call :
    format "if x \x7b\n\n a(`\n y`)\n\n\n  b()\n\x7d\n" =
      .ok "if x \x7b\n\ta(`\n y`)\n\n\tb()\n\x7d\n" ∧
      (∃ gt, mark "if x \x7b\n\ta(`\n y`)\n\n\tb()\n\x7d\n".toList = .ok gt ∧
        NormalForm (cutLines false [] gt)) ∧
      ∃ text c, c ≠ '\n' ∧
      "if x \x7b\n\ta(`\n y`)\n\n\tb()\n\x7d\n".toList = text ++ [c, '\n'] := by
  have h : format "if x \x7b\n\n a(`\n y`)\n\n\n  b()\n\x7d\n" =
      .ok "if x \x7b\n\ta(`\n y`)\n\n\tb()\n\x7d\n" :=
    format_ofList (by decide +kernel)
  refine ⟨h, (normalForm_format h).2 fun hb ↦ ?_⟩
  have hi : isBlank 'i' = true := hb 'i' (by decide +kernel)
  revert hi
  decide

end RpcStubs.Layout
