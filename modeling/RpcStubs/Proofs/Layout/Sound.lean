import RpcStubs.Proofs.Layout.Grammar
import RpcStubs.Proofs.Layout.Settled

namespace RpcStubs.Layout

open Text

/-- A line between the brackets open before and after it. -/
structure SoundLine (frames : List Frame) (text : List Char) (frames' : List Frame) : Prop where
  read : ∃ gs after, glyphText gs = text ∧ LineMarked .code gs .code ∧
    LineNested frames ⟨false, gs⟩ (lineOf false frames text after) after ∧ after.frames = frames'
  calm : enclosingOpener frames = some .struct → "else ".toList.isPrefixOf (trim text) = false

inductive Sound : List Frame → List (List Char) → List Frame → Prop
  | nil (frames : List Frame) : Sound frames [] frames
  | cons {frames frames' frames'' : List Frame} {t : List Char} {ts : List (List Char)} :
      SoundLine frames t frames' → Sound frames' ts frames'' → Sound frames (t :: ts) frames''

theorem Sound.append {frames frames' frames'' : List Frame} {a b : List (List Char)}
    (ha : Sound frames a frames') (hb : Sound frames' b frames'') :
    Sound frames (a ++ b) frames'' := by
  induction ha with
  | nil => exact hb
  | cons hl _ ih => exact .cons hl (ih hb)

/-- A line as it is read, of which alignment makes no `else`. -/
structure CalmLine (l : Line) : Prop where
  verbatim : l.verbatim = false
  calm : l.enclosing = some .struct → "else ".toList.isPrefixOf (trim l.text) = false

theorem Sound.exists_reads {frames frames' : List Frame} {ts : List (List Char)}
    (h : Sound frames ts frames') :
    ∃ ls lines, ls.map MarkedLine.text = ts ∧ Reads ⟨.code, frames⟩ ls lines ⟨.code, frames'⟩ ∧
      lines.map Line.text = ts ∧ ∀ l ∈ lines, CalmLine l := by
  induction h with
  | nil frames => exact ⟨[], [], rfl, .nil _, rfl, by simp⟩
  | @cons frames frames' frames'' t ts hl _ ih =>
    obtain ⟨ls, lines, htext, hreads, hlines, hcalm⟩ := ih
    obtain ⟨⟨gs, after, rfl, hm, hn, rfl⟩, hc⟩ := hl
    refine ⟨⟨false, gs⟩ :: ls, _ :: lines, ?_, .cons rfl hm hn hreads, ?_, ?_⟩
    · rw [List.map_cons, htext]
      rfl
    · rw [List.map_cons, hlines]
      rfl
    · intro l hl
      rcases List.mem_cons.1 hl with rfl | hl
      · exact ⟨rfl, hc⟩
      · exact hcalm l hl

theorem Reads.sound {st st' : Start} {ls : List MarkedLine} {lines : List Line}
    (h : Reads st ls lines st') (hst : st.region = .code) (hst' : st'.region = .code)
    (hcalm : ∀ l ∈ lines, CalmLine l) :
    Sound st.frames (ls.map MarkedLine.text) st'.frames := by
  induction h with
  | nil => exact .nil _
  | @cons st st' r l ls line lines after hv hm hn hrest ih =>
    have hline := hcalm line List.mem_cons_self
    -- the next line does not start inside anything either
    have hr : r = .code := by
      cases hrest with
      | nil => exact hst'
      | @cons _ _ _ l' _ line' _ _ hv' _ hn' _ =>
        refine eq_code_of_spansLines hm.nextLine ?_
        have hline' := (hcalm line' (by simp)).verbatim
        rwa [hn'.line_verbatim, hv'] at hline'
    subst hr
    have hverb : l.verbatim = false := by
      rw [← hn.line_verbatim]
      exact hline.verbatim
    obtain ⟨v, gs⟩ := l
    obtain rfl : v = false := hverb
    rw [hst] at hm
    refine .cons (⟨⟨gs, after, rfl, hm, ?_, rfl⟩, ?_⟩ : SoundLine _ _ after.frames) (ih rfl hst' ?_)
    · have hn' := hn
      rwa [hn.line_eq] at hn'
    · have h := hline.calm
      rw [hn.line_eq] at h
      exact h
    · exact fun l' hl' ↦ hcalm l' (List.mem_cons_of_mem line hl')

/-- If a line with columns starts with `else`, it does so whatever its gaps are. -/
theorem isPrefixOf_else_join {c : Cells} (hp : c.Proper) {gap tagGap gap' tagGap' : List Char}
    (hg : c.Gaps gap tagGap) (hg' : c.Gaps gap' tagGap') {tail : List Char}
    (h : ("else".toList ++ ' ' :: tail).isPrefixOf (c.join gap' tagGap') = true) :
    (∃ name type tag, c = .field name type tag) ∧
      "else ".toList.isPrefixOf (c.join gap tagGap) = true := by
  cases c with
  | field name type tag =>
    refine ⟨⟨name, type, tag, rfl⟩, ?_⟩
    have hword : ' ' ∉ name := not_mem_of_isWord hp.1 (by decide)
    have hjoin {gap tagGap : List Char} (hg : (Cells.field name type tag).Gaps gap tagGap) :
        ∃ rest, (Cells.field name type tag).join gap tagGap = name ++ ' ' :: rest := by
      obtain ⟨r, rfl⟩ := exists_cons_of_head? (hg.lead _ _ _ rfl)
      cases tag <;> exact ⟨_, rfl⟩
    obtain ⟨rest', hr'⟩ := hjoin hg'
    obtain ⟨rest, hr⟩ := hjoin hg
    rw [hr'] at h
    obtain ⟨rfl, -⟩ := isPrefixOf_word hword (by decide) h
    rw [hr, List.isPrefixOf_iff_prefix]
    exact ⟨rest, rfl⟩
  | keyed key value =>
    have hword : ' ' ∉ key := not_mem_of_isWord hp.1 (by decide)
    have hne : ("else".toList ++ ' ' :: tail).isPrefixOf (key ++ ':' :: (gap' ++ value)) = false :=
      not_isPrefixOf_word hword (by decide) (.inr (by decide))
    rw [Cells.join, hne] at h
    cases h

theorem join_ne_else {c : Cells} (hp : c.Proper) {gap tagGap : List Char}
    (hg : c.Gaps gap tagGap) : c.join gap tagGap ≠ "else".toList := by
  obtain ⟨name, d, -, hd, hjoin⟩ := exists_join_eq hp
  obtain ⟨rest, hr⟩ := hjoin gap tagGap hg
  intro h
  have hmem : d ∈ "else".toList := by
    rw [← h, hr]
    simp
  rcases hd with rfl | rfl <;> exact absurd hmem (by decide)

/-- A calm line stays calm, and no `else` comes about. -/
theorem Written.calm {l : Line} {x : Option (List Char)} (h : Written l x) (hc : CalmLine l)
    (ht : isLooseElse (trim l.text) = false) :
    isLooseElse (trim (x.getD [])) = false ∧ CalmLine { l with text := x.getD [] } := by
  have hkeep {text : List Char} (he : trim text = trim l.text) :
      isLooseElse (trim text) = false ∧ CalmLine { l with text := text } := by
    rw [he]
    exact ⟨ht, hc.verbatim, fun hs ↦ by rw [he]; exact hc.calm hs⟩
  cases h with
  | verbatim h => exact hkeep rfl
  | blank h hb => exact hkeep hb.symm
  | indented h hb => exact hkeep (trim_indent _ (tight_trim _))
  | @aligned n i j c hcells =>
    have hcol := columned_of_cells? hcells
    obtain ⟨gap, tagGap, htext, hg⟩ := hcol.text
    have hg' := gaps_replicate c i j
    have htight : Tight (c.join (List.replicate (i + 1) ' ') (List.replicate (j + 1) ' ')) :=
      tight_join hcol.proper
    have htrim := trim_indent n htight
    -- an `else` in the result was there before, where it is ruled out
    have hno (tail : List Char) :
        ("else".toList ++ ' ' :: tail).isPrefixOf (c.join (List.replicate (i + 1) ' ')
          (List.replicate (j + 1) ' ')) = false := by
      by_contra hp
      obtain ⟨⟨name, type, tag, rfl⟩, hpre⟩ :=
        isPrefixOf_else_join hcol.proper hg hg' (by simpa using hp)
      have hcalm := hc.calm (hcol.enclosing name type tag rfl)
      rw [htext, hpre] at hcalm
      cases hcalm
    refine ⟨?_, hc.verbatim, fun _ ↦ ?_⟩
    · rw [Option.getD_some, htrim, isLooseElse_eq_false_iff]
      refine ⟨join_ne_else hcol.proper hg', ?_, ?_⟩ <;>
      · rw [← List.isPrefixOf_iff_prefix, Bool.not_eq_true]
        exact hno _
    · simp only [Option.getD_some, htrim]
      exact hno []

theorem cutLines_final {gs : List Glyph} (hne : gs ≠ [])
    (h : ∀ g, gs.getLast? = some g → g.1 ≠ '\n') (v : Bool) (r : Region) :
    cutLines v [] (gs ++ [('\n', r)]) = cutLines v [] gs := by
  induction hn : gs.length using Nat.strongRecOn generalizing v gs with
  | ind n ih =>
    rcases newline_cases gs with hs | ⟨a, r', b, rfl, ha⟩
    · rw [cutLines_line hs, cutLines_last hs, if_neg hne]
      rfl
    · have hb : b ≠ [] := by
        rintro rfl
        exact h ('\n', r') (by simp) rfl
      have hlen : b.length < n := by
        simp only [List.length_append, List.length_cons] at hn
        omega
      have hlast (g : Glyph) (hg : b.getLast? = some g) : g.1 ≠ '\n' := by
        refine h g ?_
        rw [List.getLast?_append_of_ne_nil _ (List.cons_ne_nil _ _), ← List.singleton_append,
          List.getLast?_append_of_ne_nil _ hb, hg]
      rw [List.append_assoc, List.cons_append, cutLines_line ha, cutLines_line ha,
        ih b.length hlen hb hlast r'.spansLines rfl]

theorem joinLines_eq_intercalate {ts : List (List Char)} (h : ts ≠ []) :
    joinLines ts = List.intercalate ['\n'] ts ++ ['\n'] := by
  induction ts with
  | nil => exact absurd rfl h
  | cons t ts ih =>
    cases ts with
    | nil => simp
    | cons t' ts =>
      rw [joinLines_cons, ih (List.cons_ne_nil _ _), List.intercalate_cons_cons]
      simp

theorem intercalate_snoc (ts : List (List Char)) (t : List Char) :
    List.intercalate ['\n'] (ts ++ [t]) = joinLines ts ++ t := by
  induction ts with
  | nil => simp
  | cons u ts ih =>
    rw [List.cons_append, List.intercalate_cons_of_ne_nil (by simp), ih, joinLines_cons]
    simp

theorem head?_intercalate {sep : List Char} {ts : List (List Char)} {t : List Char} {c : Char}
    (ht : ts.head? = some t) (hc : t.head? = some c) :
    (List.intercalate sep ts).head? = some c := by
  cases ts with
  | nil => cases ht
  | cons t' ts =>
    obtain rfl : t' = t := by simpa using ht
    cases ts with
    | nil => simpa using hc
    | cons t'' ts =>
      rw [List.intercalate_cons_cons, List.append_assoc, List.head?_append, hc]
      rfl

theorem getLast?_intercalate {sep : List Char} {ts : List (List Char)} {t : List Char} {c : Char}
    (ht : ts.getLast? = some t) (hc : t.getLast? = some c) :
    (List.intercalate sep ts).getLast? = some c := by
  induction ts with
  | nil => cases ht
  | cons t' ts ih =>
    cases ts with
    | nil =>
      obtain rfl : t' = t := by simpa using ht
      simpa using hc
    | cons t'' ts =>
      have h := ih (by simpa using ht)
      rw [List.intercalate_cons_cons, List.getLast?_append, h]
      rfl

theorem nest_intercalate {ls : List MarkedLine} {lines : List Line} {t : List Char} {c : Char}
    (h : Reads {} ls lines {}) (ht : (ls.map MarkedLine.text).getLast? = some t)
    (hc : t.getLast? = some c) (hn : c ≠ '\n') :
    nest (List.intercalate ['\n'] (ls.map MarkedLine.text)) = .ok lines := by
  have hne : ls.map MarkedLine.text ≠ [] := by
    intro h
    rw [h] at ht
    cases ht
  obtain ⟨gs, hmark, hcut⟩ := exists_mark_joinLines (h.linesMarked rfl)
  obtain ⟨htext, q, hm, hq⟩ := mark_eq_ok_iff.1 hmark
  rw [joinLines_eq_intercalate hne] at htext
  obtain ⟨gs, last, rfl, hgs, hlast⟩ := exists_of_glyphText_eq_append htext
  obtain ⟨g, rfl, hg⟩ : ∃ g : Glyph, last = [g] ∧ g.1 = '\n' := by
    obtain ⟨g, rest, rfl, hg, hrest⟩ := List.map_eq_cons_iff.1 hlast
    obtain rfl := List.map_eq_nil_iff.1 hrest
    exact ⟨g, rfl, hg⟩
  obtain ⟨n, r⟩ := g
  obtain rfl : n = '\n' := hg
  obtain ⟨⟨q', hm', hq'⟩, hend⟩ := marked_line.1 hm
  cases hend
  rw [nextLine_nextLine hq', Option.some_inj] at hq
  subst hq
  have hlastc : (glyphText gs).getLast? = some c := by
    rw [hgs]
    exact getLast?_intercalate ht hc
  refine nest_eq_ok_iff.2 ⟨gs, mark_eq_ok_iff.2 ⟨hgs, q', hm', hq'⟩, ?_⟩
  rw [← cutLines_final (r := .code), hcut]
  · exact h
  · rintro rfl
    cases hlastc
  · intro g hg
    rw [glyphText, List.getLast?_map, hg] at hlastc
    rwa [Option.some_inj.1 hlastc]

theorem mem_keep {ps : List Placed} {p : Placed} (hp : p ∈ ps) (ht : p.text? ≠ none)
    (previous : Option (List Char)) : p ∈ keep previous ps := by
  induction ps generalizing previous with
  | nil => cases hp
  | cons p' ps ih =>
    rw [keep]
    rcases List.mem_cons.1 hp with rfl | hp
    · split
      · exact List.mem_cons_self
      · next hx => exact absurd hx ht
    · split
      · exact List.mem_cons_of_mem p' (ih hp _)
      · split_ifs
        · exact List.mem_cons_of_mem p' (ih hp _)
        · exact ih hp _

theorem text?_ne_none_of_head? {ps : List Placed} {p : Placed}
    (h : (keep none ps).head? = some p) : p.text? ≠ none := by
  induction ps with
  | nil => cases h
  | cons p' ps ih =>
    rw [keep] at h
    split at h
    · next text hx =>
      obtain rfl : p' = p := by simpa using h
      rw [hx]
      exact Option.some_ne_none text
    · exact ih (by simpa [keepsBlank] using h)

theorem exists_some_of_nextText {texts : List (Option (List Char))} {n : List Char}
    (h : nextText texts = some n) : some n ∈ texts := by
  obtain ⟨x, hx, he⟩ := List.exists_of_findSome?_eq_some h
  rw [← he]
  exact hx

theorem text?_ne_none_of_getLast? {ps : List Placed} {p : Placed}
    {previous : Option (List Char)} (h : (keep previous ps).getLast? = some p) :
    p.text? ≠ none := by
  induction ps generalizing previous with
  | nil => cases h
  | cons p' ps ih =>
    rw [keep] at h
    split at h
    · next text hx =>
      cases hk : keep (some text) ps with
      | nil =>
        rw [hk] at h
        obtain rfl : p' = p := by simpa using h
        rw [hx]
        exact Option.some_ne_none text
      | cons q qs =>
        refine @ih (some text) ?_
        rw [hk] at h ⊢
        simpa using h
    · split_ifs at h with hb
      · -- a blank line is kept only before another line
        obtain ⟨q, hq, hqt⟩ : ∃ q ∈ ps, q.text? ≠ none := by
          unfold keepsBlank at hb
          split at hb
          · next n _ hn =>
            obtain ⟨q, hq, he⟩ := List.mem_map.1 (exists_some_of_nextText hn)
            exact ⟨q, hq, by rw [he]; exact Option.some_ne_none _⟩
          · cases hb
        cases hk : keep (some []) ps with
        | nil =>
          have hmem := mem_keep hq hqt (some [])
          rw [hk] at hmem
          cases hmem
        | cons q qs =>
          refine @ih (some []) ?_
          rw [hk] at h ⊢
          simpa using h
      · exact ih h

structure Tidy (ts : List (List Char)) : Prop where
  first : ∃ t c, ts.head? = some t ∧ t.head? = some c ∧ isBlank c = false
  last : ∃ t c, ts.getLast? = some t ∧ t.getLast? = some c ∧ isBlank c = false

theorem Tidy.tight {ts : List (List Char)} (h : Tidy ts) : Tight (List.intercalate ['\n'] ts) := by
  obtain ⟨⟨t, c, ht, hc, hcb⟩, t', c', ht', hc', hcb'⟩ := h
  constructor
  · intro d hd
    rw [head?_intercalate ht hc, Option.some_inj] at hd
    exact hd ▸ hcb
  · intro d hd
    rw [getLast?_intercalate ht' hc', Option.some_inj] at hd
    exact hd ▸ hcb'

theorem Tidy.trim_joinLines {ts : List (List Char)} (h : Tidy ts) :
    trim (joinLines ts) = List.intercalate ['\n'] ts := by
  obtain ⟨t, -, ht, -⟩ := h.first
  have hne : ts ≠ [] := by
    rintro rfl
    cases ht
  rw [joinLines_eq_intercalate hne, trim_append_blanks (blanks_singleton rfl), h.tight.trim_eq]

theorem enclosing_of_cells? {l : Line} {c : Cells} (h : l.cells? = some c) :
    l.enclosing ≠ none := by
  intro he
  simp only [Line.cells?, he] at h
  split_ifs at h

structure Columnless (t : List Char) : Prop where
  field : fieldCells? (trim t) = none
  keyed : keyedCells? (trim t) = none

theorem Columnless.cells?_eq_none {l : Line} (h : Columnless l.text) : l.cells? = none := by
  simp only [Line.cells?, h.field, h.keyed]
  split_ifs
  · rfl
  · split <;> rfl

theorem Written.exists_last {l : Line} {text : List Char} (h : Written l (some text))
    (hv : l.verbatim = false) : ∃ c, text.getLast? = some c ∧ isBlank c = false := by
  have hlast {n : Nat} {core : List Char} (ht : Tight core) (hne : core ≠ []) :
      ∃ c, (List.replicate n '\t' ++ core).getLast? = some c ∧ isBlank c = false := by
    rw [List.getLast?_append_of_ne_nil _ hne, List.getLast?_eq_some_getLast hne]
    exact ⟨_, rfl, ht.last _ (List.getLast?_eq_some_getLast hne)⟩
  cases h with
  | verbatim h =>
    rw [hv] at h
    cases h
  | indented _ ht => exact hlast (tight_trim _) ht
  | aligned n i j hc =>
    have hp := (columned_of_cells? hc).proper
    exact hlast (tight_join hp) (join_ne_nil hp _ _)

theorem Written.exists_first {l : Line} {text : List Char} (h : Written l (some text))
    (hv : l.verbatim = false) (hd : l.depth = 0) (he : l.enclosing = none) :
    ∃ c, text.head? = some c ∧ isBlank c = false := by
  cases h with
  | verbatim h =>
    rw [hv] at h
    cases h
  | aligned n i j hc => exact absurd he (enclosing_of_cells? hc)
  | indented _ ht =>
    have hindent : l.indent (trim l.text) = 0 := by simp [Line.indent, hd]
    rw [hindent, List.replicate_zero, List.nil_append]
    cases hc : trim l.text with
    | nil => exact absurd hc ht
    | cons c rest =>
      have htight := tight_trim l.text
      rw [hc] at htight
      exact ⟨c, rfl, htight.head c rfl⟩

theorem Reads.tight {st st' : Start} {ls : List MarkedLine} {lines : List Line}
    (h : Reads st ls lines st') :
    ∀ l ∈ lines, l.verbatim = false → isLooseElse (trim l.text) = false := by
  induction h with
  | nil => simp
  | cons _ _ hn _ ih =>
    intro l hl hv
    rcases List.mem_cons.1 hl with rfl | hl
    · rw [hn.line_verbatim] at hv
      have ho := (hn.obeys hv).tight
      rwa [MarkedLine.text_eq, ← hn.line_text] at ho
    · exact ih l hl hv

/-- What is known of the lines that are written for sound ones. -/
structure Formatted (ts ts' : List (List Char)) : Prop where
  sound : Sound [] ts' []
  tidy : Tidy ts'
  kept : ∀ t ∈ ts, trim t ≠ [] → Columnless t → ∃ n, List.replicate n '\t' ++ trim t ∈ ts'

structure CalmKept (lines : List Line) (ls' : List MarkedLine) : Prop where
  text_eq : ls'.map MarkedLine.text = (keep none (place lines)).map Placed.text
  reads : Reads {} ls' ((keep none (place lines)).map Placed.result) {}
  verbatim : ∀ p ∈ keep none (place lines), p.line.verbatim = false
  calm : ∀ p ∈ keep none (place lines), CalmLine p.result

theorem exists_calmKept {ls : List MarkedLine} {lines : List Line} (h : Reads {} ls lines {})
    (hcalm : ∀ l ∈ lines, CalmLine l) : ∃ ls', CalmKept lines ls' := by
  have hplace := placement_place lines
  obtain ⟨ls', hre⟩ := h.exists_reread rfl hplace none
  have hline (p : Placed) (hp : p ∈ keep none (place lines)) : p.line ∈ lines := by
    rw [← hplace.line_eq]
    exact List.mem_map_of_mem (keep_subset _ _ p hp)
  have hverb (p : Placed) (hp : p ∈ keep none (place lines)) : p.line.verbatim = false :=
    (hcalm _ (hline p hp)).verbatim
  have hw (p : Placed) (hp : p ∈ keep none (place lines)) :=
    (written_of_mem_keep hp).calm (hcalm _ (hline p hp)) (h.tight _ (hline p hp) (hverb p hp))
  exact ⟨ls', hre.text_eq, hre.reads fun p hp _ ↦ (hw p hp).1, hverb, fun p hp ↦ (hw p hp).2⟩

theorem CalmKept.sound {lines : List Line} {ls' : List MarkedLine} (h : CalmKept lines ls') :
    Sound [] ((keep none (place lines)).map Placed.text) [] := by
  rw [← h.text_eq]
  refine h.reads.sound rfl rfl fun l hl ↦ ?_
  obtain ⟨p, hp, rfl⟩ := List.mem_map.1 hl
  exact h.calm p hp

theorem CalmKept.tidy {lines : List Line} {ls' : List MarkedLine} (h : CalmKept lines ls')
    (hne : keep none (place lines) ≠ []) : Tidy ((keep none (place lines)).map Placed.text) := by
  constructor
  · cases hk : keep none (place lines) with
    | nil => exact absurd hk hne
    | cons p rest =>
      have hp : p ∈ keep none (place lines) := by simp [hk]
      have hhead : (keep none (place lines)).head? = some p := by simp [hk]
      obtain ⟨text, hx⟩ := Option.ne_none_iff_exists'.1 (text?_ne_none_of_head? hhead)
      have hline : p.result.depth = 0 ∧ p.result.enclosing = none := by
        have hreads := h.reads
        rw [hk] at hreads
        cases hreads with
        | cons _ _ hn _ =>
          rw [hn.line_eq]
          exact ⟨rfl, rfl⟩
      have hw := written_of_mem_keep hp
      rw [hx] at hw
      obtain ⟨c, hc, hcb⟩ := hw.exists_first (h.verbatim p hp) hline.1 hline.2
      exact ⟨text, c, by simp [Placed.text, hx], hc, hcb⟩
  · have hlast := List.getLast?_eq_some_getLast hne
    have hp := List.getLast_mem hne
    obtain ⟨text, hx⟩ := Option.ne_none_iff_exists'.1 (text?_ne_none_of_getLast? hlast)
    have hw := written_of_mem_keep hp
    rw [hx] at hw
    obtain ⟨c, hc, hcb⟩ := hw.exists_last (h.verbatim _ hp)
    exact ⟨text, c, by rw [List.getLast?_map, hlast]; simp [Placed.text, hx], hc, hcb⟩

/-- Every line that is not blank is kept. -/
theorem exists_mem_keep {lines : List Line} {t : List Char} (ht : t ∈ lines.map Line.text)
    (hb : trim t ≠ []) :
    ∃ p ∈ keep none (place lines), p.line.text = t ∧ p.text? ≠ none := by
  have hplace := placement_place lines
  rw [← hplace.line_eq, List.map_map] at ht
  obtain ⟨p, hp, rfl⟩ := List.mem_map.1 ht
  have hsome : p.text? ≠ none := fun hx ↦ hb ((hplace.written p hp).eq_none_iff_blank.1 hx).2
  exact ⟨p, mem_keep hp hsome none, rfl, hsome⟩

theorem Written.eq_indented {l : Line} {text : List Char} (h : Written l (some text))
    (hv : l.verbatim = false) (hc : Columnless l.text) :
    ∃ n, text = List.replicate n '\t' ++ trim l.text := by
  cases h with
  | verbatim h =>
    rw [hv] at h
    cases h
  | indented => exact ⟨_, rfl⟩
  | aligned n i j hcells =>
    rw [hc.cells?_eq_none] at hcells
    cases hcells

theorem CalmKept.formatted {lines : List Line} {ls' : List MarkedLine} (h : CalmKept lines ls')
    (hne : ∃ t ∈ lines.map Line.text, trim t ≠ []) :
    Formatted (lines.map Line.text) ((keep none (place lines)).map Placed.text) where
  sound := h.sound
  tidy := by
    refine h.tidy fun hk ↦ ?_
    obtain ⟨t, ht, hb⟩ := hne
    obtain ⟨p, hp, -⟩ := exists_mem_keep ht hb
    rw [hk] at hp
    cases hp
  kept t ht hb hcol := by
    obtain ⟨p, hp, rfl, hsome⟩ := exists_mem_keep ht hb
    obtain ⟨text, hx⟩ := Option.ne_none_iff_exists'.1 hsome
    have hw := written_of_mem_keep hp
    rw [hx] at hw
    obtain ⟨n, rfl⟩ := hw.eq_indented (h.verbatim p hp) hcol
    refine ⟨n, List.mem_map.2 ⟨p, hp, ?_⟩⟩
    simp [Placed.text, hx]

theorem Reads.formatChars_eq {ls : List MarkedLine} {lines : List Line}
    (h : Reads {} ls lines {}) (hls : ls.map MarkedLine.text = lines.map Line.text)
    (hcalm : ∀ l ∈ lines, CalmLine l) {t : List Char} (ht : (lines.map Line.text).getLast? = some t)
    (hb : trim t ≠ []) :
    formatChars (List.intercalate ['\n'] (lines.map Line.text)) =
        .ok (joinLines (tidy none (arrange lines))) ∧
      Formatted (lines.map Line.text) (tidy none (arrange lines)) := by
  obtain ⟨ls', hk⟩ := exists_calmKept h hcalm
  have hf := hk.formatted ⟨t, List.mem_of_getLast? ht, hb⟩
  rw [← tidy_arrange] at hf
  obtain ⟨c, hc⟩ : ∃ c, t.getLast? = some c := by
    cases t with
    | nil => exact absurd rfl hb
    | cons d t => exact ⟨_, List.getLast?_eq_some_getLast (List.cons_ne_nil _ _)⟩
  have hsingle : c ≠ '\n' := by
    rintro rfl
    have hmem : t ∈ ls.map MarkedLine.text := hls ▸ List.mem_of_getLast? ht
    exact (h.linesMarked rfl).single t hmem (List.mem_of_getLast? hc)
  have hnest := nest_intercalate h (hls ▸ ht) hc hsingle
  rw [hls] at hnest
  refine ⟨formatChars_eq_ok_iff.2 ⟨lines, hnest, ?_⟩, hf⟩
  have hne : tidy none (arrange lines) ≠ [] := by
    obtain ⟨t, -, hhead, -⟩ := hf.tidy.first
    intro hk
    rw [hk] at hhead
    cases hhead
  rw [layOut_eq, orEmptyLine, if_neg (by simpa using hne)]

/-- Sound lines can be laid out, and the result is sound again. -/
theorem Sound.exists_format {ts : List (List Char)} (h : Sound [] ts []) {t : List Char}
    (ht : ts.getLast? = some t) (hb : trim t ≠ []) :
    ∃ ts', formatChars (List.intercalate ['\n'] ts) = .ok (joinLines ts') ∧ Formatted ts ts' := by
  obtain ⟨ls, lines, hls, hreads, rfl, hcalm⟩ := h.exists_reads
  exact ⟨_, hreads.formatChars_eq hls hcalm ht hb⟩

end RpcStubs.Layout
