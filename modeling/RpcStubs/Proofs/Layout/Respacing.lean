import RpcStubs.Proofs.Layout.Openers
import RpcStubs.Proofs.Layout.Stretches

namespace RpcStubs.Layout

open Text

def visible (gs : List Glyph) : List Glyph := gs.filter fun g ↦ !isBlank g.1

theorem visible_append (a b : List Glyph) : visible (a ++ b) = visible a ++ visible b :=
  List.filter_append ..

theorem visible_of_blanks {gs : List Glyph} (h : Blanks (glyphText gs)) : visible gs = [] := by
  refine List.filter_eq_nil_iff.2 fun g hg ↦ ?_
  simp [h g.1 (List.mem_map_of_mem hg)]

theorem visible_map_of_blanks {cs : List Char} (h : Blanks cs) (r : Region) :
    visible (cs.map (·, r)) = [] :=
  visible_of_blanks (by rwa [glyphText_map_pair])

/-- Texts that differ in blanks only, and in none that keeps two words apart. -/
structure Respaced (gs gs' : List Glyph) : Prop where
  visible_eq : visible gs' = visible gs
  stretches_eq : codeStretches gs' = codeStretches gs

theorem Respaced.refl (gs : List Glyph) : Respaced gs gs := ⟨rfl, rfl⟩

theorem Respaced.trans {a b c : List Glyph} (hab : Respaced a b) (hbc : Respaced b c) :
    Respaced a c :=
  ⟨hbc.visible_eq.trans hab.visible_eq, hbc.stretches_eq.trans hab.stretches_eq⟩

theorem Respaced.symm {a b : List Glyph} (h : Respaced a b) : Respaced b a :=
  ⟨h.visible_eq.symm, h.stretches_eq.symm⟩

theorem respaced_trim {lead core trail : List Glyph} (hl : Blanks (glyphText lead))
    (ht : Blanks (glyphText trail)) : Respaced (lead ++ core ++ trail) core where
  visible_eq := by
    rw [visible_append, visible_append, visible_of_blanks hl, visible_of_blanks ht,
      List.nil_append, List.append_nil]
  stretches_eq := (codeStretches_trim hl ht).symm

theorem respaced_gap {gap gap' : List Glyph} (hg : Blanks (glyphText gap)) (hne : gap ≠ [])
    (hg' : Blanks (glyphText gap')) (hne' : gap' ≠ []) (a b : List Glyph) :
    Respaced (a ++ gap ++ b) (a ++ gap' ++ b) where
  visible_eq := by simp only [visible_append, visible_of_blanks hg, visible_of_blanks hg']
  stretches_eq := by rw [codeStretches_gap hg hne, codeStretches_gap hg' hne']

/-- Behind a character that parts words there may be any blanks, or none. -/
theorem respaced_lead (a : List Char) {sep : Char} (hs : isDotted sep = false)
    {gap gap' : List Char} (hg : Blanks gap) (hg' : Blanks gap') (gs : List Glyph) :
    Respaced ((a ++ sep :: gap).map (·, .code) ++ gs)
      ((a ++ sep :: gap').map (·, .code) ++ gs) where
  visible_eq := by
    have h {gap : List Char} (hg : Blanks gap) : visible ((a ++ sep :: gap).map (·, .code) ++ gs) =
        visible ((a ++ [sep]).map (·, .code)) ++ visible gs := by
      rw [List.append_cons, List.map_append, visible_append, visible_append,
        visible_map_of_blanks hg, List.append_nil]
    rw [h hg, h hg']
  stretches_eq := by
    have h {gap : List Char} (hg : Blanks gap) :
        codeStretches ((a ++ sep :: gap).map (·, .code) ++ gs) =
          stretches a ++ codeStretches gs := by
      have hparting : Parting (sep :: gap) := by
        intro c hc
        rcases List.mem_cons.1 hc with rfl | hc
        · exact hs
        · exact isDotted_of_isBlank (hg c hc)
      rw [codeStretches, codeOnly_append, codeOnly_map_code,
        stretches_gap hparting (List.cons_ne_nil sep gap)]
      rfl
    rw [h hg, h hg']

theorem spaces_of_blanks {cs : List Char} (h : Blanks cs) (hn : '\n' ∉ cs) : Spaces cs :=
  fun c hc ↦ ⟨h c hc, fun he ↦ hn (he ▸ hc)⟩

theorem Spaces.blanks {cs : List Char} (h : Spaces cs) : Blanks cs := fun c hc ↦ (h c hc).1

theorem turnAt_congr {b b' : List Char} {g : Glyph} (hb : b.all isBlank = b'.all isBlank)
    (h : g.1 = '\x7b' → Opener.of '\x7b' b = Opener.of '\x7b' b') : turnAt b g = turnAt b' g := by
  have ho : Opener.of g.1 b = Opener.of g.1 b' := by
    by_cases hg : g.1 = '\x7b'
    · rw [hg]
      exact h hg
    · simp [Opener.of, hg]
  simp only [turnAt, ho, hb]

theorem turns_congr {b b' : List Char} {gs : List Glyph} (hb : b.all isBlank = b'.all isBlank)
    (h : ∀ p g q, gs = p ++ g :: q → g.1 = '\x7b' →
      Opener.of '\x7b' (b ++ glyphText p) = Opener.of '\x7b' (b' ++ glyphText p)) :
    turns b gs = turns b' gs := by
  induction gs generalizing b b' with
  | nil => rfl
  | cons g gs ih =>
    have hhead : turnAt b g = turnAt b' g := by
      refine turnAt_congr hb fun hg ↦ ?_
      simpa using h [] g gs rfl hg
    have htail : turns (b ++ [g.1]) gs = turns (b' ++ [g.1]) gs := by
      refine ih (by simp [hb]) fun p g' q hp hg ↦ ?_
      have hcons := h (g :: p) g' q (by rw [hp]; rfl) hg
      simpa using hcons
    rw [turns, turns, hhead, htail]

theorem isPrefixOf_mono {w a b : List Char} (h : a <+: b) (hw : w.isPrefixOf b = false) :
    w.isPrefixOf a = false := by
  by_contra hn
  have hp : w <+: a := List.isPrefixOf_iff_prefix.1 (by simpa using hn)
  rw [List.isPrefixOf_iff_prefix.2 (hp.trans h)] at hw
  cases hw

theorem trimEnd_isPrefix (s : List Char) : trimEnd s <+: s := by
  obtain ⟨trail, he, -, -⟩ := exists_trimEnd s
  exact ⟨trail, he.symm⟩

theorem not_mem_struct_of_isBlank {c : Char} (h : isBlank c = true) : c ∉ "struct".toList := by
  intro hc
  have hall : ∀ d ∈ "struct".toList, isBlank d = false := by decide
  rw [hall c hc] at h
  cases h

theorem head?_of_isWord {name : List Char} (hn : isWord name = true) (rest : List Char) :
    ∃ c, (name ++ rest).head? = some c ∧ isBlank c = false := by
  obtain ⟨c, tail, rfl, hc⟩ := exists_of_isWord hn
  exact ⟨c, rfl, isBlank_of_isWordChar (isWordChar_of_startsWord hc)⟩

/-- Behind a word and blanks, the kind of a brace is told by the word and by what stands right
before the brace. -/
theorem of_brace_behind_word {name p r : List Char} {d s : Char} (hn : isWord name = true)
    (hs : isBlank s = true) (hp : p.head? = some d) (hd : isBlank d = false)
    (he : "else if ".toList.isPrefixOf (name ++ ' ' :: r ++ p) = false)
    (hr : (' ' :: r).getLast? = some s) :
    Opener.of '\x7b' (name ++ ' ' :: r ++ p) =
      if "struct".toList.isSuffixOf (trimEnd p) then .struct
      else if !(p.getLast?.any isBlank) then .literal
      else if name = "if".toList then .ifBlock else if name = "switch".toList then .switch
      else .block := by
  obtain ⟨c, hc, hcb⟩ := head?_of_isWord hn (' ' :: r)
  obtain ⟨z, hz⟩ := List.getLast?_eq_some_iff.1 hr
  have hpre : name ++ ' ' :: (r ++ trimEnd p) <+: name ++ ' ' :: r ++ p := by
    rw [List.append_assoc, List.cons_append]
    exact List.prefix_append_right_inj _ |>.2 (List.cons_prefix_cons.2
      ⟨rfl, (List.prefix_append_right_inj r).2 (trimEnd_isPrefix p)⟩)
  rw [of_brace_append (z := name ++ z) hc hcb (by rw [hz, List.append_assoc])
    (not_mem_struct_of_isBlank hs) hp hd, List.append_assoc, List.cons_append,
    ofHead_word hn (isPrefixOf_mono hpre he)]

/-- Behind a key, the kind of a brace is told by what stands right before the brace. -/
theorem of_brace_behind_key {key p r : List Char} {d : Char} (hk : isWord key = true)
    (hr : Blanks r) (hp : p.head? = some d) (hd : isBlank d = false) :
    Opener.of '\x7b' (key ++ ':' :: r ++ p) =
      if "struct".toList.isSuffixOf (trimEnd p) then .struct
      else if !(p.getLast?.any isBlank) then .literal
      else .block := by
  obtain ⟨c, hc, hcb⟩ := head?_of_isWord hk (':' :: r)
  obtain ⟨z, s, hz, hs⟩ : ∃ z s, ':' :: r = z ++ [s] ∧ s ∉ "struct".toList := by
    rcases List.eq_nil_or_concat r with rfl | ⟨r', s, rfl⟩
    · exact ⟨[], ':', rfl, by decide⟩
    · exact ⟨':' :: r', s, by simp, not_mem_struct_of_isBlank (hr s (by simp))⟩
  rw [of_brace_append (z := key ++ z) hc hcb (by rw [hz, List.append_assoc]) hs hp hd,
    List.append_assoc, List.cons_append, ofHead_key hk]

theorem of_brace_at_gap {gap : List Char} (name : List Char) (hg : Blanks gap)
    (hne : gap ≠ []) :
    Opener.of '\x7b' (name ++ gap) =
      if "struct".toList.isSuffixOf (trim name) then .struct else .ofHead (trim name) := by
  have hlast : (name ++ gap).getLast?.any isBlank = true := by
    rw [List.getLast?_append_of_ne_nil _ hne, List.getLast?_eq_some_getLast hne]
    exact hg _ (List.getLast_mem hne)
  rw [of_brace, trim_append_blanks hg, hlast, Bool.not_true, Bool.and_false]
  rfl

theorem all_isBlank_of_isWord {name : List Char} (hn : isWord name = true) (rest : List Char) :
    (name ++ rest).all isBlank = false := by
  obtain ⟨c, tail, rfl, hc⟩ := exists_of_isWord hn
  simp [isBlank_of_isWordChar (isWordChar_of_startsWord hc)]

/-- The turns of a column depend on the word that begins the line, not on what stands between
them. A brace that begins the column has to be looked at on its own. -/
theorem turns_behind_word {name r r' : List Char} {s s' d : Char} {gs : List Glyph}
    (hn : isWord name = true) (hs : isBlank s = true) (hs' : isBlank s' = true)
    (hr : (' ' :: r).getLast? = some s) (hr' : (' ' :: r').getLast? = some s')
    (hd : (glyphText gs).head? = some d) (hdb : isBlank d = false)
    (he : "else if ".toList.isPrefixOf (name ++ ' ' :: r ++ glyphText gs) = false)
    (he' : "else if ".toList.isPrefixOf (name ++ ' ' :: r' ++ glyphText gs) = false)
    (hbrace : d = '\x7b' →
      Opener.of '\x7b' (name ++ ' ' :: r) = Opener.of '\x7b' (name ++ ' ' :: r')) :
    turns (name ++ ' ' :: r) gs = turns (name ++ ' ' :: r') gs := by
  refine turns_congr ?_ fun p g q hgs hg ↦ ?_
  · rw [all_isBlank_of_isWord hn, all_isBlank_of_isWord hn]
  · cases p with
    | nil =>
      subst hgs
      obtain rfl : g.1 = d := by simpa using hd
      simpa using hbrace hg
    | cons g' p =>
      have hp : (glyphText (g' :: p)).head? = some d := by
        rw [hgs] at hd
        simpa using hd
      have hpre (b : List Char) : b ++ glyphText (g' :: p) <+: b ++ glyphText gs := by
        rw [hgs, glyphText_append]
        exact (List.prefix_append_right_inj b).2 (List.prefix_append _ _)
      rw [of_brace_behind_word hn hs hp hdb (isPrefixOf_mono (hpre _) he) hr,
        of_brace_behind_word hn hs' hp hdb (isPrefixOf_mono (hpre _) he') hr']

/-- As for a word, but behind a key even the brace that begins the value may change its kind. -/
theorem turns_behind_key {key r r' : List Char} {d : Char} {g : Glyph} {gs : List Glyph}
    (hk : isWord key = true) (hr : Blanks r) (hr' : Blanks r') (hd : g.1 = d)
    (hdb : isBlank d = false) :
    turns (key ++ ':' :: r ++ [g.1]) gs = turns (key ++ ':' :: r' ++ [g.1]) gs := by
  refine turns_congr ?_ fun p g' q hgs hg ↦ ?_
  · rw [List.append_assoc, List.append_assoc, all_isBlank_of_isWord hk, all_isBlank_of_isWord hk]
  · have hp : ([g.1] ++ glyphText p).head? = some d := by simp [hd]
    rw [List.append_assoc _ [g.1], List.append_assoc _ [g.1], of_brace_behind_key hk hr hp hdb,
      of_brace_behind_key hk hr' hp hdb]

def Inner (ts : List Turn) : Prop := ∀ c, Turn.closes c true ∉ ts

theorem inner_turns {before : List Char} (hb : before.all isBlank = false) (gs : List Glyph) :
    Inner (turns before gs) := by
  induction gs generalizing before with
  | nil => simp [Inner, turns]
  | cons g gs ih =>
    intro c hc
    rw [turns, List.mem_append] at hc
    rcases hc with hc | hc
    · unfold turnAt at hc
      split_ifs at hc <;> simp [hb] at hc
    · exact ih (by simp [hb]) c hc

/-- The opener of a bracket that is closed again makes no difference. -/
theorem run_reopen {f f' : Frame} (hf : f.bracket = f'.bracket) {ts : List Turn} (hi : Inner ts)
    {above below : List Frame} {first : Option Opener} {after : Nesting}
    (h : Nesting.run ⟨above ++ f :: below, first⟩ ts = some after)
    (hlen : after.frames.length ≤ below.length) :
    Nesting.run ⟨above ++ f' :: below, first⟩ ts = some after := by
  induction ts generalizing above first with
  | nil =>
    cases h
    simp at hlen
    omega
  | cons t ts ih =>
    have hi' : Inner ts := fun c hc ↦ hi c (List.mem_cons_of_mem t hc)
    cases t with
    | opens f₁ =>
      rw [Nesting.run, Nesting.turn, Option.bind_some] at h ⊢
      have h' : Nesting.run ⟨(f₁ :: above) ++ f :: below, first⟩ ts = some after := h
      exact ih hi' h'
    | closes c b =>
      obtain rfl : b = false := by
        cases b with
        | false => rfl
        | true => exact absurd List.mem_cons_self (hi c)
      cases above with
      | nil =>
        simpa only [Nesting.run, Nesting.turn, List.nil_append, hf, Bool.false_eq_true,
          if_false] using h
      | cons f₁ above =>
        simp only [Nesting.run, Nesting.turn, List.cons_append] at h ⊢
        by_cases hc : closes f₁.bracket c = true
        · rw [if_pos hc, Option.bind_some] at h ⊢
          exact ih hi' h
        · rw [if_neg hc] at h
          cases h

theorem isPlain_of_isWordChar {c : Char} (h : Name.isWordChar c = true) : isPlain c = true := by
  have hne (d : Char) (hd : Name.isWordChar d = false) : c ≠ d := by
    rintro rfl
    rw [h] at hd
    cases hd
  simp only [isPlain, Bool.and_eq_true, bne_iff_ne]
  exact ⟨⟨⟨hne _ (by decide), hne _ (by decide)⟩, hne _ (by decide)⟩, hne _ (by decide)⟩

structure Quiet (s : List Char) : Prop where
  plain : ∀ c ∈ s, isPlain c = true
  unbracketed : Unbracketed s

theorem Quiet.append {a b : List Char} (ha : Quiet a) (hb : Quiet b) : Quiet (a ++ b) where
  plain c hc := (List.mem_append.1 hc).elim (ha.plain c) (hb.plain c)
  unbracketed c hc := (List.mem_append.1 hc).elim (ha.unbracketed c) (hb.unbracketed c)

theorem quiet_of_isWord {name : List Char} (h : isWord name = true) : Quiet name where
  plain _ hc := isPlain_of_isWordChar (isWordChar_of_mem h hc)
  unbracketed := unbracketed_of_isWord h

theorem quiet_of_blanks {gap : List Char} (h : Blanks gap) : Quiet gap where
  plain c hc := isPlain_of_isBlank (h c hc)
  unbracketed := unbracketed_of_blanks h

theorem turns_quiet {lead : List Glyph} (h : Quiet (glyphText lead)) (gs : List Glyph) :
    turns [] (lead ++ gs) = turns (glyphText lead) gs := by
  rw [turns_append, turns_of_unbracketed h.unbracketed, List.nil_append, List.nil_append]

/-- A quiet beginning may become another one. -/
theorem Marked.replace_lead {next : Option Char} {m : Mode} {lead gs : List Glyph}
    (h : Marked next (.inside .code) (lead ++ gs) m) (hl : Quiet (glyphText lead))
    {cs : List Char} (hc : Quiet cs) :
    lead = (glyphText lead).map (·, .code) ∧
      Marked next (.inside .code) (cs.map (·, .code) ++ gs) m := by
  obtain ⟨m', hlead, hgs⟩ := marked_append.1 h
  obtain ⟨he, rfl⟩ := eq_of_marked_plain hlead hl.plain
  exact ⟨he, (marked_plain hc.plain).append hgs⟩

/-- The two readings of a line leave the same brackets open, if it closes what it opens. -/
def SameTurns (ts ts' : List Turn) : Prop :=
  ∀ frames after, Nesting.run ⟨frames, none⟩ ts = some after →
    after.frames.length = frames.length → Nesting.run ⟨frames, none⟩ ts' = some after

theorem sameTurns_of_eq {ts ts' : List Turn} (h : ts' = ts) : SameTurns ts ts' := by
  intro frames after hr _
  rwa [h]

theorem exists_cons_of_head? {s : List Char} {c : Char} (h : s.head? = some c) :
    ∃ rest, s = c :: rest := by
  cases s with
  | nil => cases h
  | cons d rest =>
    cases h
    exact ⟨rest, rfl⟩

theorem exists_last_of_blanks {r : List Char} (h : Blanks (' ' :: r)) :
    ∃ s, (' ' :: r).getLast? = some s ∧ isBlank s = true :=
  ⟨_, List.getLast?_eq_some_getLast (List.cons_ne_nil _ _), h _ (List.getLast_mem _)⟩

/-- Text behind a word may change its distance from it. -/
theorem turns_column {name r r' : List Char} {gs : List Glyph} (hn : isWord name = true)
    (hr : Blanks (' ' :: r)) (hr' : Blanks (' ' :: r')) (htight : Tight (glyphText gs))
    (he : "else if ".toList.isPrefixOf (name ++ ' ' :: r ++ glyphText gs) = false)
    (he' : "else if ".toList.isPrefixOf (name ++ ' ' :: r' ++ glyphText gs) = false) :
    turns (name ++ ' ' :: r) gs = turns (name ++ ' ' :: r') gs := by
  obtain ⟨s, hs, hsb⟩ := exists_last_of_blanks hr
  obtain ⟨s', hs', hsb'⟩ := exists_last_of_blanks hr'
  cases gs with
  | nil => rfl
  | cons g gs =>
    refine turns_behind_word hn hsb hsb' hs hs' rfl (htight.head g.1 rfl) he he' fun _ ↦ ?_
    rw [of_brace_at_gap name hr (by simp), of_brace_at_gap name hr' (by simp)]

theorem isPrefixOf_append_left {w a b : List Char} (h : w.isPrefixOf (a ++ b) = false) :
    w.isPrefixOf a = false := isPrefixOf_mono (List.prefix_append a b) h

/-- Text behind a word, a column and a gap may change its distance from all of them. -/
theorem turns_tag {name r r' type tagGap tagGap' : List Char} {gs : List Glyph}
    (hn : isWord name = true) (ht : tagGap.getLast? = some ' ') (ht' : tagGap'.getLast? = some ' ')
    (hq : (glyphText gs).head? = some '\x60')
    (he : "else if ".toList.isPrefixOf (name ++ ' ' :: r ++ type ++ tagGap ++ glyphText gs) = false)
    (he' : "else if ".toList.isPrefixOf
      (name ++ ' ' :: r' ++ type ++ tagGap' ++ glyphText gs) = false) :
    turns (name ++ ' ' :: r ++ type ++ tagGap) gs =
      turns (name ++ ' ' :: r' ++ type ++ tagGap') gs := by
  have hlast {t : List Char} (h : t.getLast? = some ' ') (r : List Char) :
      (' ' :: (r ++ type ++ t)).getLast? = some ' ' := by
    rw [← List.cons_append, List.getLast?_append, h]
    rfl
  have hassoc (r t : List Char) : name ++ ' ' :: r ++ type ++ t =
      name ++ ' ' :: (r ++ type ++ t) := by
    simp
  rw [hassoc] at he he' ⊢
  rw [hassoc]
  exact turns_behind_word hn (by decide) (by decide) (hlast ht r) (hlast ht' r') hq (by decide) he
    he' fun h ↦ absurd h (by decide)

theorem exists_respaced_field {name type gap tagGap gap' tagGap' : List Char}
    (hp : (Cells.field name type none).Proper) (hg : (Cells.field name type none).Gaps gap tagGap)
    (hg' : (Cells.field name type none).Gaps gap' tagGap') {core : List Glyph} {q : Region}
    (ht : glyphText core = (Cells.field name type none).join gap tagGap)
    (hm : Marked none (.inside .code) core (.inside q)) :
    ∃ core', glyphText core' = (Cells.field name type none).join gap' tagGap' ∧
      Marked none (.inside .code) core' (.inside q) ∧ Respaced core core' ∧
      ("else if ".toList.isPrefixOf (glyphText core) = false →
        "else if ".toList.isPrefixOf (glyphText core') = false →
        SameTurns (turns [] core) (turns [] core')) := by
  obtain ⟨hname, -, htight, -⟩ := hp
  obtain ⟨r, rfl⟩ := exists_cons_of_head? (hg.lead _ _ _ rfl)
  obtain ⟨r', rfl⟩ := exists_cons_of_head? (hg'.lead _ _ _ rfl)
  rw [Cells.join, ← List.append_assoc] at ht
  obtain ⟨lead, ty, rfl, hlead, rfl⟩ := exists_of_glyphText_eq_append ht
  have hquiet : Quiet (glyphText lead) := by
    rw [hlead]
    exact (quiet_of_isWord hname).append (quiet_of_blanks hg.blanks)
  have hquiet' : Quiet (name ++ ' ' :: r') :=
    (quiet_of_isWord hname).append (quiet_of_blanks hg'.blanks)
  obtain ⟨he, hm'⟩ := hm.replace_lead hquiet hquiet'
  have htext : glyphText ((name ++ ' ' :: r').map (·, Region.code)) = name ++ ' ' :: r' :=
    glyphText_map_pair _ _
  refine ⟨_, ?_, hm', ?_, fun hne hne' ↦ sameTurns_of_eq ?_⟩
  · rw [glyphText_append, htext, Cells.join, List.append_assoc]
  · rw [he, hlead]
    exact respaced_lead name (by decide) hg.blanks.tail hg'.blanks.tail ty
  · rw [glyphText_append, hlead] at hne
    rw [glyphText_append, htext] at hne'
    rw [turns_quiet (by rwa [htext]), turns_quiet hquiet, htext, hlead]
    exact turns_column hname hg'.blanks hg.blanks htight hne' hne

theorem Cells.Gaps.tagGap_ne_nil {c : Cells} {gap tagGap : List Char} (h : c.Gaps gap tagGap) :
    tagGap ≠ [] := by
  rintro rfl
  cases h.tagLast

/-- A line with a tag is its columns and the gaps between them, and either gap may change. Only the
gap before the tag may be part of a literal. -/
theorem exists_tagged_columns {name type tag gap tagGap gap' tagGap' : List Char}
    (hn : isWord name = true) (hg : (Cells.field name type (some tag)).Gaps gap tagGap)
    (hg' : (Cells.field name type (some tag)).Gaps gap' tagGap') (hspaces : Spaces tagGap')
    {core : List Glyph} {q : Region} (hsingle : '\n' ∉ glyphText core)
    (ht : glyphText core = (Cells.field name type (some tag)).join gap tagGap)
    (hm : Marked none (.inside .code) core (.inside q)) :
    ∃ (ty tg : List Glyph) (r : Region),
      core = (name ++ gap).map (·, .code) ++ (ty ++ (tagGap.map (·, r) ++ tg)) ∧
      glyphText ty = type ∧ glyphText tg = tag ∧ Spaces tagGap ∧
      Marked none (.inside .code)
        ((name ++ gap').map (·, .code) ++ ty ++ tagGap.map (·, r) ++ tg) (.inside q) ∧
      Marked none (.inside .code)
        ((name ++ gap').map (·, .code) ++ ty ++ tagGap'.map (·, r) ++ tg) (.inside q) := by
  rw [Cells.join, ← List.append_assoc] at ht
  obtain ⟨lead, behind, rfl, hlead, hbehind⟩ := exists_of_glyphText_eq_append ht
  obtain ⟨ty, rest, rfl, hty, hrest⟩ := exists_of_glyphText_eq_append hbehind
  obtain ⟨blanks, tg, rfl, hblanks, htg⟩ := exists_of_glyphText_eq_append hrest
  have hquiet {gap : List Char} (hb : Blanks gap) : Quiet (name ++ gap) :=
    (quiet_of_isWord hn).append (quiet_of_blanks hb)
  obtain ⟨he, hm'⟩ := hm.replace_lead (hlead ▸ hquiet hg.blanks) (hquiet hg'.blanks)
  rw [hlead] at he
  have hgap : Spaces tagGap := by
    refine spaces_of_blanks hg.tagBlanks fun hmem ↦ hsingle ?_
    simp only [glyphText_append, List.mem_append]
    exact .inr (.inr (.inl (hblanks ▸ hmem)))
  have hne : blanks ≠ [] := by
    rintro rfl
    exact hg.tagGap_ne_nil hblanks.symm
  rw [← List.append_assoc, ← List.append_assoc] at hm'
  obtain ⟨r, hr, hrespace⟩ := hm'.respace (hblanks ▸ hgap) hne
  rw [hblanks] at hr
  refine ⟨ty, tg, r, by rw [he, hr], hty, htg, hgap, ?_, hrespace tagGap' hspaces hg'.tagGap_ne_nil⟩
  rwa [← hr]

theorem exists_respaced_tagged {name type tag gap tagGap gap' tagGap' : List Char}
    (hp : (Cells.field name type (some tag)).Proper)
    (hg : (Cells.field name type (some tag)).Gaps gap tagGap)
    (hg' : (Cells.field name type (some tag)).Gaps gap' tagGap') (hspaces : Spaces tagGap')
    {core : List Glyph} {q : Region} (hsingle : '\n' ∉ glyphText core)
    (ht : glyphText core = (Cells.field name type (some tag)).join gap tagGap)
    (hm : Marked none (.inside .code) core (.inside q)) :
    ∃ core', glyphText core' = (Cells.field name type (some tag)).join gap' tagGap' ∧
      Marked none (.inside .code) core' (.inside q) ∧ Respaced core core' ∧
      ("else if ".toList.isPrefixOf (glyphText core) = false →
        "else if ".toList.isPrefixOf (glyphText core') = false →
        SameTurns (turns [] core) (turns [] core')) := by
  obtain ⟨hname, -, htight, -, htag⟩ := hp
  obtain ⟨hquote, -⟩ := htag tag rfl
  obtain ⟨ty, tg, r, rfl, rfl, rfl, hspaced, -, hm'⟩ :=
    exists_tagged_columns hname hg hg' hspaces hsingle ht hm
  obtain ⟨s, rfl⟩ := exists_cons_of_head? (hg.lead _ _ _ rfl)
  obtain ⟨s', rfl⟩ := exists_cons_of_head? (hg'.lead _ _ _ rfl)
  have hquiet {gap : List Char} (hb : Blanks gap) :
      Quiet (glyphText ((name ++ gap).map (·, .code))) := by
    rw [glyphText_map_pair]
    exact (quiet_of_isWord hname).append (quiet_of_blanks hb)
  have hblanks {gap : List Char} (hs : Spaces gap) : Blanks (glyphText (gap.map (·, r))) := by
    rw [glyphText_map_pair]
    exact hs.blanks
  refine ⟨_, ?_, hm', ?_, fun hne hne' ↦ sameTurns_of_eq ?_⟩
  · simp only [glyphText_append, glyphText_map_pair, Cells.join, List.append_assoc]
  · have hlead := respaced_lead name (by decide : isDotted ' ' = false) hg.blanks.tail
      hg'.blanks.tail (ty ++ (tagGap.map (·, r) ++ tg))
    have hgap := respaced_gap (hblanks hspaced) (by simpa using hg.tagGap_ne_nil) (hblanks hspaces)
      (by simpa using hg'.tagGap_ne_nil) ((name ++ ' ' :: s').map (·, .code) ++ ty) tg
    refine hlead.trans ?_
    simpa only [List.append_assoc] using hgap
  · simp only [glyphText_append, glyphText_map_pair, ← List.append_assoc] at hne hne'
    have htype := turns_column hname hg.blanks hg'.blanks htight
      (isPrefixOf_append_left (isPrefixOf_append_left hne))
      (isPrefixOf_append_left (isPrefixOf_append_left hne'))
    have hrest := turns_tag hname hg.tagLast hg'.tagLast hquote hne hne'
    simp only [List.append_assoc]
    rw [turns_quiet (hquiet hg'.blanks), turns_quiet (hquiet hg.blanks), turns_append, turns_append,
      turns_append _ ty, turns_append _ (tagGap.map _),
      turns_of_unbracketed (unbracketed_of_blanks (hblanks hspaced)),
      turns_of_unbracketed (unbracketed_of_blanks (hblanks hspaces)), glyphText_map_pair,
      glyphText_map_pair, glyphText_map_pair, glyphText_map_pair, htype, List.nil_append,
      List.nil_append, hrest]

/-- Where a value begins with a brace, its kind may change, but the line closes it. -/
theorem sameTurns_key {key r r' : List Char} {g : Glyph} {gs : List Glyph}
    (hk : isWord key = true) (hr : Blanks r) (hr' : Blanks r') (hg : isBlank g.1 = false) :
    SameTurns (turns (key ++ ':' :: r) (g :: gs)) (turns (key ++ ':' :: r') (g :: gs)) := by
  have hall (r : List Char) : (key ++ ':' :: r).all isBlank = false := all_isBlank_of_isWord hk _
  have htail : turns (key ++ ':' :: r' ++ [g.1]) gs = turns (key ++ ':' :: r ++ [g.1]) gs :=
    turns_behind_key hk hr' hr rfl hg
  by_cases hbrace : g = ('\x7b', .code)
  · subst hbrace
    intro frames after hrun hlen
    have hopen (before : List Char) :
        turnAt before ('\x7b', .code) = [.opens ⟨'\x7b', .of '\x7b' before⟩] := by
      simp [turnAt, isOpening]
    rw [turns, hopen, List.singleton_append, Nesting.run, Nesting.turn, Option.bind_some] at hrun ⊢
    have hinner : Inner (turns (key ++ ':' :: r ++ ['\x7b']) gs) := by
      refine inner_turns ?_ gs
      rw [List.append_assoc]
      exact all_isBlank_of_isWord hk _
    rw [htail]
    have hrun' : Nesting.run ⟨[] ++ ⟨'\x7b', .of '\x7b' (key ++ ':' :: r)⟩ :: frames, none⟩
        (turns (key ++ ':' :: r ++ ['\x7b']) gs) = some after := hrun
    have hopen' : Nesting.run ⟨[] ++ ⟨'\x7b', .of '\x7b' (key ++ ':' :: r')⟩ :: frames, none⟩
        (turns (key ++ ':' :: r ++ ['\x7b']) gs) = some after := by
      refine run_reopen ?_ hinner hrun' hlen.le
      rfl
    exact hopen'
  · refine sameTurns_of_eq ?_
    have hhead : turnAt (key ++ ':' :: r') g = turnAt (key ++ ':' :: r) g := by
      by_cases hc : g.2 = .code
      · refine turnAt_congr (by rw [hall, hall]) fun h ↦ absurd ?_ hbrace
        rw [← h, ← hc]
      · simp [turnAt, hc]
    rw [turns, turns, hhead, htail]

theorem exists_respaced_keyed {key value gap tagGap gap' tagGap' : List Char}
    (hp : (Cells.keyed key value).Proper) (hg : (Cells.keyed key value).Gaps gap tagGap)
    (hg' : (Cells.keyed key value).Gaps gap' tagGap') {core : List Glyph} {q : Region}
    (ht : glyphText core = (Cells.keyed key value).join gap tagGap)
    (hm : Marked none (.inside .code) core (.inside q)) :
    ∃ core', glyphText core' = (Cells.keyed key value).join gap' tagGap' ∧
      Marked none (.inside .code) core' (.inside q) ∧ Respaced core core' ∧
      SameTurns (turns [] core) (turns [] core') := by
  obtain ⟨hkey, hne, htight, -⟩ := hp
  have hjoin (gap : List Char) :
      key ++ (':' :: (gap ++ value)) = ((key ++ [':']) ++ gap) ++ value := by simp
  have hquiet {gap : List Char} (h : Blanks gap) : Quiet ((key ++ [':']) ++ gap) := by
    refine ((quiet_of_isWord hkey).append ⟨?_, ?_⟩).append (quiet_of_blanks h)
    · simp [isPlain, Region.delimiter]
    · simp [Unbracketed, isOpening, isClosing]
  rw [Cells.join, hjoin] at ht
  obtain ⟨lead, v, rfl, hlead, rfl⟩ := exists_of_glyphText_eq_append ht
  obtain ⟨he, hm'⟩ := hm.replace_lead (hlead ▸ hquiet hg.blanks) (hquiet hg'.blanks)
  have htext : glyphText (((key ++ [':']) ++ gap').map (·, Region.code)) = (key ++ [':']) ++ gap' :=
    glyphText_map_pair _ _
  refine ⟨_, ?_, hm', ?_, ?_⟩
  · rw [glyphText_append, htext, Cells.join, hjoin]
  · rw [he, hlead, ← List.append_cons, ← List.append_cons]
    exact respaced_lead key (by decide) hg.blanks hg'.blanks v
  · have hlead' : Quiet (glyphText (((key ++ [':']) ++ gap').map (·, Region.code))) := by
      rw [htext]
      exact hquiet hg'.blanks
    rw [turns_quiet (hlead ▸ hquiet hg.blanks), turns_quiet hlead', htext, hlead,
      List.append_assoc, List.append_assoc]
    cases v with
    | nil => exact absurd rfl hne
    | cons g v => exact sameTurns_key hkey hg.blanks hg'.blanks (htight.head g.1 rfl)

/-- The gaps of a line may change: the other line is read alike up to its blanks. Only where one
of the two spells `else if` may a brace have another kind. -/
theorem exists_respaced {c : Cells} {gap tagGap gap' tagGap' : List Char} (hp : c.Proper)
    (hg : c.Gaps gap tagGap) (hg' : c.Gaps gap' tagGap') (hspaces : Spaces tagGap')
    {core : List Glyph} {q : Region} (hsingle : '\n' ∉ glyphText core)
    (ht : glyphText core = c.join gap tagGap) (hm : Marked none (.inside .code) core (.inside q)) :
    ∃ core', glyphText core' = c.join gap' tagGap' ∧
      Marked none (.inside .code) core' (.inside q) ∧ Respaced core core' ∧
      ("else if ".toList.isPrefixOf (glyphText core) = false →
        "else if ".toList.isPrefixOf (glyphText core') = false →
        SameTurns (turns [] core) (turns [] core')) := by
  cases c with
  | field name type tag =>
    cases tag with
    | none => exact exists_respaced_field hp hg hg' ht hm
    | some tag => exact exists_respaced_tagged hp hg hg' hspaces hsingle ht hm
  | keyed key value =>
    obtain ⟨core', ht', hm', hv, hturns⟩ := exists_respaced_keyed hp hg hg' ht hm
    exact ⟨core', ht', hm', hv, fun _ _ ↦ hturns⟩

end RpcStubs.Layout
