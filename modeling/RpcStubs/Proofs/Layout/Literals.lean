import Mathlib.Data.List.DropRight
import Mathlib.Data.List.SplitBy
import RpcStubs.Proofs.Layout.Content

namespace RpcStubs.Layout

open Text

def Region.isLiteral : Region → Bool
  | .str | .rawStr | .rune => true
  | _ => false

/-- The literals of a marked text: its maximal stretches in one literal region, quotes included. -/
def literals (gs : List Glyph) : List (List Glyph) :=
  (gs.splitOnP fun g ↦ !g.2.isLiteral).flatMap (List.splitBy fun g h ↦ g.2 == h.2)

def literalGlyphs (gs : List Glyph) : List Glyph := gs.filter fun g ↦ g.2.isLiteral

theorem literalGlyphs_append (a b : List Glyph) :
    literalGlyphs (a ++ b) = literalGlyphs a ++ literalGlyphs b := List.filter_append ..

theorem literalGlyphs_map (cs : List Char) (r : Region) :
    literalGlyphs (cs.map (·, r)) = if r.isLiteral then cs.map (·, r) else [] := by
  cases hr : r.isLiteral <;> simp [literalGlyphs, List.filter_map, Function.comp_def, hr]

theorem literals_append_cons {g : Glyph} (hg : g.2.isLiteral = false) (u v : List Glyph) :
    literals (u ++ g :: v) = literals u ++ literals v := by
  have hsep : (!g.2.isLiteral) = true := by rw [hg]; rfl
  rw [literals, List.splitOnP_append_cons u v hsep, List.flatMap_append]
  rfl

theorem flatten_literals (gs : List Glyph) : (literals gs).flatten = literalGlyphs gs := by
  have hparts (ps : List (List Glyph)) :
      (ps.flatMap (List.splitBy fun g h ↦ g.2 == h.2)).flatten = ps.flatten := by
    induction ps with
    | nil => rfl
    | cons p ps ih => rw [List.flatMap_cons, List.flatten_append, List.flatten_splitBy, ih,
        List.flatten_cons]
  rw [literals, hparts]
  induction gs with
  | nil => rfl
  | cons g gs ih =>
    rw [List.splitOnP_cons_eq_if_modifyHead, literalGlyphs, List.filter_cons, ← literalGlyphs, ← ih]
    cases hg : g.2.isLiteral with
    | false => simp
    | true =>
      obtain ⟨p, ps, hp⟩ := List.exists_cons_of_ne_nil
        (List.splitOnP_ne_nil (fun g : Glyph ↦ !g.2.isLiteral) gs)
      simp [hp]

/-- Wherever one of the two stretches stands, the other one leaves the literals as they are. -/
def SameLiterals (a b : List Glyph) : Prop := ∀ u v, literals (u ++ a ++ v) = literals (u ++ b ++ v)

theorem SameLiterals.refl (a : List Glyph) : SameLiterals a a := fun _ _ ↦ rfl

theorem SameLiterals.trans {a b c : List Glyph} (hab : SameLiterals a b) (hbc : SameLiterals b c) :
    SameLiterals a c := fun u v ↦ (hab u v).trans (hbc u v)

theorem SameLiterals.append {a b c d : List Glyph} (hab : SameLiterals a b)
    (hcd : SameLiterals c d) : SameLiterals (a ++ c) (b ++ d) := by
  intro u v
  have h₁ := hab u (c ++ v)
  have h₂ := hcd (u ++ b) v
  simp only [List.append_assoc] at h₁ h₂ ⊢
  rw [h₁, h₂]

theorem literals_lead {a : List Glyph} (ha : ∀ g ∈ a, g.2.isLiteral = false) (v : List Glyph) :
    literals (a ++ v) = literals v := by
  induction a with
  | nil => rfl
  | cons g a ih =>
    have h := literals_append_cons (ha g List.mem_cons_self) [] (a ++ v)
    rw [List.cons_append, ← List.nil_append (g :: _), h, ih fun g' hg' ↦ ha g' (by simp [hg'])]
    rfl

/-- What parts literals may be anything that is no literal. -/
theorem sameLiterals_of_not_literal {a b : List Glyph} (ha : ∀ g ∈ a, g.2.isLiteral = false)
    (hne : a ≠ []) (hb : ∀ g ∈ b, g.2.isLiteral = false) (hne' : b ≠ []) : SameLiterals a b := by
  have h {a : List Glyph} (ha : ∀ g ∈ a, g.2.isLiteral = false) (hne : a ≠ []) (u v : List Glyph) :
      literals (u ++ a ++ v) = literals u ++ literals v := by
    obtain ⟨g, a, rfl⟩ := List.exists_cons_of_ne_nil hne
    rw [List.append_assoc, List.cons_append, literals_append_cons (ha g List.mem_cons_self),
      literals_lead fun g' hg' ↦ ha g' (List.mem_cons_of_mem g hg')]
  intro u v
  rw [h ha hne, h hb hne']

theorem not_literal_map {r : Region} (hr : r.isLiteral = false) (cs : List Char) :
    ∀ g ∈ cs.map (·, r), g.2.isLiteral = false := by
  simp [hr]

def beforeTag (tag text : List Char) : List Char := (trimEnd text).rdrop tag.length

def tagGap (tag text : List Char) : List Char := (beforeTag tag text).rtakeWhile isBlank

def SparesTag (l : MarkedLine) (p : Placed) : Prop :=
  ∀ name type tag, p.line.cells? = some (.field name type (some tag)) →
    ∀ g, (l.glyphs.take (beforeTag tag l.text).length).getLast? = some g →
      g.2.isLiteral = true → tagGap tag p.text = tagGap tag l.text

/-- Writing a line takes no blanks from its literals and adds none. -/
structure Spares (l : MarkedLine) (p : Placed) : Prop where
  trail : l.verbatim = false → ∀ g, l.glyphs.getLast? = some g → g.2.isLiteral = true →
    isBlank g.1 = false
  tag : SparesTag l p

theorem beforeTag_append {tag trail : List Char} (a : List Char)
    (ht : ∀ c, tag.getLast? = some c → isBlank c = false) (hne : tag ≠ []) (hb : Blanks trail) :
    beforeTag tag (a ++ tag ++ trail) = a := by
  have hlast : ∀ c, (a ++ tag).getLast? = some c → isBlank c = false := by
    intro c hc
    rw [List.getLast?_append_of_ne_nil _ hne] at hc
    exact ht c hc
  rw [beforeTag, trimEnd_append hlast hb, List.rdrop, List.length_append, Nat.add_sub_cancel,
    List.take_left]

theorem tagGap_append {tag type gap trail : List Char} (a : List Char)
    (ht : ∀ c, tag.getLast? = some c → isBlank c = false) (hne : tag ≠ [])
    (htype : ∀ c, type.getLast? = some c → isBlank c = false) (htne : type ≠ []) (hg : Blanks gap)
    (hb : Blanks trail) : tagGap tag (a ++ type ++ gap ++ tag ++ trail) = gap := by
  rw [tagGap, beforeTag_append _ ht hne hb]
  obtain ⟨type, c, rfl⟩ := (List.eq_nil_or_concat type).resolve_left htne
  have hc : isBlank c = false := htype c (by simp)
  rw [List.rtakeWhile, List.reverse_append,
    List.takeWhile_append_of_pos fun c hc ↦ hg c (List.mem_reverse.1 hc)]
  simp [hc]

/-- A line with columns, whatever stands around it, has the gap before its tag. -/
theorem tagGap_join {name type tag gap tg trail : List Char} (lead : List Char)
    (hp : (Cells.field name type (some tag)).Proper)
    (hg : (Cells.field name type (some tag)).Gaps gap tg) (hb : Blanks trail) :
    tagGap tag (lead ++ (Cells.field name type (some tag)).join gap tg ++ trail) = tg := by
  obtain ⟨-, hne, htight, -, htag⟩ := hp
  obtain ⟨hquote, hlast⟩ := htag tag rfl
  have htne : tag ≠ [] := by
    rintro rfl
    cases hquote
  have h := tagGap_append (lead ++ name ++ gap) hlast htne htight.last hne hg.tagBlanks hb
  simpa only [Cells.join, List.append_assoc] using h

/-- The second stretch has the literals of the first one exactly if `kept` holds. -/
structure Keeps (kept : Prop) (a b : List Glyph) : Prop where
  same : kept → SameLiterals a b
  kept : ∀ u v, literalGlyphs (a ++ u) = literalGlyphs (b ++ v) →
    kept ∧ literalGlyphs u = literalGlyphs v

namespace Keeps

variable {k k' : Prop} {a b c d : List Glyph}

theorem refl (a : List Glyph) : Keeps True a a where
  same _ := .refl a
  kept u v h := by
    rw [literalGlyphs_append, literalGlyphs_append] at h
    exact ⟨trivial, List.append_cancel_left h⟩

theorem congr (h : Keeps k a b) (hk : k ↔ k') : Keeps k' a b where
  same hk' := h.same (hk.2 hk')
  kept u v huv := (h.kept u v huv).imp_left hk.1

theorem append (hab : Keeps k a b) (hcd : Keeps k' c d) : Keeps (k ∧ k') (a ++ c) (b ++ d) where
  same hk := (hab.same hk.1).append (hcd.same hk.2)
  kept u v h := by
    rw [List.append_assoc, List.append_assoc] at h
    obtain ⟨hk, h⟩ := hab.kept _ _ h
    obtain ⟨hk', h⟩ := hcd.kept _ _ h
    exact ⟨⟨hk, hk'⟩, h⟩

/-- Both replacements leave the character between them as it is. -/
theorem glue {g : Glyph} (hab : Keeps k (a ++ [g]) (b ++ [g])) (hcd : Keeps k' (g :: c) (g :: d)) :
    Keeps (k ∧ k') (a ++ g :: c) (b ++ g :: d) where
  same hk := by
    have h₁ := (hab.same hk.1).append (.refl c)
    have h₂ := (SameLiterals.refl b).append (hcd.same hk.2)
    rw [List.append_assoc, List.append_assoc] at h₁
    exact h₁.trans h₂
  kept u v h := by
    have h₁ : literalGlyphs (a ++ [g] ++ (c ++ u)) = literalGlyphs (b ++ [g] ++ (d ++ v)) := by
      simpa using h
    obtain ⟨hk, h₂⟩ := hab.kept _ _ h₁
    have h₃ : literalGlyphs ([g] ++ (c ++ u)) = literalGlyphs ([g] ++ (d ++ v)) := by
      rw [literalGlyphs_append, h₂, ← literalGlyphs_append]
    obtain ⟨hk', h₄⟩ := hcd.kept _ _ h₃
    exact ⟨⟨hk, hk'⟩, h₄⟩

theorem trans_same (h : Keeps k a b) (hbc : SameLiterals b c) : Keeps k a c where
  same hk := (h.same hk).trans hbc
  kept u v huv := by
    refine h.kept u v (huv.trans ?_)
    have hv := hbc [] v
    rw [List.nil_append, List.nil_append] at hv
    rw [← flatten_literals, ← flatten_literals, hv]

theorem literals_eq_iff (h : Keeps k a b) : literals b = literals a ↔ k := by
  constructor
  · intro he
    have hg : literalGlyphs (a ++ []) = literalGlyphs (b ++ []) := by
      rw [List.append_nil, List.append_nil, ← flatten_literals, ← flatten_literals, he]
    exact (h.kept _ _ hg).1
  · intro hk
    simpa using (h.same hk [] []).symm

end Keeps

theorem literalGlyphs_eq_nil {a : List Glyph} (ha : ∀ g ∈ a, g.2.isLiteral = false) :
    literalGlyphs a = [] := List.filter_eq_nil_iff.2 fun g hg ↦ by simp [ha g hg]

theorem keeps_of_not_literal {a b : List Glyph} (ha : ∀ g ∈ a, g.2.isLiteral = false)
    (hne : a ≠ []) (hb : ∀ g ∈ b, g.2.isLiteral = false) (hne' : b ≠ []) : Keeps True a b where
  same _ := sameLiterals_of_not_literal ha hne hb hne'
  kept u v h := by
    rw [literalGlyphs_append, literalGlyphs_append, literalGlyphs_eq_nil ha,
      literalGlyphs_eq_nil hb] at h
    exact ⟨trivial, h⟩

/-- Blanks in front of a character of the same literal can be told from it. -/
theorem eq_of_map_append_eq {gap gap' : List Char} {r : Region} {g : Glyph} {u v : List Glyph}
    (hg : Blanks gap) (hg' : Blanks gap') (hgb : isBlank g.1 = false)
    (h : gap.map (·, r) ++ g :: u = gap'.map (·, r) ++ g :: v) : gap = gap' := by
  have htake {gap : List Char} (hg : Blanks gap) (u : List Glyph) :
      (gap.map (·, r) ++ g :: u).takeWhile (fun g ↦ isBlank g.1) = gap.map (·, r) := by
    have hall : ∀ g ∈ gap.map (·, r), isBlank g.1 = true := by
      intro g hmem
      obtain ⟨c, hc, rfl⟩ := List.mem_map.1 hmem
      exact hg c hc
    rw [List.takeWhile_append_of_pos hall, List.takeWhile_cons_of_neg (by simp [hgb]),
      List.append_nil]
  have he : gap.map (·, r) = gap'.map (·, r) := by
    rw [← htake hg u, h, htake hg' v]
  simpa only [glyphText_map_pair] using congrArg glyphText he

theorem keeps_gap {gap gap' : List Char} {r : Region} {b : List Glyph} (hg : Blanks gap)
    (hne : gap ≠ []) (hg' : Blanks gap') (hne' : gap' ≠ [])
    (hb : r.isLiteral = true → ∃ g b', b = g :: b' ∧ g.2.isLiteral = true ∧ isBlank g.1 = false) :
    Keeps (r.isLiteral = true → gap = gap') (gap.map (·, r) ++ b) (gap'.map (·, r) ++ b) := by
  cases hr : r.isLiteral with
  | false =>
    have h := keeps_of_not_literal (not_literal_map hr gap) (by simpa using hne)
      (not_literal_map hr gap') (by simpa using hne')
    exact (h.append (.refl b)).congr (by simp)
  | true =>
    obtain ⟨g, b, rfl, hgl, hgb⟩ := hb hr
    refine ⟨fun hk ↦ ?_, fun u v h ↦ ?_⟩
    · rw [hk rfl]
      exact .refl _
    · have hsplit (gap : List Char) (u : List Glyph) :
          literalGlyphs (gap.map (·, r) ++ g :: b ++ u) =
            gap.map (·, r) ++ g :: literalGlyphs (b ++ u) := by
        rw [List.append_assoc, literalGlyphs_append, literalGlyphs_map, if_pos hr]
        simp [literalGlyphs, hgl]
      obtain rfl : gap = gap' := by
        have h' := h
        rw [hsplit, hsplit] at h'
        exact eq_of_map_append_eq hg hg' hgb h'
      exact ⟨fun _ ↦ rfl, ((Keeps.refl _).kept u v h).2⟩

/-- The blanks that end a line belong to a literal only if it goes on after the line. -/
theorem isLiteral_of_nextLine {q r : Region} (h : q.nextLine = some r) :
    q.isLiteral = r.isLiteral := by
  cases q <;> cases h <;> rfl

theorem isLiteral_of_mem_trail {q r : Region} {a trail : List Glyph}
    (h : LineMarked q (a ++ trail) r) (ht : Blanks (glyphText trail)) :
    ∀ g ∈ trail, g.2.isLiteral = r.isLiteral := by
  intro g hg
  obtain ⟨hs, q', hm, hq⟩ := h
  obtain ⟨m, ha, htm⟩ := marked_append.1 hm
  have hsingle : '\n' ∉ glyphText trail := by
    rw [glyphText_append, List.mem_append, not_or] at hs
    exact hs.2
  have hf : m.Fits (upcoming trail none) := ha.fits trivial
  obtain ⟨he, hin⟩ := htm.spaces_eq hf (spaces_of_blanks ht hsingle) (List.ne_nil_of_mem hg)
  cases hin
  rw [he] at hg
  obtain ⟨c, -, rfl⟩ := List.mem_map.1 hg
  exact isLiteral_of_nextLine hq

theorem keeps_trail {r : Region} {trail : List Glyph} (hs : '\n' ∉ glyphText trail)
    (ht : ∀ g ∈ trail, g.2.isLiteral = r.isLiteral) :
    Keeps (r.isLiteral = true → trail = []) (trail ++ [('\n', r)]) [('\n', r)] := by
  cases hr : r.isLiteral with
  | false =>
    refine (keeps_of_not_literal (fun g hg ↦ ?_) (by simp) (by simpa using hr) (by simp)).congr
      (by simp)
    rcases List.mem_append.1 hg with hg | hg
    · rw [ht g hg, hr]
    · rw [List.mem_singleton.1 hg, hr]
  | true =>
    cases trail with
    | nil => exact (Keeps.refl _).congr (by simp)
    | cons g trail =>
      refine ⟨fun hk ↦ (by simp at hk), fun u v h ↦ ?_⟩
      have hg : g.2.isLiteral = true := by rw [ht g List.mem_cons_self, hr]
      simp only [literalGlyphs, List.cons_append, List.filter_cons, hg, hr, if_true,
        List.nil_append,
        List.cons.injEq] at h
      refine absurd ?_ hs
      rw [glyphText_cons, h.1]
      exact List.mem_cons_self

/-- A trimmed line loses the blanks at its end; the rest is up to what becomes of its middle. -/
theorem keeps_line {r : Region} {lead core trail core' : List Glyph} {k : Prop}
    (hl : LineMarked .code (lead ++ core ++ trail) r) (hlead : Blanks (glyphText lead))
    (htrail : Blanks (glyphText trail)) (h : Keeps k core core') (n : Nat) :
    Keeps (k ∧ (r.isLiteral = true → trail = []))
      (('\n', .code) :: (lead ++ core ++ trail) ++ [('\n', r)])
      (('\n', .code) :: ((List.replicate n '\t').map (·, .code) ++ core') ++ [('\n', r)]) := by
  have hs := hl.single
  simp only [glyphText_append, List.mem_append, not_or] at hs
  obtain ⟨⟨hsl, -⟩, hst⟩ := hs
  have hcode : lead = (glyphText lead).map (·, .code) := by
    obtain ⟨-, q, hm, -⟩ := hl
    rw [List.append_assoc] at hm
    exact (hm.drop_lead (spaces_of_blanks hlead hsl)).1
  have hhead : Keeps True (('\n', .code) :: lead)
      (('\n', .code) :: (List.replicate n '\t').map (·, .code)) := by
    have hnot (cs : List Char) : ∀ g ∈ ('\n', Region.code) :: cs.map (·, Region.code),
        g.2.isLiteral = false := by
      intro g hg
      rcases List.mem_cons.1 hg with rfl | hg
      · rfl
      · exact not_literal_map rfl cs g hg
    rw [hcode]
    exact keeps_of_not_literal (hnot _) (by simp) (hnot _) (by simp)
  have hend := keeps_trail hst (isLiteral_of_mem_trail hl htrail)
  have hall := (hhead.append h).append hend
  simp only [List.cons_append, List.append_assoc] at hall ⊢
  exact hall.congr (by simp)

/-- The end of a line is spared exactly if no blanks of an open raw string are cut off. -/
theorem spares_trail_iff {r : Region} {lead core trail : List Glyph}
    (hl : LineMarked .code (lead ++ core ++ trail) r) (hlead : Blanks (glyphText lead))
    (htrail : Blanks (glyphText trail)) (hcore : Tight (glyphText core)) :
    (∀ g, (lead ++ core ++ trail).getLast? = some g → g.2.isLiteral = true →
      isBlank g.1 = false) ↔ (r.isLiteral = true → trail = []) := by
  have hregion := isLiteral_of_mem_trail hl htrail
  constructor
  · intro h hr
    by_contra hne
    have hlast := List.getLast?_eq_some_getLast hne
    have hmem := List.getLast_mem hne
    have hg :=
      h _ (by rw [List.getLast?_append_of_ne_nil _ hne, hlast]) (by rw [hregion _ hmem, hr])
    rw [htrail _ (List.mem_map_of_mem hmem)] at hg
    cases hg
  · intro h g hg hlit
    by_cases ht : trail = []
    · subst ht
      by_cases hc : core = []
      · -- Only blanks of code are left.
        subst hc
        simp only [List.append_nil] at hl hg
        have hgl := isLiteral_of_mem_trail (a := []) hl hlead g (List.mem_of_getLast? hg)
        obtain ⟨hs, q, hm, hq⟩ := hl
        have hin := (eq_of_marked_plain hm fun c hc ↦ isPlain_of_isBlank (hlead c hc)).2
        cases hin
        rw [← isLiteral_of_nextLine hq, hlit] at hgl
        cases hgl
      · rw [List.append_nil, List.getLast?_append_of_ne_nil _ hc] at hg
        refine hcore.last g.1 ?_
        rw [glyphText, List.getLast?_map, hg]
        rfl
    · rw [List.getLast?_append_of_ne_nil _ ht] at hg
      rw [hregion g (List.mem_of_getLast? hg)] at hlit
      exact absurd (h hlit) ht

/-- A literal's characters stay in it up to its delimiter, which is still its own. -/
theorem region_of_read {r r' : Region} {c : Char} {next : Option Char} {m : Mode}
    (hr : r.isLiteral = true) (h : (Mode.inside r).read c next = some (r', m)) : r' = r := by
  have hlit {q : Region} (hq : readLiteral q c next = some (r', m)) : r' = q := by
    unfold readLiteral at hq
    split_ifs at hq <;> simp_all
  cases r with
  | str => exact hlit h
  | rune => exact hlit h
  | rawStr => simpa [Mode.read, eq_comm] using (Prod.mk.inj (Option.some_inj.1 h)).1
  | code => cases hr
  | lineComment => cases hr
  | blockComment => cases hr

/-- Blanks inside a literal are followed by another of its characters. -/
theorem exists_literal_head {q q' reg : Region} {a gap b : List Glyph}
    (h : Marked none (.inside q) (a ++ gap ++ b) (.inside q'))
    (he : gap = (glyphText gap).map (·, reg)) (hs : Spaces (glyphText gap)) (hne : gap ≠ [])
    (hr : reg.isLiteral = true) {c : Char} (hc : (glyphText b).head? = some c)
    (hb : isBlank c = false := by decide) :
    ∃ g b', b = g :: b' ∧ g.2.isLiteral = true ∧ isBlank g.1 = false := by
  obtain ⟨m₁, hpre, hrest⟩ := marked_append.1 h
  obtain ⟨m₂, ha, hgap⟩ := marked_append.1 hpre
  obtain ⟨hregion, rfl⟩ := hgap.spaces_eq (ha.fits trivial) hs hne
  obtain rfl : m₂.region = reg := by
    obtain ⟨g, gap, rfl⟩ := List.exists_cons_of_ne_nil hne
    have hhead := congrArg List.head? (he.symm.trans hregion)
    simpa [eq_comm] using hhead
  cases hrest with
  | nil => cases hc
  | @cons _ m' _ d r' b hread _ =>
    obtain rfl : d = c := by simpa using hc
    obtain rfl := region_of_read hr hread
    exact ⟨_, b, rfl, hr, hb⟩

/-- Where a quiet beginning is followed by columns, only what follows can hold literals. -/
theorem keeps_lead {name : List Char} (hn : isWord name = true) (lead lead' : List Char)
    (v : List Glyph) :
    Keeps True ((name ++ lead).map (·, .code) ++ v) ((name ++ lead').map (·, .code) ++ v) := by
  have hne (lead : List Char) : (name ++ lead).map (·, Region.code) ≠ [] := by
    obtain ⟨c, tail, rfl, -⟩ := exists_of_isWord hn
    simp
  exact ((keeps_of_not_literal (not_literal_map rfl _) (hne lead) (not_literal_map rfl _)
    (hne lead')).append (.refl v)).congr (by simp)

def KeepsTagGap (c : Cells) (gap tagGap tagGap' : List Char) (core : List Glyph) : Prop :=
  ∀ name type tag, c = .field name type (some tag) →
    ∀ g, (core.take (name ++ (gap ++ (type ++ tagGap))).length).getLast? = some g →
      g.2.isLiteral = true → tagGap' = tagGap

theorem exists_keeps_tagged {name type tag gap tagGap gap' tagGap' : List Char}
    (hp : (Cells.field name type (some tag)).Proper)
    (hg : (Cells.field name type (some tag)).Gaps gap tagGap)
    (hg' : (Cells.field name type (some tag)).Gaps gap' tagGap') (hspaces : Spaces tagGap')
    {core : List Glyph} {q : Region} (hsingle : '\n' ∉ glyphText core)
    (ht : glyphText core = (Cells.field name type (some tag)).join gap tagGap)
    (hm : Marked none (.inside .code) core (.inside q)) :
    ∃ core', glyphText core' = (Cells.field name type (some tag)).join gap' tagGap' ∧
      Marked none (.inside .code) core' (.inside q) ∧
      Keeps (KeepsTagGap (.field name type (some tag)) gap tagGap tagGap' core) core core' := by
  obtain ⟨hname, -, -, -, htag⟩ := hp
  obtain ⟨hquote, -⟩ := htag tag rfl
  obtain ⟨ty, tg, r, rfl, rfl, rfl, hspaced, hm, hm'⟩ :=
    exists_tagged_columns hname hg hg' hspaces hsingle ht hm
  have hne := hg.tagGap_ne_nil
  refine ⟨_, ?_, hm', ?_⟩
  · simp only [glyphText_append, glyphText_map_pair, Cells.join, List.append_assoc]
  · have hgap := keeps_gap (r := r) hspaced.blanks hne hspaces.blanks hg'.tagGap_ne_nil
      fun hr ↦ exists_literal_head hm (by rw [glyphText_map_pair])
        (by rwa [glyphText_map_pair]) (by simpa using hne) hr hquote
    have hall := (keeps_lead hname gap gap' ty).append hgap
    simp only [List.append_assoc] at hall ⊢
    refine hall.congr ?_
    rw [true_and]
    have hlast : (((name ++ gap).map (·, Region.code) ++ (ty ++ (tagGap.map (·, r) ++ tg))).take
        (name ++ (gap ++ (glyphText ty ++ tagGap))).length).getLast? =
        some (tagGap.getLast hne, r) := by
      have htake : (name ++ (gap ++ (glyphText ty ++ tagGap))).length =
          ((name ++ gap).map (·, Region.code) ++ ty ++ tagGap.map (·, r)).length := by
        simp [glyphText]
      rw [htake, ← List.append_assoc, ← List.append_assoc, List.take_left,
        List.getLast?_append_of_ne_nil _ (by simpa using hne), List.getLast?_map,
        List.getLast?_eq_some_getLast hne, Option.map_some]
    constructor
    · rintro hk _ _ _ ⟨⟩ g hg hl
      rw [hlast] at hg
      cases hg
      exact (hk hl).symm
    · intro hk hr
      exact (hk name (glyphText ty) (glyphText tg) rfl _ hlast hr).symm

/-- The gaps of a line may change: its literals stay as they are unless blanks before a tag are
theirs. -/
theorem exists_keeps_cells {c : Cells} {gap tagGap gap' tagGap' : List Char} (hp : c.Proper)
    (hg : c.Gaps gap tagGap) (hg' : c.Gaps gap' tagGap') (hspaces : Spaces tagGap')
    {core : List Glyph} {q : Region} (hsingle : '\n' ∉ glyphText core)
    (ht : glyphText core = c.join gap tagGap) (hm : Marked none (.inside .code) core (.inside q)) :
    ∃ core', glyphText core' = c.join gap' tagGap' ∧
      Marked none (.inside .code) core' (.inside q) ∧
      Keeps (KeepsTagGap c gap tagGap tagGap' core) core core' := by
  -- Without a tag the line is a quiet beginning and one more column.
  have hplain {name sep sep' : List Char} {rest : List Char} (hn : isWord name = true)
      (hs : Quiet sep) (hs' : Quiet sep') (ht : glyphText core = (name ++ sep) ++ rest) :
      ∃ core', glyphText core' = (name ++ sep') ++ rest ∧
        Marked none (.inside .code) core' (.inside q) ∧ Keeps True core core' := by
    obtain ⟨lead, v, rfl, hlead, rfl⟩ := exists_of_glyphText_eq_append ht
    have hquiet : Quiet (glyphText lead) := hlead ▸ (quiet_of_isWord hn).append hs
    obtain ⟨he, hm'⟩ := hm.replace_lead hquiet ((quiet_of_isWord hn).append hs')
    refine ⟨_, by rw [glyphText_append, glyphText_map_pair], hm', ?_⟩
    rw [he, hlead]
    exact keeps_lead hn _ _ v
  rcases c with ⟨name, type, _ | tag⟩ | ⟨key, value⟩
  · rw [Cells.join, ← List.append_assoc] at ht
    obtain ⟨core', ht', hm', hk⟩ := hplain hp.1 (quiet_of_blanks hg.blanks)
      (quiet_of_blanks hg'.blanks) ht
    refine ⟨core', by rw [ht', Cells.join, List.append_assoc], hm', hk.congr ?_⟩
    simp [KeepsTagGap]
  · exact exists_keeps_tagged hp hg hg' hspaces hsingle ht hm
  · have hquiet {gap : List Char} (h : Blanks gap) : Quiet (':' :: gap) := by
      refine Quiet.append (a := [':']) ⟨?_, ?_⟩ (quiet_of_blanks h)
      · simp [isPlain, Region.delimiter]
      · simp [Unbracketed, isOpening, isClosing]
    rw [Cells.join, ← List.cons_append, ← List.append_assoc] at ht
    obtain ⟨core', ht', hm', hk⟩ := hplain hp.1 (hquiet hg.blanks) (hquiet hg'.blanks) ht
    refine ⟨core', by rw [ht', Cells.join, List.append_assoc, List.cons_append], hm', hk.congr ?_⟩
    simp [KeepsTagGap]

/-- What stands before the tag ends alike with the blanks around the line and without them. -/
theorem getLast?_take_beforeTag {name type tag gap tg : List Char} {lead core trail : List Glyph}
    (hp : (Cells.field name type (some tag)).Proper)
    (ht : glyphText core = (Cells.field name type (some tag)).join gap tg)
    (hb : Blanks (glyphText trail)) :
    ((lead ++ core ++ trail).take
      (beforeTag tag (glyphText (lead ++ core ++ trail))).length).getLast? =
      (core.take (name ++ (gap ++ (type ++ tg))).length).getLast? := by
  obtain ⟨hname, -, -, -, htag⟩ := hp
  obtain ⟨hquote, hlast⟩ := htag tag rfl
  have htne : tag ≠ [] := by
    rintro rfl
    cases hquote
  have hbefore : beforeTag tag (glyphText (lead ++ core ++ trail)) =
      glyphText lead ++ (name ++ (gap ++ (type ++ tg))) := by
    rw [← beforeTag_append (glyphText lead ++ (name ++ (gap ++ (type ++ tg)))) hlast htne hb]
    simp only [glyphText_append, ht, Cells.join, List.append_assoc]
  have hlen : (name ++ (gap ++ (type ++ tg))).length ≤ core.length := by
    have h := congrArg List.length ht
    rw [glyphText, List.length_map] at h
    rw [h, Cells.join]
    simp only [List.length_append]
    omega
  have hne : core.take (name ++ (gap ++ (type ++ tg))).length ≠ [] := by
    obtain ⟨c, cs, rfl, -⟩ := exists_of_isWord hname
    rw [← List.length_pos_iff, List.length_take]
    simp only [List.length_append, List.length_cons] at hlen ⊢
    omega
  have hlead : (glyphText lead).length = lead.length := List.length_map _
  rw [hbefore, List.length_append, hlead, List.append_assoc, List.take_length_add_append,
    List.take_append_of_le_length hlen, List.getLast?_append_of_ne_nil _ hne]

theorem tagGap_indent {line : Line} {name type tag : List Char}
    (hc : line.cells? = some (.field name type (some tag))) (n : Nat) :
    tagGap tag (List.replicate n '\t' ++ trim line.text) = tagGap tag line.text := by
  have hcol := columned_of_cells? hc
  obtain ⟨gap, tg, htext, hg⟩ := hcol.text
  obtain ⟨lead, trail, he, -, htrail, -⟩ := exists_trim line.text
  have h₁ := tagGap_join (List.replicate n '\t') hcol.proper hg blanks_nil
  have h₂ := tagGap_join lead hcol.proper hg htrail
  rw [← htext] at h₁ h₂
  rw [List.append_nil] at h₁
  rw [← he] at h₂
  rw [h₁, h₂]

theorem keepsTagGap_iff {line : Line} {c : Cells} {l : MarkedLine} {lead core trail : List Glyph}
    {gap tg : List Char} (hc : line.cells? = some c) (he : l.glyphs = lead ++ core ++ trail)
    (hcore : glyphText core = c.join gap tg) (hg : c.Gaps gap tg)
    (htrail : Blanks (glyphText trail)) (n i j : Nat) :
    KeepsTagGap c gap tg (List.replicate (j + 1) ' ') core ↔
      SparesTag l ⟨line, some (List.replicate n '\t' ++
        c.join (List.replicate (i + 1) ' ') (List.replicate (j + 1) ' '))⟩ := by
  have hp := (columned_of_cells? hc).proper
  unfold KeepsTagGap SparesTag
  simp only [hc, Option.some_inj]
  refine forall_congr' fun name ↦ forall_congr' fun type ↦ forall_congr' fun tag ↦
    forall_congr' fun hcell ↦ ?_
  subst hcell
  have hnew := tagGap_join (List.replicate n '\t') hp (gaps_replicate _ i j) blanks_nil
  have hold := tagGap_join (glyphText lead) hp hg htrail
  rw [List.append_nil] at hnew
  rw [← hcore, ← glyphText_append, ← glyphText_append, ← he] at hold
  rw [MarkedLine.text_eq, hold, Placed.text, Option.getD_some, hnew, he,
    getLast?_take_beforeTag hp hcore htrail]

theorem keeps_written {line : Line} {x : Option (List Char)} {l : MarkedLine} {r : Region}
    {lead core trail core' : List Glyph} {k : Prop} (he : l.glyphs = lead ++ core ++ trail)
    (hv : l.verbatim = false) (hl : LineMarked .code l.glyphs r) (hlead : Blanks (glyphText lead))
    (htrail : Blanks (glyphText trail)) (htight : Tight (glyphText core)) (hk : Keeps k core core')
    (htag : k ↔ SparesTag l ⟨line, x⟩) (n : Nat) :
    Keeps (Spares l ⟨line, x⟩) (('\n', .code) :: l.glyphs ++ [('\n', r)])
      (('\n', .code) :: ((List.replicate n '\t').map (·, .code) ++ core') ++ [('\n', r)]) := by
  rw [he] at hl ⊢
  refine (keeps_line hl hlead htrail hk n).congr ?_
  rw [← spares_trail_iff hl hlead htrail htight, ← he, htag]
  exact ⟨fun h ↦ ⟨fun _ ↦ h.2, h.1⟩, fun h ↦ ⟨h.tag, h.trail hv⟩⟩

/-- The written line has the literals of the line exactly if it spares them. -/
theorem Written.exists_keeps {line : Line} {x : Option (List Char)} (hw : Written line x)
    {frames : List Frame} {q r : Region} {l : MarkedLine} {after : Nesting}
    (hq : q.nextLine = some q) (hv : l.verbatim = q.spansLines) (hl : LineMarked q l.glyphs r)
    (hn : LineNested frames l line after) :
    ∃ gs, glyphText gs = x.getD [] ∧ LineMarked q gs r ∧
      Keeps (Spares l ⟨line, x⟩) (('\n', q) :: l.glyphs ++ [('\n', r)])
        (('\n', q) :: gs ++ [('\n', r)]) := by
  have hcode (h : line.verbatim = false) : q = .code := by
    refine eq_code_of_spansLines hq ?_
    rw [← hv, ← hn.line_verbatim, h]
  obtain ⟨lead, core, trail, he, hlead, htrail, hcore⟩ := exists_glyphs_trim l.glyphs
  rw [← hn.line_text] at hcore
  have htight : Tight (glyphText core) := hcore ▸ tight_trim line.text
  have hcoreMarked (hc : q = .code) : LineMarked .code core r := by
    subst hc
    exact (he ▸ hl).core hlead htrail
  cases hw with
  | verbatim h =>
    refine ⟨l.glyphs, hn.line_text.symm, hl, (Keeps.refl _).congr (iff_of_true trivial ⟨?_, ?_⟩)⟩
    · intro hf
      rw [← hn.line_verbatim, h] at hf
      cases hf
    · intro name type tag hc
      have hf := (columned_of_cells? hc).verbatim
      rw [h] at hf
      cases hf
  | blank h ht =>
    obtain rfl := hcode h
    rw [ht] at hcore
    obtain rfl := glyphText_eq_nil.1 hcore
    refine ⟨[], rfl, hcoreMarked rfl, ?_⟩
    refine keeps_written he (hn.line_verbatim ▸ h) hl hlead htrail htight (.refl [])
      (iff_of_true trivial ?_) 0
    intro name type tag hc
    obtain ⟨gap, tg, htext, -⟩ := (columned_of_cells? hc).text
    obtain ⟨d, hd, -⟩ := exists_head?_join (columned_of_cells? hc).proper gap tg
    rw [← htext, ht] at hd
    cases hd
  | indented h ht =>
    obtain rfl := hcode h
    have hspaces := spaces_replicate_tab (line.indent (trim line.text))
    refine ⟨_, ?_, (hcoreMarked rfl).indent hspaces, ?_⟩
    · rw [glyphText_append, glyphText_map_pair, hcore]
      rfl
    · refine keeps_written he (hn.line_verbatim ▸ h) hl hlead htrail htight (.refl core)
        (iff_of_true trivial ?_) _
      intro name type tag hc g _ _
      rw [MarkedLine.text_eq, ← hn.line_text]
      exact tagGap_indent hc _
  | @aligned n i j c hc =>
    have hcol := columned_of_cells? hc
    obtain rfl := hcode hcol.verbatim
    obtain ⟨gap, tg, htext, hg⟩ := hcol.text
    have hg' : c.Gaps _ _ := gaps_replicate c i j
    obtain ⟨hsingle, q, hm, hq'⟩ := hcoreMarked rfl
    rw [htext] at hcore
    obtain ⟨core', hcore', hm', hk⟩ := exists_keeps_cells hcol.proper hg hg'
      (spaces_replicate_space _) hsingle hcore hm
    have hsingle' : '\n' ∉ glyphText core' := by
      intro h
      rw [hcore'] at h
      rcases mem_join gap tg h with h | h | h
      · exact hsingle (hcore ▸ h)
      · cases List.eq_of_mem_replicate h
      · cases List.eq_of_mem_replicate h
    refine ⟨_, ?_, LineMarked.indent ⟨hsingle', q, hm', hq'⟩ (spaces_replicate_tab n), ?_⟩
    · rw [glyphText_append, glyphText_map_pair, hcore']
      rfl
    · exact keeps_written he (hn.line_verbatim ▸ hcol.verbatim) hl hlead htrail htight hk
        (keepsTagGap_iff hc he hcore hg htrail n i j) n

/-- With a newline at its end, a marked text is its lines, each ended by one. -/
theorem exists_ended {r q : Region} {gs : List Glyph} (hr : r.nextLine = some r)
    (h : Marked none (.inside r) gs (.inside q)) (hq : q.nextLine = some .code) :
    ∃ ended, (ended = gs ∨ ended = gs ++ [('\n', .code)]) ∧
      Marked none (.inside r) ended (.inside .code) ∧
      glyphText ended = joinLines ((cutLines r.spansLines [] gs).map MarkedLine.text) := by
  induction hn : gs.length using Nat.strongRecOn generalizing r gs with
  | ind n ih =>
    rcases newline_cases gs with hs | ⟨a, r₂, b, rfl, ha⟩
    · by_cases he : gs = []
      · subst he
        cases h
        rw [hr, Option.some_inj] at hq
        exact ⟨[], .inl rfl, hq ▸ .nil _, rfl⟩
      · refine ⟨gs ++ [('\n', .code)], .inr rfl, marked_line.2 ⟨⟨q, h, hq⟩, .nil _⟩, ?_⟩
        rw [cutLines_last hs, if_neg he]
        simp [MarkedLine.text_eq]
    · obtain ⟨⟨q', hm, hq'⟩, hb⟩ := marked_line.1 h
      have hlen : b.length < n := by
        simp only [List.length_append, List.length_cons] at hn
        omega
      obtain ⟨ended, he, hm', ht⟩ := ih b.length hlen (nextLine_nextLine hq') hb rfl
      refine ⟨a ++ ('\n', r₂) :: ended, ?_, marked_line.2 ⟨⟨q', hm, hq'⟩, hm'⟩, ?_⟩
      · exact he.imp (by rintro rfl; rfl) (by rintro rfl; simp)
      · rw [cutLines_line ha]
        simp [ht, MarkedLine.text_eq]

/-- The lines that are kept have the literals of all lines exactly if every line is spared. -/
theorem Reads.exists_keeps {st st' : Start} {ls : List MarkedLine} {lines : List Line}
    (h : Reads st ls lines st') (hst : st.region.nextLine = some st.region)
    {texts : List (Option (List Char))} {ps : List Placed} (hp : Placement lines texts ps)
    (previous : Option (List Char)) :
    ∃ gs gs', glyphText gs = joinLines (ls.map MarkedLine.text) ∧
      Marked none (.inside st.region) gs (.inside st'.region) ∧
      glyphText gs' = joinLines ((keep previous ps).map Placed.text) ∧
      Marked none (.inside st.region) gs' (.inside st'.region) ∧
      Keeps (List.Forall₂ Spares ls ps) (('\n', st.region) :: gs) (('\n', st.region) :: gs') := by
  obtain ⟨hlines, -, hw⟩ := hp
  induction h generalizing ps previous with
  | nil =>
    obtain rfl := List.map_eq_nil_iff.1 hlines
    exact ⟨[], [], rfl, .nil _, rfl, .nil _, (Keeps.refl _).congr (by simp)⟩
  | @cons st st' r l ls line lines after hv hl hn _ ih =>
    obtain ⟨p, ps, rfl, rfl, hps⟩ := List.map_eq_cons_iff.1 hlines
    have ih' (previous : Option (List Char)) :=
      ih hl.nextLine previous hps fun p' hp' ↦ hw p' (List.mem_cons_of_mem p hp')
    have hpw : Written p.line p.text? := hw p List.mem_cons_self
    obtain ⟨line', htext, hm, hk⟩ := hpw.exists_keeps hst hv hl hn
    have hline (previous : Option (List Char)) : ∃ gs gs',
        glyphText gs = joinLines ((l :: ls).map MarkedLine.text) ∧
        Marked none (.inside st.region) gs (.inside st'.region) ∧
        glyphText gs' = joinLines ((keep previous ps).map Placed.text) ∧
        Marked none (.inside r) gs' (.inside st'.region) ∧
        Keeps (List.Forall₂ Spares (l :: ls) (p :: ps)) (('\n', st.region) :: gs)
          (('\n', st.region) :: (line' ++ ('\n', r) :: gs')) := by
      obtain ⟨gs, gs', ht, hmark, ht', hmark', hrest⟩ := ih' previous
      refine ⟨l.glyphs ++ ('\n', r) :: gs, gs', ?_, marked_line.2 ⟨hl.marked, hmark⟩, ht', hmark',
        (hk.glue hrest).congr List.forall₂_cons.symm⟩
      simp [ht, MarkedLine.text_eq]
    rw [keep]
    split
    · next text hx =>
      obtain ⟨gs, gs', ht, hmark, ht', hmark', hall⟩ := hline (some text)
      refine ⟨gs, _, ht, hmark, ?_, marked_line.2 ⟨hm.marked, hmark'⟩, hall⟩
      simp [ht', htext, Placed.text]
    · next hx =>
      split_ifs
      · obtain ⟨gs, gs', ht, hmark, ht', hmark', hall⟩ := hline (some [])
        refine ⟨gs, _, ht, hmark, ?_, marked_line.2 ⟨hm.marked, hmark'⟩, hall⟩
        simp [ht', htext, Placed.text]
      · -- Of a line that is left out, only newlines of code remain.
        obtain ⟨gs, gs', ht, hmark, ht', hmark', hall⟩ := hline previous
        rw [hx] at hpw htext
        obtain ⟨rfl, -, -⟩ := hpw.dropped hst hv hl hn
        obtain rfl := glyphText_eq_nil.1 htext
        have hcode : st.region = .code := by
          cases hpw with
          | blank h _ =>
            refine eq_code_of_spansLines hst ?_
            rw [← hv, ← hn.line_verbatim, h]
        have hsame : SameLiterals [('\n', st.region), ('\n', st.region)] [('\n', st.region)] := by
          rw [hcode]
          exact sameLiterals_of_not_literal (by simp [Region.isLiteral]) (by simp)
            (by simp [Region.isLiteral]) (by simp)
        exact ⟨gs, gs', ht, hmark, ht', hmark', hall.trans_same (hsame.append (.refl gs'))⟩

/-- Layout keeps the literals of a text exactly if every line spares them. -/
theorem literals_format_iff {s t : String} (h : format s = .ok t) :
    ∃ gs gt lines, mark s.toList = .ok gs ∧ mark t.toList = .ok gt ∧ nest s.toList = .ok lines ∧
      (literals gt = literals gs ↔
        List.Forall₂ Spares (cutLines false [] gs) (place lines)) := by
  obtain ⟨lines, hnest, hlay⟩ := formatChars_eq_ok_iff.1 (format_eq_ok_iff.1 h)
  obtain ⟨gs, hmark, hreads⟩ := nest_eq_ok_iff.1 hnest
  obtain ⟨src, dst, hsrc, hmsrc, hdst, hmdst, hkeeps⟩ :=
    hreads.exists_keeps rfl (placement_place lines) none
  have hlead (a : List Glyph) : literals (('\n', .code) :: a) = literals a :=
    literals_lead (a := [('\n', .code)]) (by simp [Region.isLiteral]) a
  have hgs : literals src = literals gs := by
    obtain ⟨-, q, hm, hq⟩ := mark_eq_ok_iff.1 hmark
    obtain ⟨ended, he, hm', ht⟩ := exists_ended rfl hm hq
    obtain ⟨rfl, -⟩ := hmsrc.unique hm' (hsrc.trans ht.symm)
    rcases he with rfl | rfl
    · rfl
    · rw [literals_append_cons rfl]
      simp [literals]
  have hiff := hkeeps.literals_eq_iff
  rw [hlead src, hgs] at hiff
  rw [layOut_eq, tidy_arrange] at hlay
  cases hkept : (keep none (place lines)).map Placed.text with
  | nil =>
    rw [hkept] at hlay hdst
    obtain rfl := glyphText_eq_nil.1 hdst
    refine ⟨gs, [('\n', .code)], lines, hmark, ?_, hnest, hiff⟩
    rw [← hlay]
    rfl
  | cons u us =>
    rw [hkept] at hlay hdst
    refine ⟨gs, dst, lines, hmark, ?_, hnest, by rwa [hlead dst] at hiff⟩
    rw [← hlay]
    exact mark_eq_ok_iff.2 ⟨hdst, .code, hmdst, rfl⟩

theorem literals_format_iff_tagged :
    format "type T struct \x7b\na \"x   `y\"\nbb int `z`\n\x7d" =
        .ok "type T struct \x7b\n\ta  \"x  `y\"\n\tbb int `z`\n\x7d\n" ∧
      ∃ gs gt lines,
        mark "type T struct \x7b\na \"x   `y\"\nbb int `z`\n\x7d".toList = .ok gs ∧
        mark "type T struct \x7b\n\ta  \"x  `y\"\n\tbb int `z`\n\x7d\n".toList = .ok gt ∧
        nest "type T struct \x7b\na \"x   `y\"\nbb int `z`\n\x7d".toList = .ok lines ∧
        (literals gt = literals gs ↔
          List.Forall₂ Spares (cutLines false [] gs) (place lines)) := by
  have h : format "type T struct \x7b\na \"x   `y\"\nbb int `z`\n\x7d" =
      .ok "type T struct \x7b\n\ta  \"x  `y\"\n\tbb int `z`\n\x7d\n" :=
    format_ofList (by decide +kernel)
  exact ⟨h, literals_format_iff h⟩

/-- The blanks before the first line break of a raw string are lost. -/
theorem not_forall_literals_eq :
    ¬ ∀ s t gs gt, format s = .ok t → mark s.toList = .ok gs → mark t.toList = .ok gt →
      literals gt = literals gs := by
  intro h
  have hf : format "x := `a  \nb`\n" = .ok "x := `a\nb`\n" := format_ofList (by decide +kernel)
  obtain ⟨lines, hnest, hlay⟩ := formatChars_eq_ok_iff.1 (format_eq_ok_iff.1 hf)
  obtain ⟨gs, gt, hs, ht, -⟩ := content_layOut hnest
  rw [hlay] at ht
  have hne : (mark "x := `a\nb`\n".toList).toOption.map literals ≠
      (mark "x := `a  \nb`\n".toList).toOption.map literals := by decide +kernel
  rw [hs, ht] at hne
  exact hne (congrArg some (h _ _ gs gt hf hs ht))

end RpcStubs.Layout
