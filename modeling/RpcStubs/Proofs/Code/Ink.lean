import RpcStubs.Proofs.Code.Scanning
import RpcStubs.Proofs.Code.Usage
import RpcStubs.Proofs.Layout.Content

namespace RpcStubs.Layout

open Text

def Region.isComment : Region → Bool
  | .lineComment | .blockComment => true
  | _ => false

/-- The characters that can be seen outside comments, with their regions. -/
def ink (gs : List Glyph) : List Glyph := gs.filter fun g ↦ !g.2.isComment && !isBlank g.1

theorem ink_eq_filter (gs : List Glyph) : ink gs = (visible gs).filter fun g ↦ !g.2.isComment :=
  List.filter_filter.symm

theorem ink_line (a b : List Glyph) (r : Region) :
    ink (a ++ ('\n', r) :: b) = ink a ++ ink b := by
  have hblank : isBlank '\n' = true := by decide
  rw [ink, List.filter_append, List.filter_cons_of_neg (by simp [hblank])]
  rfl

/-- The texts can be marked, and outside comments they differ in blanks only, and in none that keeps
two words apart. -/
def SameCode (s t : List Char) : Prop :=
  ∃ gs gt, mark s = .ok gs ∧ mark t = .ok gt ∧ ink gt = ink gs ∧
    codeStretches gt = codeStretches gs

theorem sameCode_refl {s : List Char} {gs : List Glyph} (h : mark s = .ok gs) : SameCode s s :=
  ⟨gs, gs, h, h, rfl, rfl⟩

theorem SameCode.symm {s t : List Char} (h : SameCode s t) : SameCode t s := by
  obtain ⟨gs, gt, hs, ht, hink, hwords⟩ := h
  exact ⟨gt, gs, ht, hs, hink.symm, hwords.symm⟩

theorem SameCode.trans {s t u : List Char} (h : SameCode s t) (h' : SameCode t u) :
    SameCode s u := by
  obtain ⟨gs, gt, hs, ht, hink, hwords⟩ := h
  obtain ⟨gt', gu, ht', hu, hink', hwords'⟩ := h'
  obtain rfl := Except.ok.inj (ht.symm.trans ht')
  exact ⟨gs, gu, hs, hu, hink'.trans hink, hwords'.trans hwords⟩

theorem SameCode.append {a a' b b' : List Char} (ha : SameCode a a') (hb : SameCode b b') :
    SameCode (a ++ '\n' :: b) (a' ++ '\n' :: b') := by
  obtain ⟨ga, ga', hma, hma', hia, hwa⟩ := ha
  obtain ⟨gb, gb', hmb, hmb', hib, hwb⟩ := hb
  refine ⟨_, _, mark_line hma hmb, mark_line hma' hmb', ?_, ?_⟩
  · rw [ink_line, ink_line, hia, hib]
  · rw [codeStretches_line, codeStretches_line, hwa, hwb]

theorem SameCode.usedQualifiers_eq {s t : String} (h : SameCode s.toList t.toList) :
    usedQualifiers t = usedQualifiers s := by
  obtain ⟨gs, gt, hs, ht, -, hwords⟩ := h
  exact usedQualifiers_congr hs ht hwords

def Codeless (s : List Char) : Prop := SameCode [] s

theorem codeless_nil : Codeless [] := sameCode_refl rfl

theorem codeless_iff {s : List Char} :
    Codeless s ↔ ∃ gs, mark s = .ok gs ∧ ink gs = [] ∧ codeStretches gs = [] := by
  constructor
  · rintro ⟨_, gs, hnil, hs, hink, hwords⟩
    cases hnil
    exact ⟨gs, hs, hink, hwords⟩
  · rintro ⟨gs, hs, hink, hwords⟩
    exact ⟨[], gs, rfl, hs, hink, hwords⟩

/-- What stands above a text on lines of its own, without code, does not count. -/
theorem Codeless.above {s t t' : List Char} (hs : Codeless s) (ht : SameCode t t') :
    SameCode t (s ++ '\n' :: t') := by
  obtain ⟨gs, hms, his, hws⟩ := codeless_iff.1 hs
  obtain ⟨gt, gt', hmt, hmt', hit, hwt⟩ := ht
  refine ⟨gt, _, hmt, mark_line hms hmt', ?_, ?_⟩
  · rw [ink_line, his, hit, List.nil_append]
  · rw [codeStretches_line, hws, hwt, List.nil_append]

theorem Codeless.below {s t t' : List Char} (hs : Codeless s) (ht : SameCode t t') :
    SameCode t (t' ++ '\n' :: s) := by
  obtain ⟨gs, hms, his, hws⟩ := codeless_iff.1 hs
  obtain ⟨gt, gt', hmt, hmt', hit, hwt⟩ := ht
  refine ⟨gt, _, hmt, mark_line hmt' hms, ?_, ?_⟩
  · rw [ink_line, his, hit, List.append_nil]
  · rw [codeStretches_line, hws, hwt, List.append_nil]

theorem SameCode.of_newline {s t : List Char} (h : SameCode s (t ++ ['\n'])) : SameCode s t := by
  obtain ⟨gs, gt, hs, ht, hink, hwords⟩ := h
  obtain ⟨gt, hmark, rfl⟩ := exists_mark_of_newline ht
  refine ⟨gs, gt, hs, hmark, ?_, ?_⟩
  · rw [← hink, ink_line]
    exact (List.append_nil _).symm
  · rw [← hwords, codeStretches_line]
    exact (List.append_nil _).symm

theorem sameCode_blocks {ts ts' : List String}
    (h : List.Forall₂ (fun t t' ↦ SameCode t.toList t'.toList) ts ts') :
    SameCode ("\n\n".intercalate ts).toList ("\n\n".intercalate ts').toList := by
  have hgap (a b : List Char) : a ++ "\n\n".toList ++ b = a ++ '\n' :: ([] ++ '\n' :: b) := by simp
  rw [String.toList_intercalate, String.toList_intercalate]
  induction h with
  | nil => exact codeless_nil
  | @cons t t' ts ts' ht hts ih =>
    cases hts with
    | nil => simpa using ht
    | cons hu hus =>
      simp only [List.map_cons, List.intercalate_cons_cons] at ih ⊢
      rw [hgap, hgap]
      exact ht.append (codeless_nil.append ih)

theorem sameCode_terminated {α : Type} {l : List α} {e e' : α → String}
    (h : ∀ a ∈ l, SameCode (e a).toList (e' a).toList) {s s' : List Char} (hs : SameCode s s') :
    SameCode ((l.map e).flatMap (fun t ↦ t.toList ++ ['\n']) ++ s)
      ((l.map e').flatMap (fun t ↦ t.toList ++ ['\n']) ++ s') := by
  induction l with
  | nil => exact hs
  | cons a l ih =>
    have hrest := ih fun b hb ↦ h b (List.mem_cons_of_mem a hb)
    have hline := (h a List.mem_cons_self).append hrest
    simpa using hline

theorem codeless_lineComment {s : List Char} (h : '\n' ∉ s) : Codeless ('/' :: '/' :: s) := by
  refine codeless_iff.2
    ⟨_, mark_eq_ok_iff.2 ⟨glyphText_map_pair _ _, _, marked_comment h, rfl⟩, ?_, ?_⟩
  · refine List.filter_eq_nil_iff.2 fun g hg ↦ ?_
    obtain ⟨c, -, rfl⟩ := List.mem_map.1 hg
    simp [Region.isComment]
  · have hparting : Parting (List.replicate ('/' :: '/' :: s).length ' ') := by
      intro c hc
      rw [List.eq_of_mem_replicate hc]
      decide
    have hlead := stretches_lead hparting []
    rw [List.append_nil] at hlead
    rw [codeStretches, codeOnly_map (by decide), hlead]
    rfl

theorem codeless_render {c : Comment} (hc : c.Lined) : Codeless c.render.toList := by
  have hline (line : String) (h : '\n' ∉ line.toList) :
      Codeless (Comment.renderLine line).toList := by
    unfold Comment.renderLine
    split_ifs
    · exact codeless_lineComment (s := []) (by simp)
    · rw [String.toList_append]
      exact codeless_lineComment (s := ' ' :: line.toList) (by simp [h])
  by_cases hne : c.lines = []
  · rw [Comment.render, hne]
    exact codeless_nil
  · refine toList_intercalate_closed (fun _ _ ha hb ↦ ha.above hb) (by simpa using hne) ?_
    intro text htext
    obtain ⟨line, hmem, rfl⟩ := List.mem_map.1 htext
    exact hline line (hc line hmem)

theorem sameCode_above {c : Comment} (hc : c.Lined) {s : List Char} {t : String}
    (h : SameCode s t.toList) : SameCode s (c.above ++ t).toList := by
  by_cases hne : c.lines = []
  · rwa [above_of_nil hne]
  · rw [above_eq hne]
    exact (codeless_render hc).above h

theorem sameCode_format {s t : String} (h : format s = .ok t) : SameCode s.toList t.toList := by
  obtain ⟨lines, hnest, hlay⟩ := formatChars_eq_ok_iff.1 (format_eq_ok_iff.1 h)
  obtain ⟨gs, gt, hs, ht, hcontent⟩ := content_layOut hnest
  rw [hlay] at ht
  obtain ⟨gs', gt', hs', ht', hwords⟩ := codeStretches_format h
  obtain rfl := Except.ok.inj (hs.symm.trans hs')
  obtain rfl := Except.ok.inj (ht.symm.trans ht')
  refine ⟨gs, gt, hs, ht, ?_, hwords⟩
  rw [ink_eq_filter, ink_eq_filter, ← flatten_content, ← flatten_content, hcontent]

theorem SoundText.sameCode_fragment {s text : String} (h : SoundText [] s.toList []) {c : Char}
    (hc : s.toList.getLast? = some c) (hb : isBlank c = false)
    (ht : formatFragment s = .ok text) : SameCode s.toList text.toList := by
  obtain ⟨text', hformat, hfragment, -⟩ := h.exists_tidy hc hb
  obtain rfl := Except.ok.inj (hfragment.symm.trans ht)
  have hsame := sameCode_format hformat
  rw [String.toList_append] at hsame
  exact hsame.of_newline

theorem SoundText.sameCode_refl {frames frames' : List Frame} {s : List Char}
    (h : SoundText frames s frames') : SameCode s s := by
  obtain ⟨gs, q, htext, hm, hq, -⟩ := Sound.exists_marked h (pieces_ne_nil _ _)
  rw [intercalate_pieces] at htext
  exact Layout.sameCode_refl (mark_eq_ok_iff.2 ⟨htext, q, hm, hq⟩)

theorem sameCode_optional {front : List Char} {ts : List String} (hne : ts ≠ [])
    (hts : SameCode front ("\n\n".intercalate ts).toList) {bare body : String}
    (hb : SameCode bare.toList body.toList) :
    SameCode (front ++ '\n' :: '\n' :: bare.toList)
      ("\n\n".intercalate (ts ++ optional body)).toList := by
  unfold optional
  split_ifs with he
  · rw [String.isEmpty_iff.1 he] at hb
    rw [List.append_nil]
    have hbare : Codeless ('\n' :: bare.toList) := codeless_nil.above hb.symm
    exact (hbare.below hts.symm).symm
  · rw [String.toList_intercalate, List.map_append, intercalate_append _ (by simpa using hne)
      (by simp), ← String.toList_intercalate]
    have hgap := hts.append (codeless_nil.append hb)
    simpa using hgap

theorem sameCode_assemble {g g' : GoFile} {imports : ImportSet}
    (hp : SameCode ("\n\n".intercalate (preamble g imports)).toList
      ("\n\n".intercalate (preamble g' imports)).toList) {body body' : String}
    (hb : SameCode body.toList body'.toList) :
    SameCode (g.assemble imports body).toList (g'.assemble imports body').toList := by
  have hne (g : GoFile) : preamble g imports ≠ [] := by simp [preamble, frontMatter]
  have hbody := sameCode_optional (hne g) (hp.trans hp.symm) (hb.trans hb.symm)
  have hbody' := sameCode_optional (hne g') hp hb
  rw [assemble_eq, assemble_eq, String.toList_append, String.toList_append, ← preamble, ← preamble]
  exact (hbody.symm.trans hbody').append codeless_nil

theorem sameCode_preamble_refl {g : GoFile} (hg : g.header.Lined) {imports : ImportSet}
    (hp : ∀ i ∈ imports, Importable i) :
    SameCode ("\n\n".intercalate (preamble g imports)).toList
      ("\n\n".intercalate (preamble g imports)).toList := by
  have hne : preamble g imports ≠ [] := by simp [preamble, frontMatter]
  obtain ⟨gs, hmark, -⟩ := scans_blocks hne (scans_of_mem_preamble hg hp)
  exact sameCode_refl hmark

end RpcStubs.Layout
