import RpcStubs.Proofs.Layout.Kept

namespace RpcStubs.Layout

open Text

theorem formatChars_eq_ok_iff {s t : List Char} :
    formatChars s = .ok t ↔ ∃ lines, nest s = .ok lines ∧ layOut lines = t := by
  unfold formatChars
  cases nest s <;> simp [Except.map]

theorem format_eq_ok_iff {s t : String} :
    format s = .ok t ↔ formatChars s.toList = .ok t.toList := by
  unfold format
  cases formatChars s.toList with
  | error fault => simp
  | ok text =>
    simp only [Except.ok.injEq]
    constructor
    · rintro rfl
      exact String.toList_ofList.symm
    · rintro rfl
      exact String.ofList_toList

theorem format_ofList {s t : List Char} (h : formatChars s = .ok t) :
    format (String.ofList s) = .ok (String.ofList t) :=
  format_eq_ok_iff.2 (by rwa [String.toList_ofList, String.toList_ofList])

theorem formatFragment_ofList {s t : List Char} (h : (formatChars s).map trim = .ok t) :
    formatFragment (String.ofList s) = .ok (String.ofList t) := by
  rw [formatFragment, format, String.toList_ofList]
  cases hs : formatChars s with
  | error fault =>
    rw [hs] at h
    cases h
  | ok text =>
    rw [hs] at h
    cases h
    simp [Except.map]

/-- The visible characters of a marked text line by line. Blank lines do not count. -/
def content (gs : List Glyph) : List (List Glyph) :=
  ((gs.splitOnP fun g ↦ g.1 == '\n').map visible).filter fun line ↦ !line.isEmpty

theorem content_eq_visibleLines (v : Bool) (gs : List Glyph) :
    content gs = visibleLines (cutLines v [] gs) := by
  have hno {a : List Glyph} (ha : '\n' ∉ glyphText a) : ∀ g ∈ a, (g.1 == '\n') = false := by
    intro g hg
    rw [beq_eq_false_iff_ne]
    rintro he
    exact ha (he ▸ List.mem_map_of_mem hg)
  induction hn : gs.length using Nat.strongRecOn generalizing v gs with
  | ind n ih =>
    rcases newline_cases gs with hs | ⟨a, r, b, rfl, ha⟩
    · rw [content, List.splitOnP_eq_singleton (hno hs), cutLines_last hs]
      split_ifs with he
      · subst he
        rfl
      · rfl
    · have hb : b.length < n := by
        simp only [List.length_append, List.length_cons] at hn
        omega
      have ih' := ih b.length hb r.spansLines b rfl
      rw [content, List.splitOnP_append_cons_of_forall_mem (hno ha) _ (by simp), List.map_cons,
        List.filter_cons, ← content, ih', cutLines_line ha, visibleLines_cons]
      split_ifs <;> simp_all

theorem flatten_content (gs : List Glyph) : (content gs).flatten = visible gs := by
  rw [content, List.flatten_filter_not_isEmpty]
  induction gs with
  | nil => rfl
  | cons g gs ih =>
    obtain ⟨line, lines, hlines⟩ :=
      List.exists_cons_of_ne_nil (List.splitOnP_ne_nil (fun g : Glyph ↦ g.1 == '\n') gs)
    rw [hlines] at ih
    rw [List.splitOnP_cons_eq_if_modifyHead, hlines]
    split_ifs with hg
    · have hblank : isBlank g.1 = true := by
        rw [beq_iff_eq.1 hg]
        decide
      have hskip : visible (g :: gs) = visible gs := List.filter_cons_of_neg (by simp [hblank])
      rw [hskip, ← ih]
      rfl
    · have hcons (gs : List Glyph) : visible (g :: gs) = visible [g] ++ visible gs :=
        visible_append [g] gs
      simp only [List.modifyHead_cons, List.map_cons, List.flatten_cons] at ih ⊢
      rw [hcons line, hcons gs, List.append_assoc, ih]

theorem content_layOut {s : List Char} {lines : List Line} (h : nest s = .ok lines) :
    ∃ gs gt, mark s = .ok gs ∧ mark (layOut lines) = .ok gt ∧ content gt = content gs := by
  obtain ⟨gs, hmark, hreads⟩ := nest_eq_ok_iff.1 h
  obtain ⟨ls, hre⟩ := hreads.exists_reread rfl (placement_place lines) none
  rw [layOut_eq, tidy_arrange, ← hre.text_eq]
  cases ls with
  | nil =>
    refine ⟨gs, [('\n', .code)], hmark, rfl, ?_⟩
    rw [content_eq_visibleLines false gs, ← hre.visible_eq]
    rfl
  | cons l ls =>
    obtain ⟨gt, hmark', hcut⟩ := exists_mark_joinLines (hre.marked rfl)
    refine ⟨gs, gt, hmark, hmark', ?_⟩
    rw [content_eq_visibleLines false gs, ← hre.visible_eq, ← hcut,
      ← content_eq_visibleLines false gt]

/-- Laying out a text only moves blanks. -/
theorem content_format {s t : String} (h : format s = .ok t) :
    ∃ gs gt, mark s.toList = .ok gs ∧ mark t.toList = .ok gt ∧ content gt = content gs := by
  obtain ⟨lines, hnest, hlay⟩ := formatChars_eq_ok_iff.1 (format_eq_ok_iff.1 h)
  rw [← hlay]
  exact content_layOut hnest

def looseStruct : String :=
  "type T struct \x7b\na   int  /* x\n\n  y */\n\n\n  bb  string `a  b`\n   c int\n\x7d"

def alignedStruct : String :=
  "type T struct \x7b\n\ta   int  /* x\n\n  y */\n\n\tbb string `a  b`\n\tc  int\n\x7d\n"

theorem content_format_struct :
    format looseStruct = .ok alignedStruct ∧
      ∃ gs gt, mark looseStruct.toList = .ok gs ∧ mark alignedStruct.toList = .ok gt ∧
        content gt = content gs := by
  have h : format looseStruct = .ok alignedStruct := format_ofList (by decide +kernel)
  exact ⟨h, content_format h⟩

end RpcStubs.Layout
