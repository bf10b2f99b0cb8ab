import Mathlib.Data.List.ReduceOption
import RpcStubs.Proofs.Layout.Written

namespace RpcStubs.Layout

open Text

structure Placed where
  line : Line
  text? : Option (List Char)

namespace Placed

def text (p : Placed) : List Char := p.text?.getD []

def result (p : Placed) : Line := { p.line with text := p.text }

/-- An `else` at the start of the written line is one that was there before. -/
def Attached (p : Placed) : Prop := p.line.verbatim = false → isLooseElse (trim p.text) = false

instance (p : Placed) : Decidable p.Attached := inferInstanceAs (Decidable (_ → _))

end Placed

def place (lines : List Line) : List Placed := List.zipWith Placed.mk lines (arrange lines)

def keep (previous : Option (List Char)) : List Placed → List Placed
  | [] => []
  | p :: rest =>
    match p.text? with
    | some text => p :: keep (some text) rest
    | none =>
      if keepsBlank previous (rest.map Placed.text?) then p :: keep (some []) rest
      else keep previous rest

theorem tidy_eq_keep (previous : Option (List Char)) (ps : List Placed) :
    tidy previous (ps.map Placed.text?) = (keep previous ps).map Placed.text := by
  induction ps generalizing previous with
  | nil => rfl
  | cons p ps ih =>
    obtain ⟨line, _ | text⟩ := p
    · simp only [List.map_cons, tidy, keep]
      split_ifs
      · rw [ih]
        rfl
      · exact ih previous
    · simp only [List.map_cons, tidy, keep, ih]
      rfl

theorem keep_sublist (previous : Option (List Char)) (ps : List Placed) :
    (keep previous ps).Sublist ps := by
  induction ps generalizing previous with
  | nil => exact .slnil
  | cons p ps ih =>
    rw [keep]
    split
    · exact (ih _).cons_cons p
    · split_ifs
      · exact (ih _).cons_cons p
      · exact (ih _).cons p

theorem keep_subset (previous : Option (List Char)) (ps : List Placed) :
    ∀ p ∈ keep previous ps, p ∈ ps := fun _ hp ↦ (keep_sublist previous ps).subset hp

theorem reduceOption_keep (previous : Option (List Char)) (ps : List Placed) :
    ((keep previous ps).map Placed.text?).reduceOption = (ps.map Placed.text?).reduceOption := by
  induction ps generalizing previous with
  | nil => rfl
  | cons p ps ih =>
    rw [keep]
    split
    · next text hx =>
      rw [List.map_cons, List.map_cons, hx, List.reduceOption_cons_of_some,
        List.reduceOption_cons_of_some, ih]
    · next hx =>
      split_ifs
      · rw [List.map_cons, List.map_cons, hx, List.reduceOption_cons_of_none,
          List.reduceOption_cons_of_none, ih]
      · rw [List.map_cons, hx, List.reduceOption_cons_of_none, ih]

/-- Placed lines are written as they should be. -/
structure Placement (lines : List Line) (texts : List (Option (List Char))) (ps : List Placed) :
    Prop where
  line_eq : ps.map Placed.line = lines
  text?_eq : ps.map Placed.text? = texts
  written : ∀ p ∈ ps, Written p.line p.text?

theorem placement_place (lines : List Line) : Placement lines (arrange lines) (place lines) := by
  have h := forall₂_written_arrange lines
  rw [place]
  generalize arrange lines = texts at h ⊢
  induction h with
  | nil => exact ⟨rfl, rfl, by simp⟩
  | cons hw _ ih =>
    refine ⟨?_, ?_, fun p hp ↦ ?_⟩
    · rw [List.zipWith_cons_cons, List.map_cons, ih.line_eq]
    · rw [List.zipWith_cons_cons, List.map_cons, ih.text?_eq]
    · rw [List.zipWith_cons_cons, List.mem_cons] at hp
      rcases hp with rfl | hp
      · exact hw
      · exact ih.written p hp

theorem tidy_arrange (lines : List Line) :
    tidy none (arrange lines) = (keep none (place lines)).map Placed.text := by
  rw [← (placement_place lines).text?_eq, tidy_eq_keep]

def orEmptyLine (texts : List (List Char)) : List (List Char) :=
  if texts.isEmpty then [[]] else texts

theorem layOut_eq (lines : List Line) :
    layOut lines = joinLines (orEmptyLine (tidy none (arrange lines))) := by
  have hjoin (t : List Char) (ts : List (List Char)) :
      List.intercalate ['\n'] (t :: ts) ++ ['\n'] = joinLines (t :: ts) := by
    induction ts generalizing t with
    | nil => simp
    | cons t' ts ih =>
      rw [List.intercalate_cons_cons, List.append_assoc, ih, joinLines_cons t]
      simp
  rw [layOut]
  cases tidy none (arrange lines) with
  | nil => rfl
  | cons t ts => exact hjoin t ts

def visibleLines (ls : List MarkedLine) : List (List Glyph) :=
  (ls.map fun l ↦ visible l.glyphs).filter fun gs ↦ !gs.isEmpty

theorem visibleLines_cons (l : MarkedLine) (ls : List MarkedLine) :
    visibleLines (l :: ls) =
      if visible l.glyphs = [] then visibleLines ls else visible l.glyphs :: visibleLines ls := by
  unfold visibleLines
  rw [List.map_cons, List.filter_cons]
  split_ifs <;> simp_all

theorem LineMarked.eq_of_nil {q r : Region} (hq : q.nextLine = some q) (h : LineMarked q [] r) :
    r = q := by
  obtain ⟨-, q', hm, hq'⟩ := h
  cases hm
  rw [hq] at hq'
  exact (Option.some_inj.1 hq').symm

theorem LineMarked.nextLine {q r : Region} {gs : List Glyph} (h : LineMarked q gs r) :
    r.nextLine = some r := by
  obtain ⟨-, q', -, hq'⟩ := h
  exact nextLine_nextLine hq'

theorem Written.dropped {line : Line} (hw : Written line none) {frames : List Frame} {q r : Region}
    {l : MarkedLine} {after : Nesting} (hq : q.nextLine = some q)
    (hv : l.verbatim = q.spansLines) (hl : LineMarked q l.glyphs r)
    (hn : LineNested frames l line after) :
    r = q ∧ after.frames = frames ∧ Respaced l.glyphs [] := by
  obtain ⟨gs, htext, hm, hsame, hnest⟩ := hw.exists_read hq hv hl hn
  obtain rfl := glyphText_eq_nil.1 htext
  have hrun := (hnest fun _ ↦ rfl).run_eq
  cases hrun
  exact ⟨hm.eq_of_nil hq, rfl, hsame⟩

/-- The kept lines, read again from the same place. -/
structure Reread (st : Start) (ls : List MarkedLine) (st' : Start) (kept : List Placed)
    (ls' : List MarkedLine) : Prop where
  lines_eq : ls'.map (fun l ↦ (l.verbatim, l.text)) = kept.map fun p ↦ (p.line.verbatim, p.text)
  visible_eq : visibleLines ls' = visibleLines ls
  stretches_eq : ls'.flatMap (fun l ↦ codeStretches l.glyphs) =
    ls.flatMap fun l ↦ codeStretches l.glyphs
  marked : st'.region = .code → LinesMarked st.region ls'
  reads : (∀ p ∈ kept, p.Attached) → Reads st ls' (kept.map Placed.result) st'

theorem Reread.text_eq {st st' : Start} {ls ls' : List MarkedLine} {kept : List Placed}
    (h : Reread st ls st' kept ls') : ls'.map MarkedLine.text = kept.map Placed.text := by
  simpa [Function.comp_def] using congrArg (List.map Prod.snd) h.lines_eq

theorem Reread.cons {st st' : Start} {r : Region} {l : MarkedLine} {ls ls' : List MarkedLine}
    {p : Placed} {kept : List Placed} {after : Nesting} {gs : List Glyph}
    (h : Reread ⟨r, after.frames⟩ ls st' kept ls') (hv : l.verbatim = st.region.spansLines)
    (hp : p.line.verbatim = l.verbatim) (htext : glyphText gs = p.text)
    (hm : LineMarked st.region gs r) (hsame : Respaced l.glyphs gs)
    (hn : p.Attached → LineNested st.frames ⟨l.verbatim, gs⟩ p.result after) :
    Reread st (l :: ls) st' (p :: kept) (⟨l.verbatim, gs⟩ :: ls') where
  lines_eq := by rw [List.map_cons, List.map_cons, h.lines_eq, MarkedLine.text_eq, htext, hp]
  visible_eq := by rw [visibleLines_cons, visibleLines_cons, h.visible_eq, hsame.visible_eq]
  stretches_eq := by rw [List.flatMap_cons, List.flatMap_cons, h.stretches_eq, hsame.stretches_eq]
  marked hc := .cons hv hm (h.marked hc)
  reads ha := .cons hv hm (hn (ha p List.mem_cons_self))
    (h.reads fun p' hp' ↦ ha p' (List.mem_cons_of_mem p hp'))

theorem Reread.drop {st st' : Start} {l : MarkedLine} {ls ls' : List MarkedLine}
    {kept : List Placed} (h : Reread st ls st' kept ls') (hsame : Respaced l.glyphs []) :
    Reread st (l :: ls) st' kept ls' where
  lines_eq := h.lines_eq
  visible_eq := by
    have hnone : visible l.glyphs = [] := hsame.visible_eq.symm
    rw [visibleLines_cons, if_pos hnone, h.visible_eq]
  stretches_eq := by
    rw [List.flatMap_cons, ← hsame.stretches_eq, h.stretches_eq]
    rfl
  marked := h.marked
  reads := h.reads

theorem Reads.exists_reread {st st' : Start} {ls : List MarkedLine} {lines : List Line}
    (h : Reads st ls lines st') (hst : st.region.nextLine = some st.region)
    {texts : List (Option (List Char))} {ps : List Placed} (hp : Placement lines texts ps)
    (previous : Option (List Char)) : ∃ ls', Reread st ls st' (keep previous ps) ls' := by
  obtain ⟨hlines, -, hw⟩ := hp
  induction h generalizing ps previous with
  | nil =>
    obtain rfl := List.map_eq_nil_iff.1 hlines
    exact ⟨[], rfl, rfl, rfl, fun hc ↦ by rw [hc]; exact .nil, fun _ ↦ .nil _⟩
  | @cons st st' r l ls line lines after hv hl hn _ ih =>
    obtain ⟨p, ps, rfl, rfl, hps⟩ := List.map_eq_cons_iff.1 hlines
    have ih' (previous : Option (List Char)) :=
      ih hl.nextLine previous hps fun p' hp' ↦ hw p' (List.mem_cons_of_mem p hp')
    have hpw : Written p.line p.text? := hw p List.mem_cons_self
    obtain ⟨gs, htext, hm, hsame, hnest⟩ := hpw.exists_read hst hv hl hn
    have hkept : p.Attached → LineNested st.frames ⟨l.verbatim, gs⟩ p.result after := by
      intro ha
      have h := hnest fun hp ↦ by rw [htext]; exact ha hp
      rwa [htext] at h
    rw [keep]
    split
    · next text hx =>
      obtain ⟨ls', h'⟩ := ih' (some text)
      exact ⟨_, h'.cons hv hn.line_verbatim htext hm hsame hkept⟩
    · next hx =>
      split_ifs
      · obtain ⟨ls', h'⟩ := ih' (some [])
        exact ⟨_, h'.cons hv hn.line_verbatim htext hm hsame hkept⟩
      · rw [hx] at hpw
        obtain ⟨rfl, hframes, hnone⟩ := hpw.dropped hst hv hl hn
        obtain ⟨ls', h'⟩ := ih' previous
        rw [hframes] at h'
        exact ⟨ls', h'.drop hnone⟩

end RpcStubs.Layout
