import Mathlib.Data.List.Forall2
import RpcStubs.Proofs.Layout.Content

namespace RpcStubs.Layout

open Text

/-- The lines that stay are laid out as if the dropped ones had never been there, and none of them
has become an `else` that stands alone. -/
structure Settled (lines : List Line) : Prop where
  aligned : arrange ((keep none (place lines)).map Placed.line) =
    (keep none (place lines)).map Placed.text?
  attached : ∀ p ∈ keep none (place lines), p.Attached

theorem nextText_keep (previous : Option (List Char)) (ps : List Placed) :
    nextText ((keep previous ps).map Placed.text?) = nextText (ps.map Placed.text?) := by
  induction ps generalizing previous with
  | nil => rfl
  | cons p ps ih =>
    rw [keep]
    split
    · next text hx => simp [nextText, hx]
    · next hx =>
      have hskip : nextText ((p :: ps).map Placed.text?) = nextText (ps.map Placed.text?) := by
        simp [nextText, hx]
      split_ifs
      · have h := ih (some [])
        simp only [nextText, List.map_cons, hx, List.findSome?_cons] at h ⊢
        exact h
      · rw [hskip, ih]

theorem keepsBlank_congr {a b : List (Option (List Char))} (h : nextText a = nextText b)
    (previous : Option (List Char)) : keepsBlank previous a = keepsBlank previous b := by
  simp only [keepsBlank, h]

theorem keep_keep (previous : Option (List Char)) (ps : List Placed) :
    keep previous (keep previous ps) = keep previous ps := by
  induction ps generalizing previous with
  | nil => rfl
  | cons p ps ih =>
    conv_rhs => rw [keep]
    conv_lhs => rw [keep]
    split
    · next text hx =>
      rw [keep]
      simp only [hx, ih]
    · next hx =>
      split_ifs with hk
      · rw [keep]
        have hk' : keepsBlank previous ((keep (some []) ps).map Placed.text?) = true := by
          rwa [keepsBlank_congr (nextText_keep (some []) ps)]
        simp only [hx, hk', if_true, ih]
      · exact ih previous

theorem length_tidy_le (previous : Option (List Char)) (texts : List (Option (List Char))) :
    (tidy previous texts).length ≤ texts.length := by
  induction texts generalizing previous with
  | nil => exact Nat.le_refl _
  | cons x texts ih =>
    cases x with
    | some text => exact Nat.succ_le_succ (ih _)
    | none =>
      rw [tidy]
      split_ifs
      · exact Nat.succ_le_succ (ih _)
      · exact Nat.le_succ_of_le (ih _)

/-- Where nothing is dropped, the result is the list of all texts. -/
theorem tidy_eq_of_length {previous : Option (List Char)} {texts : List (Option (List Char))}
    (h : (tidy previous texts).length = texts.length) :
    tidy previous texts = texts.map fun x ↦ x.getD [] := by
  induction texts generalizing previous with
  | nil => rfl
  | cons x texts ih =>
    cases x with
    | some text =>
      rw [tidy] at h ⊢
      rw [ih (Nat.succ.inj h)]
      rfl
    | none =>
      rw [tidy] at h ⊢
      split_ifs at h ⊢
      · rw [ih (Nat.succ.inj h)]
        rfl
      · have hle := length_tidy_le previous texts
        rw [List.length_cons] at h
        omega

theorem slot_congr {l : Line} {text : List Char} (h : trim text = trim l.text) :
    Line.slot { l with text := text } = l.slot := by
  simp only [Line.slot, Line.cells?, h]

theorem Written.slot_eq {l : Line} {x : Option (List Char)} (h : Written l x) :
    Line.slot { l with text := x.getD [] } = l.slot := by
  cases h with
  | verbatim h => rfl
  | blank h ht => exact slot_congr ht.symm
  | indented h ht => exact slot_congr (trim_indent _ (tight_trim _))
  | @aligned n i j c hc =>
    have hcol := columned_of_cells? hc
    obtain ⟨gap, tagGap, htext, -⟩ := hcol.text
    have htight : Tight (c.join (List.replicate (i + 1) ' ') (List.replicate (j + 1) ' ')) :=
      tight_join hcol.proper
    have htrim := trim_indent n htight
    have hcells := hcol.cells?_join _ _ (gaps_replicate _ i j) _ htrim
    simp only [Line.slot, Option.getD_some, htrim, htext, isCommentText_join hcol.proper,
      Bool.false_and, hcells, hc]

theorem join_ne_nil {c : Cells} (hp : c.Proper) (gap tagGap : List Char) :
    c.join gap tagGap ≠ [] := by
  obtain ⟨d, hd, -⟩ := exists_head?_join hp gap tagGap
  intro h
  rw [h] at hd
  cases hd

/-- A line has no text if there is nothing in it, and this can be told from the result too. -/
theorem Written.eq_none_iff {l : Line} {x : Option (List Char)} (h : Written l x) :
    x = none ↔ l.verbatim = false ∧ trim (x.getD []) = [] := by
  cases h with
  | verbatim h => simp [h]
  | blank h ht => exact ⟨fun _ ↦ ⟨h, rfl⟩, fun _ ↦ rfl⟩
  | indented h ht =>
    rw [Option.getD_some, trim_indent _ (tight_trim _)]
    simp [ht]
  | aligned n i j hc =>
    have hp := (columned_of_cells? hc).proper
    rw [Option.getD_some, trim_indent n (tight_join hp)]
    simp [join_ne_nil hp]

theorem Written.eq_none_iff_blank {l : Line} {x : Option (List Char)} (h : Written l x) :
    x = none ↔ l.verbatim = false ∧ trim l.text = [] := by
  cases h with
  | verbatim h => simp [h]
  | blank h ht => simp [h, ht]
  | indented h ht => simp [ht]
  | aligned n i j hc =>
    obtain ⟨gap, tagGap, htext, -⟩ := (columned_of_cells? hc).text
    simp [htext, join_ne_nil (columned_of_cells? hc).proper]

theorem slot_of_dropped {l : Line} (h : Written l none) : l.slot = .other := by
  cases h with
  | blank h ht =>
    simp only [Line.slot, Line.cells?, ht, h]
    cases l.balanced with
    | false => rfl
    | true => rcases l.enclosing with _ | (_ | _) <;> rfl

/-- The second list is the first one without some of the lines that end runs. -/
inductive Thinned : List Slot → List Slot → Prop
  | nil : Thinned [] []
  | cons {a b : List Slot} (s : Slot) : Thinned a b → Thinned (s :: a) (s :: b)
  | drop {a b : List Slot} : Thinned a b → Thinned (.other :: a) b

/-- Runs can only grow. -/
theorem Thinned.runFrom_ne_nil {a b : List Slot} (h : Thinned a b) {depth : Nat}
    (ha : runFrom depth a ≠ []) : runFrom depth b ≠ [] := by
  induction h with
  | nil => exact ha
  | drop => exact absurd rfl ha
  | cons s _ ih =>
    cases s with
    | comment => exact ih ha
    | other => exact ha
    | cells d c =>
      rw [runFrom] at ha ⊢
      split_ifs at ha ⊢ with hd
      · simp
      · exact absurd rfl ha

theorem alignSlot_ne_none {before before' after after' : List Slot} {s : Slot}
    (hb : Thinned before before') (ha : Thinned after after')
    (h : alignSlot before after s ≠ none) : alignSlot before' after' s ≠ none := by
  cases s with
  | comment => exact h
  | other => exact h
  | cells depth c =>
    rw [alignSlot] at h ⊢
    simp only [Bool.and_eq_true, List.isEmpty_iff] at h ⊢
    have hruns : ¬(runFrom depth before' = [] ∧ runFrom depth after' = []) := by
      rintro ⟨hb', ha'⟩
      refine h (if_pos ⟨?_, ?_⟩)
      · exact not_not.1 fun hn ↦ hb.runFrom_ne_nil hn hb'
      · exact not_not.1 fun hn ↦ ha.runFrom_ne_nil hn ha'
    rw [if_neg hruns]
    exact Option.some_ne_none _

def arrangeFrom (before : List Slot) (lines : List Line) : List (Option (List Char)) :=
  List.zipWith (fun (l : Line) aligned ↦ aligned.or l.indented) lines
    (alignSlots before (lines.map Line.slot))

theorem arrangeFrom_cons (before : List Slot) (l : Line) (lines : List Line) :
    arrangeFrom before (l :: lines) =
      (alignSlot before (lines.map Line.slot) l.slot).or l.indented ::
        arrangeFrom (l.slot :: before) lines := rfl

/-- A line that was not aligned is indented as before. -/
theorem indented_result (l : Line) : Line.indented { l with text := l.indented.getD [] } =
    l.indented := by
  by_cases hv : l.verbatim = true
  · have h : l.indented = some l.text := by simp [Line.indented, hv]
    rw [h]
    exact h
  by_cases ht : trim l.text = []
  · have h : l.indented = none := by simp [Line.indented, hv, ht]
    rw [h, Line.indented, if_neg hv]
    rfl
  · have h : l.indented = some (List.replicate (l.indent (trim l.text)) '\t' ++ trim l.text) := by
      simp [Line.indented, hv, ht]
    have htrim := trim_indent (l.indent (trim l.text)) (tight_trim l.text)
    rw [h, Line.indented, if_neg hv]
    simp only [Option.getD_some, htrim]
    rw [if_neg (by simpa using ht)]
    rfl

theorem thinned_keep {lines : List Line} {texts : List (Option (List Char))} {ps : List Placed}
    (hp : Placement lines texts ps) (previous : Option (List Char)) :
    Thinned (lines.map Line.slot) ((keep previous ps).map fun p ↦ p.line.slot) := by
  obtain ⟨rfl, -, hw⟩ := hp
  induction ps generalizing previous with
  | nil => exact .nil
  | cons p ps ih =>
    have ih' (previous : Option (List Char)) :=
      ih previous fun p' hp' ↦ hw p' (List.mem_cons_of_mem p hp')
    rw [keep]
    split
    · exact .cons _ (ih' _)
    · next hx =>
      have hpw := hw p List.mem_cons_self
      rw [hx] at hpw
      split_ifs
      · exact .cons _ (ih' _)
      · rw [List.map_cons, List.map_cons, slot_of_dropped hpw]
        exact .drop (ih' _)

/-- Among the lines that are kept, the written lines are laid out like those they come from. -/
theorem arrangeFrom_result {lines : List Line} {before before' : List Slot}
    {previous : Option (List Char)} (hb : Thinned before before') {ps : List Placed}
    (hp : Placement lines (arrangeFrom before lines) ps) :
    arrangeFrom before' ((keep previous ps).map Placed.result) =
      arrangeFrom before' ((keep previous ps).map Placed.line) := by
  induction lines generalizing before before' previous ps with
  | nil =>
    obtain rfl := List.map_eq_nil_iff.1 hp.line_eq
    rfl
  | cons l lines ih =>
    obtain ⟨p, ps, rfl, rfl, hps⟩ := List.map_eq_cons_iff.1 hp.line_eq
    have htexts := hp.text?_eq
    rw [arrangeFrom_cons, List.map_cons, List.cons.injEq] at htexts
    obtain ⟨htext, htexts⟩ := htexts
    have hps' : Placement lines (arrangeFrom (p.line.slot :: before) lines) ps :=
      ⟨hps, htexts, fun p' hp' ↦ hp.written p' (List.mem_cons_of_mem p hp')⟩
    have hpw : Written p.line p.text? := hp.written p List.mem_cons_self
    -- a kept line is followed by the slots of its own neighbours, thinned out
    have hkept (previous : Option (List Char)) :
        arrangeFrom before' ((p :: keep previous ps).map Placed.result) =
          arrangeFrom before' ((p :: keep previous ps).map Placed.line) := by
      have hslots : ((keep previous ps).map Placed.result).map Line.slot =
          ((keep previous ps).map Placed.line).map Line.slot := by
        rw [List.map_map, List.map_map]
        exact List.map_congr_left fun p' hp' ↦ (hps'.written p' (keep_subset _ _ p' hp')).slot_eq
      have hthin := thinned_keep hps' previous
      rw [List.map_cons, List.map_cons, arrangeFrom_cons, arrangeFrom_cons,
        show p.result.slot = p.line.slot from hpw.slot_eq, ih (.cons _ hb) hps', hslots]
      congr 1
      cases ha : alignSlot before' (((keep previous ps).map Placed.line).map Line.slot)
          p.line.slot with
      | some text => rfl
      | none =>
        have hnone : alignSlot before (lines.map Line.slot) p.line.slot = none := by
          refine not_not.1 fun hn ↦ alignSlot_ne_none hb hthin hn ?_
          rw [List.map_map] at ha
          exact ha
        rw [hnone, Option.none_or] at htext
        rw [Option.none_or, Option.none_or, Placed.result, Placed.text, htext, indented_result]
    rw [keep]
    split
    · exact hkept _
    · next hx =>
      split_ifs
      · exact hkept _
      · rw [hx] at hpw
        refine ih (?_ : Thinned (p.line.slot :: before) before') hps'
        rw [slot_of_dropped hpw]
        exact .drop hb

theorem arrange_result (lines : List Line) :
    arrange ((keep none (place lines)).map Placed.result) =
      arrange ((keep none (place lines)).map Placed.line) :=
  arrangeFrom_result .nil (placement_place lines)

theorem joinLines_injective {a b : List (List Char)} (ha : ∀ t ∈ a, '\n' ∉ t)
    (hb : ∀ t ∈ b, '\n' ∉ t) (h : joinLines a = joinLines b) : a = b := by
  induction a generalizing b with
  | nil =>
    cases b with
    | nil => rfl
    | cons t b => simp at h
  | cons t a ih =>
    cases b with
    | nil => simp at h
    | cons t' b =>
      rw [joinLines_cons, joinLines_cons] at h
      have hcut := cutFirst_eq_some_iff.2 ⟨h, hb t' List.mem_cons_self⟩
      rw [cutFirst_eq_some_iff.2 ⟨rfl, ha t List.mem_cons_self⟩] at hcut
      obtain ⟨rfl, hrest⟩ := Prod.mk.inj (Option.some_inj.1 hcut)
      rw [ih (fun u hu ↦ ha u (List.mem_cons_of_mem t hu))
        (fun u hu ↦ hb u (List.mem_cons_of_mem t hu)) hrest]

theorem LinesMarked.single {r : Region} {ls : List MarkedLine} (h : LinesMarked r ls) :
    ∀ t ∈ ls.map MarkedLine.text, '\n' ∉ t := by
  induction h with
  | nil => simp
  | cons _ hl _ ih =>
    intro t ht
    rw [List.map_cons, List.mem_cons] at ht
    rcases ht with rfl | ht
    · exact hl.single
    · exact ih t ht

theorem LinesNested.tight {σ σ' : List Frame} {ls : List MarkedLine} {lines : List Line}
    (h : LinesNested σ ls lines σ') :
    ∀ l ∈ ls, l.verbatim = false → isLooseElse (trim l.text) = false := by
  induction h with
  | nil => simp
  | cons hl _ ih =>
    intro l' hl' hv
    rcases List.mem_cons.1 hl' with rfl | hl'
    · exact (hl.obeys hv).tight
    · exact ih l' hl' hv

theorem Reread.attached {st st' : Start} {ls ls' : List MarkedLine} {kept : List Placed}
    (h : Reread st ls st' kept ls')
    (ht : ∀ l ∈ ls', l.verbatim = false → isLooseElse (trim l.text) = false) :
    ∀ p ∈ kept, p.Attached := by
  intro p hp hv
  have hmem : (p.line.verbatim, p.text) ∈ ls'.map fun l ↦ (l.verbatim, l.text) := by
    rw [h.lines_eq]
    exact List.mem_map_of_mem hp
  obtain ⟨l, hl, he⟩ := List.mem_map.1 hmem
  obtain ⟨hlv, hlt⟩ := Prod.mk.inj he
  rw [← hlt]
  exact ht l hl (hlv.trans hv)

/-- Texts agree if they do so up to the difference between a blank line and an empty text. -/
theorem eq_of_written {kept : List Placed} (hk : ∀ p ∈ kept, Written p.line p.text?)
    {texts : List (Option (List Char))}
    (hw : List.Forall₂ Written (kept.map Placed.result) texts)
    (h : texts.map (fun x ↦ x.getD []) = kept.map Placed.text) :
    texts = kept.map Placed.text? := by
  induction kept generalizing texts with
  | nil =>
    cases hw
    rfl
  | cons p kept ih =>
    rw [List.map_cons] at hw h
    cases hw with
    | @cons _ x _ texts hx hxs =>
      obtain ⟨hx', hxs'⟩ := List.cons.inj h
      rw [List.map_cons, ih (fun p' hp' ↦ hk p' (List.mem_cons_of_mem p hp')) hxs hxs']
      congr 1
      have hnone : x = none ↔ p.text? = none := by
        rw [hx.eq_none_iff_blank, (hk p List.mem_cons_self).eq_none_iff]
        rfl
      have hget : x.getD [] = p.text?.getD [] := hx'
      cases x with
      | none => exact (hnone.1 rfl).symm
      | some a =>
        cases hp : p.text? with
        | none => exact absurd (hnone.2 hp) (Option.some_ne_none a)
        | some b =>
          rw [hp] at hget
          exact congrArg some hget

theorem written_of_mem_keep {lines : List Line} {p : Placed} (h : p ∈ keep none (place lines)) :
    Written p.line p.text? :=
  (placement_place lines).written p (keep_subset _ _ p h)

/-- Tidying the lines that are kept changes nothing. -/
theorem tidy_keep (ps : List Placed) :
    tidy none ((keep none ps).map Placed.text?) = (keep none ps).map Placed.text := by
  rw [tidy_eq_keep, keep_keep]

theorem layOut_result_eq_iff {lines : List Line} {kept : List Placed}
    (hkept : kept = keep none (place lines)) (hne : kept ≠ [])
    (hs : ∀ t ∈ kept.map Placed.text, '\n' ∉ t)
    (hs' : ∀ t ∈ tidy none (arrange (kept.map Placed.result)), '\n' ∉ t) :
    layOut (kept.map Placed.result) = joinLines (kept.map Placed.text) ↔
      arrange (kept.map Placed.result) = kept.map Placed.text? := by
  have hw := forall₂_written_arrange (kept.map Placed.result)
  have hk (p : Placed) (hp : p ∈ kept) : Written p.line p.text? :=
    written_of_mem_keep (hkept ▸ hp)
  have htidy : tidy none (kept.map Placed.text?) = kept.map Placed.text := by
    rw [hkept, tidy_keep]
  rw [layOut_eq]
  constructor
  · intro h
    have hlines : orEmptyLine (tidy none (arrange (kept.map Placed.result))) =
        kept.map Placed.text := by
      refine joinLines_injective ?_ hs h
      unfold orEmptyLine
      split_ifs
      · simp
      · exact hs'
    have hlen : (arrange (kept.map Placed.result)).length = kept.length := by
      rw [← List.length_map (f := Placed.result), hw.length_eq]
    refine eq_of_written hk hw ?_
    unfold orEmptyLine at hlines
    split_ifs at hlines with hnil
    · have hone : kept.length = 1 := by
        rw [← List.length_map (f := Placed.text), ← hlines]
        rfl
      obtain ⟨x, hx⟩ := List.length_eq_one_iff.1 (hlen.trans hone)
      rw [hx] at hnil ⊢
      cases x with
      | none => exact hlines
      | some text => cases hnil
    · rw [← hlines]
      refine (tidy_eq_of_length ?_).symm
      rw [hlines, hlen, List.length_map]
  · intro h
    rw [h, htidy]
    cases kept with
    | nil => exact absurd rfl hne
    | cons p kept => rfl

/-- The lines of a laid out text, if it can be read again. -/
theorem nest_kept_eq_ok_iff {ls ls' : List MarkedLine} {kept : List Placed}
    (h : Reread {} ls {} kept ls') {lines : List Line} :
    nest (joinLines (kept.map Placed.text)) = .ok lines ↔
      (∀ p ∈ kept, p.Attached) ∧ lines = kept.map Placed.result := by
  have hread (ha : ∀ p ∈ kept, p.Attached) :
      nest (joinLines (kept.map Placed.text)) = .ok (kept.map Placed.result) := by
    rw [← h.text_eq]
    exact nest_joinLines (h.reads ha)
  constructor
  · intro hn
    have ha : ∀ p ∈ kept, p.Attached := by
      obtain ⟨gs, hmark, hreads⟩ := nest_eq_ok_iff.1 hn
      obtain ⟨gs', hmark', hcut⟩ := exists_mark_joinLines (h.marked rfl)
      rw [h.text_eq, hmark] at hmark'
      cases hmark'
      rw [hcut] at hreads
      exact h.attached hreads.linesNested.tight
    rw [hread ha] at hn
    cases hn
    exact ⟨ha, rfl⟩
  · rintro ⟨ha, rfl⟩
    exact hread ha

theorem formatChars_layOut_iff {s : List Char} {lines : List Line} (h : nest s = .ok lines) :
    formatChars (layOut lines) = .ok (layOut lines) ↔ Settled lines := by
  obtain ⟨gs, -, hreads⟩ := nest_eq_ok_iff.1 h
  obtain ⟨ls, hre⟩ := hreads.exists_reread rfl (placement_place lines) none
  by_cases hne : keep none (place lines) = []
  · rw [layOut_eq, tidy_arrange, hne]
    refine ⟨fun _ ↦ ⟨by rw [hne]; rfl, by simp [hne]⟩, fun _ ↦ rfl⟩
  have hlay : layOut lines = joinLines ((keep none (place lines)).map Placed.text) := by
    rw [layOut_eq, tidy_arrange, orEmptyLine, if_neg (by simpa using hne)]
  have hs := (hre.marked rfl).single
  rw [hre.text_eq] at hs
  rw [hlay, formatChars_eq_ok_iff]
  constructor
  · rintro ⟨lines', hnest, heq⟩
    obtain ⟨ha, rfl⟩ := (nest_kept_eq_ok_iff hre).1 hnest
    obtain ⟨ls', hre'⟩ := (hre.reads ha).exists_reread rfl (placement_place _) none
    have hs' := (hre'.marked rfl).single
    rw [hre'.text_eq, ← tidy_arrange] at hs'
    refine ⟨?_, ha⟩
    rw [← arrange_result]
    exact (layOut_result_eq_iff rfl hne hs hs').1 heq
  · rintro ⟨haligned, ha⟩
    obtain ⟨ls', hre'⟩ := (hre.reads ha).exists_reread rfl (placement_place _) none
    have hs' := (hre'.marked rfl).single
    rw [hre'.text_eq, ← tidy_arrange] at hs'
    rw [← arrange_result] at haligned
    exact ⟨_, (nest_kept_eq_ok_iff hre).2 ⟨ha, rfl⟩,
      (layOut_result_eq_iff rfl hne hs hs').2 haligned⟩

/-- A laid out text stays as it is exactly if its lines were settled. -/
theorem format_again_iff {s t : String} (h : format s = .ok t) :
    format t = .ok t ↔ ∃ lines, nest s.toList = .ok lines ∧ Settled lines := by
  obtain ⟨lines, hnest, hlay⟩ := formatChars_eq_ok_iff.1 (format_eq_ok_iff.1 h)
  rw [format_eq_ok_iff, ← hlay, formatChars_layOut_iff hnest]
  constructor
  · exact fun hs ↦ ⟨lines, hnest, hs⟩
  · rintro ⟨lines', hnest', hs⟩
    rw [hnest] at hnest'
    cases hnest'
    exact hs

theorem format_again_struct :
    format "type T struct \x7b\na int\n\n\nbbb  string\nc int\n\n\x7d" =
        .ok "type T struct \x7b\n\ta int\n\n\tbbb string\n\tc   int\n\x7d\n" ∧
      (format "type T struct \x7b\n\ta int\n\n\tbbb string\n\tc   int\n\x7d\n" =
          .ok "type T struct \x7b\n\ta int\n\n\tbbb string\n\tc   int\n\x7d\n" ↔
        ∃ lines, nest "type T struct \x7b\na int\n\n\nbbb  string\nc int\n\n\x7d".toList =
          .ok lines ∧
          Settled lines) := by
  have h : format "type T struct \x7b\na int\n\n\nbbb  string\nc int\n\n\x7d" =
      .ok "type T struct \x7b\n\ta int\n\n\tbbb string\n\tc   int\n\x7d\n" :=
    format_ofList (by decide +kernel)
  exact ⟨h, format_again_iff h⟩

/-- A blank line after a comment that ends in a brace is dropped, and then the fields around it
are neighbours. -/
theorem format_again_aligns :
    format "type T struct \x7b\n\ta int // \x7b\n\n\tbbb string\n\x7d\n" =
        .ok "type T struct \x7b\n\ta int // \x7b\n\tbbb string\n\x7d\n" ∧
      format "type T struct \x7b\n\ta int // \x7b\n\tbbb string\n\x7d\n" =
        .ok "type T struct \x7b\n\ta   int // \x7b\n\tbbb string\n\x7d\n" := by
  constructor <;> exact format_ofList (by decide +kernel)

-- closing the gap behind a field that is called `else` makes it a clause
example :
    formatChars "type T struct \x7b\n\telse  \x7b\x7d\n\tb int\n\x7d\n".toList =
        .ok "type T struct \x7b\n\telse \x7b\x7d\n\tb    int\n\x7d\n".toList ∧
      formatChars "type T struct \x7b\n\telse \x7b\x7d\n\tb    int\n\x7d\n".toList =
        .error (.looseElse 2) := by
  rw [String.toList_ofList, String.toList_ofList]
  decide +kernel

end RpcStubs.Layout
