import RpcStubs.Proofs.Layout.Settled

namespace RpcStubs.Layout

open Text

theorem foldl_max_le_iff {ws : List Nat} {a m : Nat} :
    ws.foldl max a ≤ m ↔ a ≤ m ∧ ∀ w ∈ ws, w ≤ m := by
  induction ws generalizing a with
  | nil => simp
  | cons w ws ih =>
    rw [List.foldl_cons, ih, Nat.max_le, List.forall_mem_cons, and_assoc]

theorem maxOf_le_iff {ws : List Nat} {m : Nat} : maxOf ws ≤ m ↔ ∀ w ∈ ws, w ≤ m := by
  simp [maxOf, foldl_max_le_iff]

theorem pad_eq_iff {text : List Char} {width : Nat} :
    pad text width = text ++ [' '] ↔ width ≤ text.length := by
  rw [pad, List.append_cancel_left_eq]
  constructor
  · intro h
    have hlength := congrArg List.length h
    simp only [List.length_replicate, List.length_singleton] at hlength
    omega
  · intro h
    rw [Nat.sub_eq_zero_of_le h]
    rfl

structure Narrow (l : Line) : Prop where
  code : l.slot ≠ .comment
  columns : ∀ depth c, l.slot = .cells depth c → ∃ name type, c = .field name type none ∧
    l.indented = some (List.replicate depth '\t' ++ (name ++ ' ' :: type))

/-- A line is only indented where no name in its run is longer. -/
theorem Narrow.alignSlot_iff {l : Line} (h : Narrow l) {depth : Nat} {c : Cells}
    (hs : l.slot = .cells depth c) (before after : List Slot) :
    (alignSlot before after l.slot).or l.indented = l.indented ↔
      ∀ c' ∈ runFrom depth before ++ runFrom depth after, c'.leadWidth ≤ c.leadWidth := by
  obtain ⟨name, type, rfl, hindented⟩ := h.columns depth c hs
  rw [hs, alignSlot, hindented]
  split_ifs with hrun
  · simp only [Bool.and_eq_true, List.isEmpty_iff] at hrun
    simp [hrun.1, hrun.2]
  · have hline : List.replicate depth '\t' ++ (name ++ ' ' :: type) =
        List.replicate depth '\t' ++ (name ++ [' '] ++ type) := by simp
    rw [Option.some_or, Option.some_inj, hline, List.append_cancel_left_eq, alignCells,
      List.append_cancel_right_eq, pad_eq_iff, maxOf_le_iff]
    simp only [List.map_append, List.map_cons, List.mem_append, List.mem_cons, List.mem_map,
      Cells.leadWidth]
    grind

/-- Neighbouring columns at one depth begin with names of one length. -/
def SameLead (s t : Slot) : Prop :=
  ∀ depth c c', s = .cells depth c → t = .cells depth c' → c.leadWidth = c'.leadWidth

theorem SameLead.symm {s t : Slot} (h : SameLead s t) : SameLead t s :=
  fun depth c c' hs ht ↦ (h depth c' c ht hs).symm

/-- Along a run that starts with the given columns the names keep their length. -/
theorem leadWidth_of_mem_runFrom {depth : Nat} {c : Cells} {slots : List Slot}
    (hcode : .comment ∉ slots) (h : (.cells depth c :: slots).IsChain SameLead) :
    ∀ c' ∈ runFrom depth slots, c'.leadWidth = c.leadWidth := by
  induction slots generalizing c with
  | nil => simp [runFrom]
  | cons s slots ih =>
    obtain ⟨hlead, hchain⟩ := List.isChain_cons_cons.1 h
    simp only [List.mem_cons, not_or] at hcode
    cases s with
    | comment => exact absurd rfl hcode.1
    | other => simp [runFrom]
    | cells depth' c₁ =>
      rw [runFrom]
      split_ifs with hdepth
      · subst hdepth
        have hwidth : c.leadWidth = c₁.leadWidth := hlead _ c c₁ rfl rfl
        intro c' hc'
        rcases List.mem_cons.1 hc' with rfl | hc'
        · exact hwidth.symm
        · rw [ih hcode.2 hchain c' hc', hwidth]
      · simp

theorem arrangeFrom_eq_of_isChain {before : List Slot} {lines : List Line}
    (hnarrow : ∀ l ∈ lines, Narrow l) (hcode : .comment ∉ before)
    (hbefore : ∀ l, lines.head? = some l → (l.slot :: before).IsChain SameLead)
    (h : (lines.map Line.slot).IsChain SameLead) :
    arrangeFrom before lines = lines.map Line.indented := by
  induction lines generalizing before with
  | nil => rfl
  | cons l lines ih =>
    have hl := hnarrow l List.mem_cons_self
    have hrest : .comment ∉ lines.map Line.slot := by
      intro hmem
      obtain ⟨l', hl', hslot⟩ := List.mem_map.1 hmem
      exact (hnarrow l' (List.mem_cons_of_mem l hl')).code hslot
    have habove := hbefore l rfl
    rw [arrangeFrom_cons, List.map_cons, List.cons.injEq]
    constructor
    · cases hs : l.slot with
      | comment => rfl
      | other => rfl
      | cells depth c =>
        rw [← hs, hl.alignSlot_iff hs]
        rw [hs] at habove
        rw [List.map_cons, hs] at h
        intro c' hc'
        rcases List.mem_append.1 hc' with hc' | hc'
        · exact (leadWidth_of_mem_runFrom hcode habove c' hc').le
        · exact (leadWidth_of_mem_runFrom hrest h c' hc').le
    · refine ih (fun l' hl' ↦ hnarrow l' (List.mem_cons_of_mem l hl'))
        (by simp [hcode, Ne.symm hl.code]) (fun l' hl' ↦ ?_) ?_
      · cases lines with
        | nil => cases hl'
        | cons l'' lines =>
          cases hl'
          exact List.isChain_cons_cons.2 ⟨(List.isChain_cons_cons.1 h).1.symm, habove⟩
      · rw [List.map_cons] at h
        exact h.of_cons

theorem isChain_of_arrangeFrom_eq {before : List Slot} {lines : List Line}
    (hnarrow : ∀ l ∈ lines, Narrow l)
    (h : arrangeFrom before lines = lines.map Line.indented) :
    (lines.map Line.slot).IsChain SameLead := by
  induction lines generalizing before with
  | nil => exact .nil
  | cons l lines ih =>
    rw [arrangeFrom_cons, List.map_cons, List.cons.injEq] at h
    obtain ⟨hfirst, hrest⟩ := h
    have htail := ih (fun l' hl' ↦ hnarrow l' (List.mem_cons_of_mem l hl')) hrest
    cases lines with
    | nil => exact .singleton _
    | cons l' lines =>
      refine List.isChain_cons_cons.2 ⟨fun depth c c' hs hs' ↦ ?_, htail⟩
      -- each of the two names is in the run of the other one
      rw [arrangeFrom_cons, List.map_cons, List.cons.injEq] at hrest
      have hle := ((hnarrow l List.mem_cons_self).alignSlot_iff hs _ _).1 hfirst c'
      have hge := ((hnarrow l' (by simp)).alignSlot_iff hs' _ _).1 hrest.1 c
      refine le_antisymm (hge ?_) (hle ?_)
      · simp [hs, runFrom]
      · simp [hs', runFrom]

/-- Lines with narrow columns are only indented where neighbours have names of one length. -/
theorem arrange_eq_iff {lines : List Line} (h : ∀ l ∈ lines, Narrow l) :
    arrange lines = lines.map Line.indented ↔ (lines.map Line.slot).IsChain SameLead := by
  constructor
  · exact isChain_of_arrangeFrom_eq h
  · exact arrangeFrom_eq_of_isChain h (by simp) fun l _ ↦ .singleton _

end RpcStubs.Layout
