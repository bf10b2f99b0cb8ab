import Mathlib.Order.Bounds.Basic
import RpcStubs.Proofs.Layout.Alignment
import RpcStubs.Proofs.Layout.Sound

namespace RpcStubs.Layout

open Text

/-- A run goes on over line `k`: it is a comment, or has columns at this depth that `p` allows. -/
def GoesOver (p : Cells → Bool) (slots : List Slot) (depth k : Nat) : Prop :=
  slots[k]? = some .comment ∨ ∃ c, slots[k]? = some (.cells depth c) ∧ p c = true

/-- The lines `i` and `j` have columns at one depth that `p` allows, and a run goes on from one to
the other. -/
structure Linked (p : Cells → Bool) (slots : List Slot) (depth i j : Nat) : Prop where
  first : ∃ c, slots[i]? = some (.cells depth c) ∧ p c = true
  last : ∃ c, slots[j]? = some (.cells depth c) ∧ p c = true
  between : ∀ k, min i j < k → k < max i j → GoesOver p slots depth k

variable {p : Cells → Bool} {slots : List Slot} {depth i j k : Nat}

theorem linked_self {c : Cells} (h : slots[i]? = some (.cells depth c)) (hp : p c = true) :
    Linked p slots depth i i :=
  ⟨⟨c, h, hp⟩, ⟨c, h, hp⟩, fun k _ _ ↦ by omega⟩

theorem Linked.allowed (h : Linked p slots depth i j) {c : Cells}
    (hc : slots[j]? = some (.cells depth c)) : p c = true := by
  obtain ⟨c', hc', hp⟩ := h.last
  rw [hc] at hc'
  cases hc'
  exact hp

theorem Linked.symm (h : Linked p slots depth i j) : Linked p slots depth j i :=
  ⟨h.last, h.first, fun k hk hk' ↦ h.between k (by omega) (by omega)⟩

theorem Linked.trans (h : Linked p slots depth i j) (h' : Linked p slots depth j k) :
    Linked p slots depth i k := by
  refine ⟨h.first, h'.last, fun m hm hm' ↦ ?_⟩
  rcases Nat.lt_trichotomy m j with hj | rfl | hj
  · by_cases hi : i < m
    · exact h.between m (by omega) (by omega)
    · exact h'.between m (by omega) (by omega)
  · exact .inr h.last
  · by_cases hi : m < i
    · exact h.between m (by omega) (by omega)
    · exact h'.between m (by omega) (by omega)

theorem Linked.iff_of_linked (h : Linked p slots depth i j) :
    Linked p slots depth i k ↔ Linked p slots depth j k :=
  ⟨h.symm.trans, h.trans⟩

structure Reached (p : Cells → Bool) (slots : List Slot) (depth k : Nat) (c : Cells) : Prop where
  at_eq : slots[k]? = some (.cells depth c)
  allowed : p c = true
  passed : ∀ m < k, GoesOver p slots depth m

theorem exists_reached_cons {s : Slot} {c : Cells} :
    (∃ k, Reached p (s :: slots) depth k c) ↔
      s = .cells depth c ∧ p c = true ∨ (s = .comment ∨ ∃ c', s = .cells depth c' ∧ p c' = true) ∧
        ∃ k, Reached p slots depth k c := by
  constructor
  · rintro ⟨k, hk, hp, hall⟩
    cases k with
    | zero => exact .inl ⟨by simpa using hk, hp⟩
    | succ k =>
      have hfirst := hall 0 (Nat.zero_lt_succ k)
      refine .inr ⟨by simpa [GoesOver] using hfirst, k, by simpa using hk, hp, fun m hm ↦ ?_⟩
      simpa [GoesOver] using hall (m + 1) (Nat.succ_lt_succ hm)
  · rintro (⟨rfl, hp⟩ | ⟨hs, k, hk, hp, hall⟩)
    · exact ⟨0, rfl, hp, by simp⟩
    · refine ⟨k + 1, by simpa using hk, hp, fun m hm ↦ ?_⟩
      cases m with
      | zero => simpa [GoesOver] using hs
      | succ m => simpa [GoesOver] using hall m (Nat.lt_of_succ_lt_succ hm)

theorem mem_takeWhile_runFrom_iff {c : Cells} :
    c ∈ (runFrom depth slots).takeWhile p ↔ ∃ k, Reached p slots depth k c := by
  induction slots with
  | nil =>
    constructor
    · simp [runFrom]
    · rintro ⟨k, hk, -⟩
      simp at hk
  | cons s slots ih =>
    rw [exists_reached_cons, ← ih]
    cases s with
    | comment => simp [runFrom]
    | other => simp [runFrom]
    | cells d c' =>
      by_cases hd : d = depth
      · subst hd
        rw [runFrom, if_pos rfl, List.takeWhile_cons]
        by_cases hp : p c' = true
        · rw [if_pos hp]
          simp only [List.mem_cons, Slot.cells.injEq, true_and, reduceCtorEq, false_or]
          grind
        · rw [if_neg hp]
          simp only [List.not_mem_nil, Slot.cells.injEq, true_and, reduceCtorEq, false_or]
          grind
      · simp [runFrom, hd]

def runAbove (slots : List Slot) (depth i : Nat) : List Cells :=
  runFrom depth (slots.take i).reverse

def runBelow (slots : List Slot) (depth i : Nat) : List Cells :=
  runFrom depth (slots.drop (i + 1))

theorem mem_above_iff {c₀ c : Cells} (h : slots[i]? = some (.cells depth c₀)) (hp : p c₀ = true) :
    c ∈ (runAbove slots depth i).takeWhile p ↔
      ∃ j < i, Linked p slots depth i j ∧ slots[j]? = some (.cells depth c) := by
  have hi : i < slots.length := (List.getElem?_eq_some_iff.1 h).1
  have hat {m : Nat} (hm : m < i) : (slots.take i).reverse[m]? = slots[i - 1 - m]? := by
    rw [List.getElem?_reverse (by simp; omega), List.length_take, Nat.min_eq_left hi.le,
      List.getElem?_take_of_lt (by omega)]
  rw [runAbove, mem_takeWhile_runFrom_iff]
  constructor
  · rintro ⟨k, hk, hpc, hall⟩
    have hlt : k < i := by
      have hlength := (List.getElem?_eq_some_iff.1 hk).1
      simp only [List.length_reverse, List.length_take] at hlength
      omega
    rw [hat hlt] at hk
    refine ⟨i - 1 - k, by omega, ⟨⟨c₀, h, hp⟩, ⟨c, hk, hpc⟩, fun m hm hm' ↦ ?_⟩, hk⟩
    have hpass := hall (i - 1 - m) (by omega)
    rwa [GoesOver, hat (by omega), show i - 1 - (i - 1 - m) = m by omega] at hpass
  · rintro ⟨j, hj, hl, hc⟩
    refine ⟨i - 1 - j, ?_, hl.allowed hc, fun m hm ↦ ?_⟩
    · rwa [hat (by omega), show i - 1 - (i - 1 - j) = j by omega]
    · rw [GoesOver, hat (by omega)]
      exact hl.between (i - 1 - m) (by omega) (by omega)

theorem mem_below_iff {c₀ c : Cells} (h : slots[i]? = some (.cells depth c₀)) (hp : p c₀ = true) :
    c ∈ (runBelow slots depth i).takeWhile p ↔
      ∃ j > i, Linked p slots depth i j ∧ slots[j]? = some (.cells depth c) := by
  have hat (m : Nat) : (slots.drop (i + 1))[m]? = slots[i + 1 + m]? := List.getElem?_drop
  rw [runBelow, mem_takeWhile_runFrom_iff]
  constructor
  · rintro ⟨k, hk, hpc, hall⟩
    rw [hat] at hk
    refine ⟨i + 1 + k, by omega, ⟨⟨c₀, h, hp⟩, ⟨c, hk, hpc⟩, fun m hm hm' ↦ ?_⟩, hk⟩
    have hpass := hall (m - i - 1) (by omega)
    rwa [GoesOver, hat, show i + 1 + (m - i - 1) = m by omega] at hpass
  · rintro ⟨j, hj, hl, hc⟩
    refine ⟨j - i - 1, ?_, hl.allowed hc, fun m hm ↦ ?_⟩
    · rwa [hat, show i + 1 + (j - i - 1) = j by omega]
    · rw [GoesOver, hat]
      exact hl.between (i + 1 + m) (by omega) (by omega)

/-- The columns of the lines that are linked with line `i`, this line included. -/
theorem exists_linked_iff {c₀ c : Cells} (h : slots[i]? = some (.cells depth c₀))
    (hp : p c₀ = true) :
    (∃ j, Linked p slots depth i j ∧ slots[j]? = some (.cells depth c)) ↔
      c ∈ (runAbove slots depth i).takeWhile p ++ c₀ :: (runBelow slots depth i).takeWhile p := by
  rw [List.mem_append, List.mem_cons, mem_above_iff h hp, mem_below_iff h hp]
  constructor
  · rintro ⟨j, hl, hc⟩
    rcases Nat.lt_trichotomy j i with hj | rfl | hj
    · exact .inl ⟨j, hj, hl, hc⟩
    · rw [hc] at h
      cases h
      exact .inr (.inl rfl)
    · exact .inr (.inr ⟨j, hj, hl, hc⟩)
  · rintro (⟨j, -, hl, hc⟩ | rfl | ⟨j, -, hl, hc⟩)
    · exact ⟨j, hl, hc⟩
    · exact ⟨i, linked_self h hp, h⟩
    · exact ⟨j, hl, hc⟩

theorem foldl_max_mem (ws : List Nat) (a : Nat) : ws.foldl max a ∈ a :: ws := by
  induction ws generalizing a with
  | nil => exact List.mem_cons_self
  | cons w ws ih =>
    rw [List.foldl_cons]
    rcases List.mem_cons.1 (ih (max a w)) with h | h
    · rcases Nat.le_total a w with hle | hle
      · rw [h, Nat.max_eq_right hle]
        simp
      · rw [h, Nat.max_eq_left hle]
        simp
    · simp [h]

theorem isGreatest_maxOf {ws : List Nat} (h : ws ≠ []) : IsGreatest {w | w ∈ ws} (maxOf ws) := by
  refine ⟨?_, fun w hw ↦ maxOf_le_iff.1 le_rfl w hw⟩
  obtain ⟨w, ws, rfl⟩ := List.exists_cons_of_ne_nil h
  have hfirst : maxOf (w :: ws) = ws.foldl max w := by
    rw [maxOf, List.foldl_cons, Nat.zero_max]
  rw [hfirst]
  exact foldl_max_mem ws w

def Cells.isTagged (c : Cells) : Bool := c.taggedTypeWidth?.isSome

theorem tagStretch_eq (cs : List Cells) :
    tagStretch cs = (cs.takeWhile Cells.isTagged).filterMap Cells.taggedTypeWidth? := by
  induction cs with
  | nil => rfl
  | cons c cs ih =>
    rw [tagStretch, List.takeWhile_cons, Cells.isTagged]
    cases h : c.taggedTypeWidth? with
    | none => rfl
    | some width => simp [h, ih]

/-- Two lines of one run. -/
def SameRun : List Slot → Nat → Nat → Nat → Prop := Linked fun _ ↦ true

/-- Two lines of one run with nothing but tagged lines of the run from one to the other. -/
def SameStretch : List Slot → Nat → Nat → Nat → Prop := Linked Cells.isTagged

theorem SameStretch.sameRun (h : SameStretch slots depth i j) : SameRun slots depth i j where
  first := h.first.imp fun _ hc ↦ ⟨hc.1, rfl⟩
  last := h.last.imp fun _ hc ↦ ⟨hc.1, rfl⟩
  between k hk hk' := (h.between k hk hk').imp_right fun hc ↦ hc.imp fun _ hc ↦ ⟨hc.1, rfl⟩

def leadWidths (slots : List Slot) (depth i : Nat) : Set Nat :=
  {w | ∃ j c, SameRun slots depth i j ∧ slots[j]? = some (.cells depth c) ∧ c.leadWidth = w}

def typeWidths (slots : List Slot) (depth i : Nat) : Set Nat :=
  {w | ∃ j c, SameStretch slots depth i j ∧ slots[j]? = some (.cells depth c) ∧
    c.taggedTypeWidth? = some w}

theorem leadWidths_congr (h : SameRun slots depth i j) :
    leadWidths slots depth i = leadWidths slots depth j := by
  ext w
  exact exists_congr fun k ↦ exists_congr fun c ↦ and_congr_left fun _ ↦ Linked.iff_of_linked h

theorem typeWidths_congr (h : SameStretch slots depth i j) :
    typeWidths slots depth i = typeWidths slots depth j := by
  ext w
  exact exists_congr fun k ↦ exists_congr fun c ↦ and_congr_left fun _ ↦ Linked.iff_of_linked h

theorem takeWhile_true (cs : List Cells) : cs.takeWhile (fun _ ↦ true) = cs :=
  List.takeWhile_eq_self_iff.2 fun _ _ ↦ rfl

theorem exists_sameRun_iff {c₀ c : Cells} (h : slots[i]? = some (.cells depth c₀)) :
    (∃ j, SameRun slots depth i j ∧ slots[j]? = some (.cells depth c)) ↔
      c ∈ runAbove slots depth i ++ c₀ :: runBelow slots depth i := by
  have hlinked := exists_linked_iff (p := fun _ ↦ true) (c := c) h rfl
  rwa [takeWhile_true, takeWhile_true] at hlinked

theorem isGreatest_leadWidths {c : Cells} (h : slots[i]? = some (.cells depth c)) :
    IsGreatest (leadWidths slots depth i)
      (maxOf ((runAbove slots depth i ++ c :: runBelow slots depth i).map Cells.leadWidth)) := by
  have hset : leadWidths slots depth i =
      {w | w ∈ (runAbove slots depth i ++ c :: runBelow slots depth i).map Cells.leadWidth} := by
    ext w
    constructor
    · rintro ⟨j, c', hrun, hc', rfl⟩
      exact List.mem_map_of_mem ((exists_sameRun_iff h).1 ⟨j, hrun, hc'⟩)
    · intro hw
      obtain ⟨c', hc', rfl⟩ := List.mem_map.1 hw
      obtain ⟨j, hrun, hat⟩ := (exists_sameRun_iff h).2 hc'
      exact ⟨j, c', hrun, hat, rfl⟩
  rw [hset]
  exact isGreatest_maxOf (by simp)

theorem isGreatest_typeWidths {c : Cells} (h : slots[i]? = some (.cells depth c))
    (ht : c.isTagged = true) :
    IsGreatest (typeWidths slots depth i)
      (maxOf (tagStretch (runAbove slots depth i) ++
        tagStretch (c :: runBelow slots depth i))) := by
  have hset : typeWidths slots depth i =
      {w | w ∈ tagStretch (runAbove slots depth i) ++
        tagStretch (c :: runBelow slots depth i)} := by
    rw [tagStretch_eq, tagStretch_eq, List.takeWhile_cons, if_pos ht, ← List.filterMap_append]
    ext w
    constructor
    · rintro ⟨j, c', hrun, hc', hw⟩
      exact List.mem_filterMap.2 ⟨c', (exists_linked_iff h ht).1 ⟨j, hrun, hc'⟩, hw⟩
    · intro hw
      obtain ⟨c', hc', hwidth⟩ := List.mem_filterMap.1 hw
      obtain ⟨j, hrun, hat⟩ := (exists_linked_iff h ht).2 hc'
      exact ⟨j, c', hrun, hat, hwidth⟩
  rw [hset]
  refine isGreatest_maxOf ?_
  obtain ⟨width, hwidth⟩ := Option.isSome_iff_exists.1 ht
  simp [tagStretch, hwidth]

theorem getElem?_arrangeFrom {lines : List Line} {l : Line} (h : lines[i]? = some l)
    (before : List Slot) :
    (arrangeFrom before lines)[i]? =
      some ((alignSlot (((lines.map Line.slot).take i).reverse ++ before)
        ((lines.map Line.slot).drop (i + 1)) l.slot).or l.indented) := by
  induction lines generalizing before i with
  | nil => simp at h
  | cons l' lines ih =>
    rw [arrangeFrom_cons]
    cases i with
    | zero =>
      obtain rfl : l' = l := by simpa using h
      rfl
    | succ i =>
      rw [List.getElem?_cons_succ] at h ⊢
      rw [ih h, List.map_cons, List.take_succ_cons, List.reverse_cons, List.append_assoc,
        List.singleton_append, List.drop_succ_cons]

theorem getElem?_arrange {lines : List Line} {l : Line} (h : lines[i]? = some l) :
    (arrange lines)[i]? =
      some ((alignSlot ((lines.map Line.slot).take i).reverse
        ((lines.map Line.slot).drop (i + 1)) l.slot).or l.indented) := by
  have hrow := getElem?_arrangeFrom h []
  rwa [List.append_nil] at hrow

/-- A line is alone in its run if the run goes no further in either direction. -/
theorem alone_iff {c : Cells} (h : slots[i]? = some (.cells depth c)) :
    runAbove slots depth i = [] ∧ runBelow slots depth i = [] ↔
      ∀ j, SameRun slots depth i j → j = i := by
  rw [← takeWhile_true (runAbove slots depth i), ← takeWhile_true (runBelow slots depth i),
    List.eq_nil_iff_forall_not_mem, List.eq_nil_iff_forall_not_mem]
  constructor
  · rintro ⟨ha, hb⟩ j hrun
    obtain ⟨c', hc', -⟩ := hrun.last
    rcases Nat.lt_trichotomy j i with hj | hj | hj
    · exact absurd ((mem_above_iff h rfl).2 ⟨j, hj, hrun, hc'⟩) (ha c')
    · exact hj
    · exact absurd ((mem_below_iff h rfl).2 ⟨j, hj, hrun, hc'⟩) (hb c')
  · intro hone
    constructor <;> intro c' hc'
    · obtain ⟨j, hj, hrun, -⟩ := (mem_above_iff h rfl).1 hc'
      exact absurd (hone j hrun) hj.ne
    · obtain ⟨j, hj, hrun, -⟩ := (mem_below_iff h rfl).1 hc'
      exact absurd (hone j hrun) hj.ne'

def ValueAt (depth : Nat) (c : Cells) (column : Nat) (row : List Char) : Prop :=
  ∃ gap tagGap, row = List.replicate depth '\t' ++
      c.join (List.replicate gap ' ') (List.replicate tagGap ' ') ∧
    depth + c.leadWidth + gap = column

def TagAt (depth : Nat) (c : Cells) (column : Nat) (row : List Char) : Prop :=
  ∃ gap tagGap width, row = List.replicate depth '\t' ++
      c.join (List.replicate gap ' ') (List.replicate tagGap ' ') ∧
    c.taggedTypeWidth? = some width ∧ depth + c.leadWidth + gap + width + tagGap = column

/-- The rows of the run of line `i`: the types or values start one column behind the widest name or
key, and the tags of a stretch one column behind its widest type. -/
structure LinedUp (slots : List Slot) (rows : List (Option (List Char))) (depth i lead : Nat) :
    Prop where
  widest : IsGreatest (leadWidths slots depth i) lead
  value : ∀ j c, SameRun slots depth i j → slots[j]? = some (.cells depth c) →
    ∃ row, rows[j]? = some (some row) ∧ ValueAt depth c (depth + lead + 1) row
  tag : ∀ j c, SameRun slots depth i j → slots[j]? = some (.cells depth c) → c.isTagged = true →
    ∃ width, IsGreatest (typeWidths slots depth j) width ∧
      ∀ k c', SameStretch slots depth j k → slots[k]? = some (.cells depth c') →
        ∃ row, rows[k]? = some (some row) ∧ TagAt depth c' (depth + lead + 1 + width + 1) row

theorem exists_line {lines : List Line} {s : Slot} (h : (lines.map Line.slot)[i]? = some s) :
    ∃ l, lines[i]? = some l ∧ l.slot = s := by
  rw [List.getElem?_map, Option.map_eq_some_iff] at h
  exact h

theorem exists_row {lines : List Line} {c : Cells}
    (h : (lines.map Line.slot)[i]? = some (.cells depth c))
    (hj : ∃ j, j ≠ i ∧ SameRun (lines.map Line.slot) depth i j) :
    (arrange lines)[i]? = some (some (List.replicate depth '\t' ++
      alignCells (runAbove (lines.map Line.slot) depth i)
        (runBelow (lines.map Line.slot) depth i) c)) := by
  obtain ⟨l, hl, hslot⟩ := exists_line h
  have halone : ¬(runAbove (lines.map Line.slot) depth i = [] ∧
      runBelow (lines.map Line.slot) depth i = []) := by
    rw [alone_iff h]
    obtain ⟨j, hj, hrun⟩ := hj
    exact fun hone ↦ hj (hone j hrun)
  have hempty : ((runAbove (lines.map Line.slot) depth i).isEmpty &&
      (runBelow (lines.map Line.slot) depth i).isEmpty) = false := by
    simpa [Bool.and_eq_false_iff, ← not_and_or] using halone
  rw [getElem?_arrange hl, hslot, alignSlot, ← runAbove, ← runBelow]
  simp only [hempty, Bool.false_eq_true, if_false, Option.some_or]

theorem exists_ne_of_sameRun (hj : ∃ j, j ≠ i ∧ SameRun slots depth i j)
    (h : SameRun slots depth i k) : ∃ j, j ≠ k ∧ SameRun slots depth k j := by
  obtain ⟨j, hj, hrun⟩ := hj
  by_cases hk : j = k
  · exact ⟨i, hk ▸ hj.symm, h.symm⟩
  · exact ⟨j, hk, h.symm.trans hrun⟩

theorem linedUp_arrange {lines : List Line}
    (hj : ∃ j, j ≠ i ∧ SameRun (lines.map Line.slot) depth i j) :
    ∃ lead, LinedUp (lines.map Line.slot) (arrange lines) depth i lead := by
  obtain ⟨c₀, h₀⟩ : ∃ c, (lines.map Line.slot)[i]? = some (.cells depth c) := by
    obtain ⟨j, -, hrun⟩ := hj
    exact hrun.first.imp fun c hc ↦ hc.1
  obtain ⟨lead, hlead⟩ : ∃ lead, IsGreatest (leadWidths (lines.map Line.slot) depth i) lead :=
    ⟨_, isGreatest_leadWidths h₀⟩
  -- every line of the run finds the same width
  have hrow {j : Nat} {c : Cells} (hrun : SameRun (lines.map Line.slot) depth i j)
      (hc : (lines.map Line.slot)[j]? = some (.cells depth c)) :
      c.leadWidth ≤ lead ∧ ∃ tagGap, tagGap = maxOf
          (tagStretch (runAbove (lines.map Line.slot) depth j) ++
            tagStretch (c :: runBelow (lines.map Line.slot) depth j)) -
          c.taggedTypeWidth?.getD 0 + 1 ∧
        (arrange lines)[j]? = some (some (List.replicate depth '\t' ++
          c.join (List.replicate (lead - c.leadWidth + 1) ' ') (List.replicate tagGap ' '))) := by
    have hsame := hlead
    rw [leadWidths_congr hrun] at hsame
    refine ⟨hlead.2 ⟨j, c, hrun, hc, rfl⟩, _, rfl, ?_⟩
    rw [exists_row hc (exists_ne_of_sameRun hj hrun), alignCells_eq_join,
      (isGreatest_leadWidths hc).unique hsame]
  refine ⟨lead, hlead, fun j c hrun hc ↦ ?_, fun j c hrun hc ht ↦ ?_⟩
  · obtain ⟨hle, tagGap, -, hat⟩ := hrow hrun hc
    exact ⟨_, hat, _, _, rfl, by omega⟩
  · have hwidest := isGreatest_typeWidths hc ht
    refine ⟨_, hwidest, fun k c' hstretch hc' ↦ ?_⟩
    have ht' : c'.isTagged = true := hstretch.allowed hc'
    obtain ⟨width, hwidth⟩ := Option.isSome_iff_exists.1 ht'
    have hle' := hwidest.2 ⟨k, c', hstretch, hc', hwidth⟩
    rw [typeWidths_congr hstretch] at hwidest
    obtain ⟨hle, tagGap, htagGap, hat⟩ := hrow (hrun.trans hstretch.sameRun) hc'
    rw [(isGreatest_typeWidths hc' ht').unique hwidest, hwidth, Option.getD_some] at htagGap
    exact ⟨_, hat, _, _, width, rfl, hwidth, by omega⟩

theorem alignSlot_eq_none {s : Slot} (h : slots[i]? = some s)
    (hone : ∀ depth j, SameRun slots depth i j → j = i) :
    alignSlot (slots.take i).reverse (slots.drop (i + 1)) s = none := by
  cases s with
  | comment => rfl
  | other => rfl
  | cells depth c =>
    obtain ⟨habove, hbelow⟩ := (alone_iff h).2 (hone depth)
    rw [alignSlot, ← runAbove, ← runBelow, habove, hbelow]
    rfl

theorem trim_indented (l : Line) : trim (l.indented.getD []) = trim l.text := by
  unfold Line.indented
  cases l.verbatim with
  | true => rfl
  | false =>
    by_cases ht : trim l.text = []
    · simp only [ht]
      rfl
    · simp [ht, trim_indent (l.indent (trim l.text)) (tight_trim l.text)]

/-- A line that is in no run of two lines only moves. -/
theorem exists_row_alone {lines : List Line} {l : Line} (h : lines[i]? = some l)
    (hone : ∀ depth j, SameRun (lines.map Line.slot) depth i j → j = i) :
    ∃ row, (arrange lines)[i]? = some row ∧ trim (row.getD []) = trim l.text := by
  have hslot : (lines.map Line.slot)[i]? = some l.slot := by rw [List.getElem?_map, h]; rfl
  refine ⟨_, getElem?_arrange h, ?_⟩
  rw [alignSlot_eq_none hslot hone, Option.none_or, trim_indented]

/-- The lines of the text are the rows, apart from blank ones that are left out. -/
structure MadeOf (rows : List (Option (List Char))) (t : List Char) : Prop where
  single : ∀ row, some row ∈ rows → '\n' ∉ row
  lines : ∃ kept : List (Option (List Char)), kept.Sublist rows ∧
    kept.reduceOption = rows.reduceOption ∧
    t = List.intercalate ['\n'] (kept.map fun row ↦ row.getD []) ++ ['\n']

theorem madeOf_layOut {s : List Char} {lines : List Line} (h : nest s = .ok lines) :
    MadeOf (arrange lines) (layOut lines) := by
  have hplace := placement_place lines
  obtain ⟨gs, -, hreads⟩ := nest_eq_ok_iff.1 h
  obtain ⟨ls, hre⟩ := hreads.exists_reread rfl hplace none
  constructor
  · intro row hrow
    rw [← hplace.text?_eq] at hrow
    obtain ⟨p, hp, htext⟩ := List.mem_map.1 hrow
    have hsome : p.text? ≠ none := htext ▸ Option.some_ne_none row
    have hwritten := List.mem_map_of_mem (f := Placed.text) (mem_keep hp hsome none)
    rw [← hre.text_eq, Placed.text, htext] at hwritten
    exact (hre.marked rfl).single row hwritten
  · refine ⟨(keep none (place lines)).map Placed.text?, ?_, ?_, ?_⟩
    · rw [← hplace.text?_eq]
      exact (keep_sublist none _).map _
    · rw [reduceOption_keep, hplace.text?_eq]
    · rw [layOut, tidy_arrange, List.map_map]
      rfl

/-- Columns line up. The types or values of a run of at least two lines start one column behind the
widest name or key, the tags of each of its tagged stretches one column behind the widest type of
the stretch, and any other line keeps its text up to the blanks around it. -/
theorem columns_format {s t : String} (h : format s = .ok t) :
    ∃ lines rows, nest s.toList = .ok lines ∧ rows.length = lines.length ∧ MadeOf rows t.toList ∧
      (∀ depth i, (∃ j, j ≠ i ∧ SameRun (lines.map Line.slot) depth i j) →
        ∃ lead, LinedUp (lines.map Line.slot) rows depth i lead) ∧
      ∀ i l, lines[i]? = some l →
        (∀ depth j, SameRun (lines.map Line.slot) depth i j → j = i) →
        ∃ row, rows[i]? = some row ∧ trim (row.getD []) = trim l.text := by
  obtain ⟨lines, hnest, hlay⟩ := formatChars_eq_ok_iff.1 (format_eq_ok_iff.1 h)
  exact ⟨lines, arrange lines, hnest, (forall₂_written_arrange lines).length_eq.symm,
    hlay ▸ madeOf_layOut hnest, fun _ _ ↦ linedUp_arrange, fun _ _ ↦ exists_row_alone⟩

def taggedSource : String :=
  "type T struct \x7b\nid int `x`\n// b\nname string `y`\nok bool\n\x7d"

def taggedText : String :=
  "type T struct \x7b\n\tid   int    `x`\n\t// b\n\tname string `y`\n\tok   bool\n\x7d\n"

def taggedSlots : List Slot := [.other,
  .cells 1 (.field "id".toList "int".toList (some "`x`".toList)), .comment,
  .cells 1 (.field "name".toList "string".toList (some "`y`".toList)),
  .cells 1 (.field "ok".toList "bool".toList none), .other]

theorem slots_taggedSource {lines : List Line} (h : nest taggedSource.toList = .ok lines) :
    lines.map Line.slot = taggedSlots := by
  have hslots : (nest taggedSource.toList).toOption.map (List.map Line.slot) =
      some taggedSlots := by
    rw [taggedSource, String.toList_ofList]
    decide +kernel
  rw [h] at hslots
  exact Option.some_inj.1 hslots

theorem columns_format_tagged :
    format taggedSource = .ok taggedText ∧
      ∃ lines rows lead, nest taggedSource.toList = .ok lines ∧ MadeOf rows taggedText.toList ∧
        LinedUp (lines.map Line.slot) rows 1 1 lead ∧
        ∃ l row, lines[0]? = some l ∧ rows[0]? = some row ∧
          trim (row.getD []) = trim l.text := by
  have h : format taggedSource = .ok taggedText := format_ofList (by decide +kernel)
  obtain ⟨lines, rows, hnest, -, hmade, hruns, hrest⟩ := columns_format h
  have hslots := slots_taggedSource hnest
  have hrun : SameRun (lines.map Line.slot) 1 1 3 := by
    rw [hslots]
    refine ⟨⟨_, rfl, rfl⟩, ⟨_, rfl, rfl⟩, fun k hk hk' ↦ ?_⟩
    obtain rfl : k = 2 := by omega
    exact .inl rfl
  have hone (depth j : Nat) (h : SameRun (lines.map Line.slot) depth 0 j) : j = 0 := by
    obtain ⟨c, hc, -⟩ := h.first
    rw [hslots] at hc
    cases hc
  obtain ⟨lead, hlead⟩ := hruns 1 1 ⟨3, by decide, hrun⟩
  have hfirst : (lines.map Line.slot)[0]? = some .other := by rw [hslots]; rfl
  obtain ⟨l, hl, -⟩ := exists_line hfirst
  obtain ⟨row, hrow, htrim⟩ := hrest 0 l hl hone
  exact ⟨h, lines, rows, lead, hnest, hmade, hlead, l, row, hl, hrow, htrim⟩

end RpcStubs.Layout
