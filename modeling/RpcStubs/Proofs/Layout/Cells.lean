import RpcStubs.Code.Layout.Columns
import RpcStubs.Proofs.Code.Words
import RpcStubs.Proofs.Text.Trim

namespace RpcStubs.Layout

open Text

/-- Where a tag may start: nothing is cut inside `a` or at its end. -/
theorem cutTag_append {a b : List Char} (ha : cutTag a = none) (hl : a.getLast? ≠ some ' ') :
    cutTag (a ++ b) = (cutTag b).map fun p ↦ (a ++ p.1, p.2) := by
  induction a with
  | nil => simp
  | cons c a ih =>
    rw [cutTag] at ha
    split_ifs at ha with hc
    have ha' : cutTag a = none := by simpa using ha
    cases a with
    | nil =>
      have hc' : c ≠ ' ' := by simpa using hl
      rw [List.singleton_append, cutTag, if_neg (by simp [hc'])]
      rfl
    | cons d a =>
      have ih' := ih ha' (by simpa using hl)
      rw [List.cons_append, cutTag, if_neg (by simpa using hc), ih', Option.map_map]
      rfl

theorem cutTag_eq_none_of_append {a b : List Char} (h : cutTag (a ++ b) = none) :
    cutTag a = none := by
  induction a with
  | nil => rfl
  | cons c a ih =>
    rw [List.cons_append, cutTag] at h
    split_ifs at h with hc
    rw [cutTag, ih (by simpa using h), if_neg]
    · rfl
    · cases a with
      | nil => simp
      | cons d a => simpa using hc

theorem cutTag_eq_some {s a b : List Char} (h : cutTag s = some (a, b)) :
    s = a ++ b ∧ cutTag a = none ∧ ∃ rest, b = ' ' :: '\x60' :: rest := by
  induction s generalizing a with
  | nil => cases h
  | cons c s ih =>
    rw [cutTag] at h
    split_ifs at h with hc
    · cases h
      obtain ⟨rfl, hs⟩ : c = ' ' ∧ s.head? = some '\x60' := by simpa using hc
      cases s with
      | nil => simp at hs
      | cons d s =>
        obtain rfl : d = '\x60' := by simpa using hs
        exact ⟨rfl, rfl, s, rfl⟩
    · obtain ⟨⟨a', b'⟩, h', he⟩ := Option.map_eq_some_iff.1 h
      cases he
      obtain ⟨rfl, ha, rest, rfl⟩ := ih h'
      refine ⟨rfl, ?_, rest, rfl⟩
      rw [cutTag, ha, if_neg]
      · rfl
      · cases a' with
        | nil => simp
        | cons d a' => simpa using hc

/-- Blanks that end in a space, right before a raw string. -/
theorem cutTag_gap {gap tag : List Char} (hg : gap.getLast? = some ' ') (hb : Blanks gap)
    (ht : tag.head? = some '\x60') : cutTag (gap ++ tag) = some (gap.dropLast, ' ' :: tag) := by
  induction gap with
  | nil => cases hg
  | cons c gap ih =>
    cases gap with
    | nil =>
      obtain rfl : c = ' ' := by simpa using hg
      rw [List.singleton_append, cutTag, if_pos (by simp [ht])]
      rfl
    | cons d gap =>
      have hd : d ≠ '\x60' := by
        rintro rfl
        exact absurd (hb '\x60' (by simp)) (by decide)
      have ih' := ih (by simpa using hg) fun e he ↦ hb e (List.mem_cons_of_mem c he)
      rw [List.cons_append, cutTag, if_neg (by simp [hd]), ih']
      rfl

namespace Cells

def join (gap tagGap : List Char) : Cells → List Char
  | .field name type (some tag) => name ++ (gap ++ (type ++ (tagGap ++ tag)))
  | .field name type none => name ++ (gap ++ type)
  | .keyed key value => key ++ (':' :: (gap ++ value))

/-- A field's name is ended by a space, and so is what stands before a tag. -/
structure Gaps (c : Cells) (gap tagGap : List Char) : Prop where
  blanks : Blanks gap
  tagBlanks : Blanks tagGap
  tagLast : tagGap.getLast? = some ' '
  lead : ∀ name type tag, c = .field name type tag → gap.head? = some ' '

def Proper : Cells → Prop
  | .field name type tag => isWord name = true ∧ type ≠ [] ∧ Tight type ∧ cutTag type = none ∧
      ∀ t, tag = some t → t.head? = some '\x60' ∧ ∀ c, t.getLast? = some c → isBlank c = false
  | .keyed key value => isWord key = true ∧ value ≠ [] ∧ Tight value ∧ value.head? ≠ some '='

end Cells

theorem last_of_tight_append {a b : List Char} (h : Tight (a ++ b)) :
    ∀ c, b.getLast? = some c → isBlank c = false := by
  intro c hc
  exact h.last c (by rw [List.getLast?_append, hc]; rfl)

/-- Where a tag is cut off, blanks that end in a space stand between a type and a raw string. -/
theorem exists_tagged_eq {s type tag : List Char} (hs : Tight s) (h : cutTag s = some (type, tag)) :
    trimEnd type ≠ [] ∧ Tight (trimEnd type) ∧ cutTag (trimEnd type) = none ∧
      (trimStart tag).head? = some '\x60' ∧
      (∀ d, (trimStart tag).getLast? = some d → isBlank d = false) ∧
      ∃ trail, Blanks trail ∧ s = trimEnd type ++ (trail ++ ' ' :: trimStart tag) := by
  obtain ⟨hsplit, hnone, tail, rfl⟩ := cutTag_eq_some h
  obtain ⟨trail, htype, htrail, htlast⟩ := exists_trimEnd type
  have htag : trimStart (' ' :: '\x60' :: tail) = '\x60' :: tail :=
    trimStart_append (a := [' ']) (blanks_singleton rfl) (by simp; decide)
  have htne : trimEnd type ≠ [] := by
    intro he
    rw [he, List.nil_append] at htype
    rw [hsplit] at hs
    cases type with
    | nil => exact absurd (hs.head ' ' rfl) (by decide)
    | cons d type =>
      have hd := hs.head d rfl
      rw [htrail d (by rw [← htype]; simp)] at hd
      cases hd
  have hthead : ∀ d, (trimEnd type).head? = some d → isBlank d = false := by
    intro d hd
    refine hs.head d ?_
    rw [hsplit, htype, List.append_assoc, List.head?_append, hd]
    rfl
  rw [htag]
  refine ⟨htne, ⟨hthead, htlast⟩, ?_, rfl, fun d hd ↦ hs.last d ?_, trail, htrail, ?_⟩
  · rw [htype] at hnone
    exact cutTag_eq_none_of_append hnone
  · rw [hsplit]
    simpa using hd
  · conv_lhs => rw [hsplit, htype]
    simp

theorem fieldCells?_eq_some {t : List Char} {c : Cells} (ht : Tight t)
    (h : fieldCells? t = some c) :
    c.Proper ∧ ∃ gap tagGap, t = c.join gap tagGap ∧ c.Gaps gap tagGap := by
  unfold fieldCells? at h
  split at h
  · cases h
  · next name rest hcut =>
    obtain ⟨rfl, -⟩ := cutFirst_eq_some_iff.1 hcut
    obtain ⟨lead, hrest, hlead, hhead⟩ := exists_trimStart rest
    simp only at h
    split_ifs at h with hw
    simp only [Bool.or_eq_true, Bool.not_eq_true', List.isEmpty_iff, not_or,
      Bool.not_eq_false] at hw
    obtain ⟨hname, hne⟩ := hw
    have hspace : Blanks [' '] := blanks_singleton rfl
    have hgap : Blanks (' ' :: lead) := hspace.append hlead
    have hlast : ∀ d, (trimStart rest).getLast? = some d → isBlank d = false := by
      refine last_of_tight_append (a := name ++ ' ' :: lead) ?_
      rw [List.append_assoc, List.cons_append, ← hrest]
      exact ht
    split at h
    · next type tag hct =>
      cases h
      obtain ⟨htne, htight, hnone, hquote, htlast, trail, htrail, heq⟩ :=
        exists_tagged_eq ⟨hhead, hlast⟩ hct
      refine ⟨⟨hname, htne, htight, hnone, ?_⟩, ' ' :: lead, trail ++ [' '], ?_, ?_⟩
      · rintro _ ⟨⟩
        exact ⟨hquote, htlast⟩
      · rw [Cells.join]
        conv_lhs => rw [hrest, heq]
        simp
      · exact ⟨hgap, htrail.append hspace, by simp, fun _ _ _ _ ↦ rfl⟩
    · next hct =>
      cases h
      refine ⟨⟨hname, hne, ⟨hhead, hlast⟩, hct, by simp⟩, ' ' :: lead, [' '], ?_, ?_⟩
      · rw [Cells.join]
        conv_lhs => rw [hrest]
        simp
      · exact ⟨hgap, hspace, rfl, fun _ _ _ _ ↦ rfl⟩

theorem keyedCells?_eq_some {t : List Char} {c : Cells} (ht : Tight t)
    (h : keyedCells? t = some c) :
    c.Proper ∧ ∃ gap tagGap, t = c.join gap tagGap ∧ c.Gaps gap tagGap := by
  unfold keyedCells? at h
  split at h
  · cases h
  · next key rest hcut =>
    obtain ⟨rfl, -⟩ := cutFirst_eq_some_iff.1 hcut
    obtain ⟨lead, hrest, hlead, hhead⟩ := exists_trimStart rest
    simp only at h
    split_ifs at h with hw
    cases h
    simp only [Bool.or_eq_true, Bool.not_eq_true', List.isEmpty_iff, not_or, Bool.not_eq_false,
      decide_eq_true_eq] at hw
    obtain ⟨⟨hkey, hne⟩, heq⟩ := hw
    have hlast : ∀ d, (trimStart rest).getLast? = some d → isBlank d = false := by
      refine last_of_tight_append (a := key ++ ':' :: lead) ?_
      rw [List.append_assoc, List.cons_append, ← hrest]
      exact ht
    refine ⟨⟨hkey, hne, ⟨hhead, hlast⟩, heq⟩, lead, [' '], ?_, ?_⟩
    · rw [Cells.join, ← hrest]
    · exact ⟨hlead, blanks_singleton rfl, rfl, by simp⟩

theorem fieldCells?_join {name type gap tagGap : List Char} {tag : Option (List Char)}
    (hp : (Cells.field name type tag).Proper)
    (hg : (Cells.field name type tag).Gaps gap tagGap) :
    fieldCells? ((Cells.field name type tag).join gap tagGap) = some (.field name type tag) := by
  obtain ⟨hname, hne, htight, hcut, htag⟩ := hp
  have hlead := hg.lead name type tag rfl
  have hspace : ' ' ∉ name := not_mem_of_isWord hname (by decide)
  cases gap with
  | nil => cases hlead
  | cons c gap =>
    obtain rfl : c = ' ' := by simpa using hlead
    have hblank : Blanks gap := fun d hd ↦ hg.blanks d (List.mem_cons_of_mem ' ' hd)
    have hhead (rest : List Char) :
        ∀ d, (type ++ rest).head? = some d → isBlank d = false := by
      intro d hd
      cases type with
      | nil => exact absurd rfl hne
      | cons e type => exact htight.head d hd
    cases tag with
    | none =>
      have h := hhead []
      rw [List.append_nil] at h
      have hcf : cutFirst ' ' ((Cells.field name type none).join (' ' :: gap) tagGap) =
          some (name, gap ++ type) := cutFirst_eq_some_iff.2 ⟨rfl, hspace⟩
      rw [fieldCells?, hcf]
      simp only [trimStart_append hblank h, hname, hcut]
      simp [hne]
    | some tag =>
      obtain ⟨hquote, -⟩ := htag tag rfl
      have hcf : cutFirst ' ' ((Cells.field name type (some tag)).join (' ' :: gap) tagGap) =
          some (name, gap ++ (type ++ (tagGap ++ tag))) := cutFirst_eq_some_iff.2 ⟨rfl, hspace⟩
      have hlast : type.getLast? ≠ some ' ' := by
        intro h
        exact absurd (htight.last ' ' h) (by decide)
      have htrim : trimEnd (type ++ tagGap.dropLast) = type := by
        refine trimEnd_append htight.last fun d hd ↦ hg.tagBlanks d (List.dropLast_subset _ hd)
      have htag' : trimStart (' ' :: tag) = tag := by
        refine trimStart_append (a := [' ']) (blanks_singleton rfl) fun d hd ↦ ?_
        obtain rfl : '\x60' = d := by rw [hquote] at hd; simpa using hd
        decide
      rw [fieldCells?, hcf]
      simp only [trimStart_append hblank (hhead (tagGap ++ tag)), hname,
        cutTag_append hcut hlast, cutTag_gap hg.tagLast hg.tagBlanks hquote, Option.map_some,
        htrim, htag']
      simp [hne]

theorem keyedCells?_join {key value gap tagGap : List Char} (hp : (Cells.keyed key value).Proper)
    (hg : (Cells.keyed key value).Gaps gap tagGap) :
    keyedCells? ((Cells.keyed key value).join gap tagGap) = some (.keyed key value) := by
  obtain ⟨hkey, hne, htight, heq⟩ := hp
  have hcolon : ':' ∉ key := not_mem_of_isWord hkey (by decide)
  have hcf : cutFirst ':' ((Cells.keyed key value).join gap tagGap) = some (key, gap ++ value) :=
    cutFirst_eq_some_iff.2 ⟨rfl, hcolon⟩
  rw [keyedCells?, hcf]
  simp only [trimStart_append hg.blanks htight.head, hkey]
  simp [hne, heq]

theorem gaps_replicate (c : Cells) (i j : Nat) :
    c.Gaps (List.replicate (i + 1) ' ') (List.replicate (j + 1) ' ') := by
  have hb (n : Nat) : Blanks (List.replicate n ' ') := by
    intro d hd
    obtain rfl := List.eq_of_mem_replicate hd
    decide
  exact ⟨hb _, hb _, by simp [List.getLast?_replicate], fun _ _ _ _ ↦ by simp [List.replicate_succ]⟩

/-- Alignment fills the columns up to the greatest widths. -/
theorem alignCells_eq_join (before after : List Cells) (c : Cells) :
    alignCells before after c = c.join
      (List.replicate (maxOf ((before ++ c :: after).map Cells.leadWidth) - c.leadWidth + 1) ' ')
      (List.replicate (maxOf (tagStretch before ++ tagStretch (c :: after)) -
        c.taggedTypeWidth?.getD 0 + 1) ' ') := by
  rcases c with ⟨name, type, _ | tag⟩ | ⟨key, value⟩
  · simp only [alignCells, pad, Cells.join, Cells.leadWidth, List.append_assoc]
  · simp only [alignCells, pad, Cells.join, Cells.leadWidth, Cells.taggedTypeWidth?,
      Option.getD_some, List.append_assoc]
  · simp only [alignCells, pad, Cells.join, Cells.leadWidth, List.length_append,
      List.length_singleton, List.append_assoc, List.cons_append, List.nil_append]

theorem exists_alignCells_eq_join (before after : List Cells) (c : Cells) :
    ∃ i j, alignCells before after c =
      c.join (List.replicate (i + 1) ' ') (List.replicate (j + 1) ' ') :=
  ⟨_, _, alignCells_eq_join before after c⟩

end RpcStubs.Layout
