import Mathlib.Data.List.Basic
import Mathlib.Data.List.TakeWhile
import Mathlib.Tactic.Common
import RpcStubs.Text.Blank
import RpcStubs.Text.Split

namespace RpcStubs.Text

def Blanks (s : List Char) : Prop := ∀ c ∈ s, isBlank c = true

theorem blanks_nil : Blanks [] := List.forall_mem_nil _

theorem blanks_singleton {c : Char} (h : isBlank c = true) : Blanks [c] :=
  List.forall_mem_singleton.2 h

theorem Blanks.append {a b : List Char} (ha : Blanks a) (hb : Blanks b) : Blanks (a ++ b) :=
  fun c hc ↦ (List.mem_append.1 hc).elim (ha c) (hb c)

theorem Blanks.tail {c : Char} {s : List Char} (h : Blanks (c :: s)) : Blanks s :=
  fun d hd ↦ h d (List.mem_cons_of_mem c hd)

/-- Text that neither starts nor ends with a blank. -/
structure Tight (s : List Char) : Prop where
  head : ∀ c, s.head? = some c → isBlank c = false
  last : ∀ c, s.getLast? = some c → isBlank c = false

theorem tight_nil : Tight [] := ⟨by simp, by simp⟩

theorem dropWhile_append_of_blanks {a : List Char} (ha : Blanks a) (b : List Char) :
    (a ++ b).dropWhile isBlank = b.dropWhile isBlank := List.dropWhile_append_of_pos ha

theorem dropWhile_of_head {s : List Char} (h : ∀ c, s.head? = some c → isBlank c = false) :
    s.dropWhile isBlank = s := by
  cases s with
  | nil => rfl
  | cons c s => simp [h c rfl]

theorem trimStart_append {a b : List Char} (ha : Blanks a)
    (hb : ∀ c, b.head? = some c → isBlank c = false) : trimStart (a ++ b) = b := by
  rw [trimStart, dropWhile_append_of_blanks ha, dropWhile_of_head hb]

theorem trimEnd_append {a b : List Char} (ha : ∀ c, a.getLast? = some c → isBlank c = false)
    (hb : Blanks b) : trimEnd (a ++ b) = a := by
  have hr : Blanks b.reverse := fun c hc ↦ hb c (List.mem_reverse.1 hc)
  rw [trimEnd, List.reverse_append, dropWhile_append_of_blanks hr, dropWhile_of_head,
    List.reverse_reverse]
  rwa [List.head?_reverse]

theorem trim_append_append {a s b : List Char} (ha : Blanks a) (hs : Tight s) (hb : Blanks b) :
    trim (a ++ s ++ b) = s := by
  cases s with
  | nil =>
    have h := trimStart_append (b := []) (ha.append hb) (by simp)
    rw [List.append_nil] at h ⊢
    rw [trim, h]
    rfl
  | cons c s =>
    rw [trim, List.append_assoc, trimStart_append ha, trimEnd_append hs.last hb]
    intro d hd
    exact hs.head d (by simpa using hd)

theorem Tight.trim_eq {s : List Char} (h : Tight s) : trim s = s := by
  have ht := trim_append_append blanks_nil h blanks_nil
  simpa using ht

theorem exists_trimStart (s : List Char) :
    ∃ lead, s = lead ++ trimStart s ∧ Blanks lead ∧
      ∀ c, (trimStart s).head? = some c → isBlank c = false := by
  refine ⟨s.takeWhile isBlank, List.takeWhile_append_dropWhile.symm, ?_, ?_⟩
  · intro c hc
    exact List.mem_takeWhile_imp hc
  · intro c hc
    have h := List.head?_dropWhile_not isBlank s
    rw [trimStart] at hc
    rw [hc] at h
    simpa using h

theorem exists_trimEnd (s : List Char) :
    ∃ trail, s = trimEnd s ++ trail ∧ Blanks trail ∧
      ∀ c, (trimEnd s).getLast? = some c → isBlank c = false := by
  obtain ⟨lead, hs, hl, hh⟩ := exists_trimStart s.reverse
  refine ⟨lead.reverse, ?_, fun c hc ↦ hl c (List.mem_reverse.1 hc), ?_⟩
  · rw [trimEnd, ← List.reverse_append, ← trimStart, ← hs, List.reverse_reverse]
  · intro c hc
    rw [trimEnd, List.getLast?_reverse] at hc
    exact hh c hc

theorem exists_trim (s : List Char) :
    ∃ lead trail, s = lead ++ trim s ++ trail ∧ Blanks lead ∧ Blanks trail ∧ Tight (trim s) := by
  obtain ⟨lead, hs, hl, hh⟩ := exists_trimStart s
  obtain ⟨trail, he, ht, hlast⟩ := exists_trimEnd (trimStart s)
  refine ⟨lead, trail, ?_, hl, ht, ?_, hlast⟩
  · rw [trim, List.append_assoc, ← he]
    exact hs
  · intro c hc
    rw [trim] at hc
    refine hh c ?_
    rw [he]
    cases h : trimEnd (trimStart s) with
    | nil => rw [h] at hc; cases hc
    | cons d rest => rw [h] at hc; exact hc

theorem tight_trim (s : List Char) : Tight (trim s) := by
  obtain ⟨-, -, -, -, -, h⟩ := exists_trim s
  exact h

@[simp] theorem trim_trim (s : List Char) : trim (trim s) = trim s := (tight_trim s).trim_eq

theorem trim_eq_nil_iff {s : List Char} : trim s = [] ↔ Blanks s := by
  constructor
  · intro h
    obtain ⟨lead, trail, hs, hl, ht, -⟩ := exists_trim s
    rw [h, List.append_nil] at hs
    exact hs ▸ hl.append ht
  · intro h
    simpa using trim_append_append (b := []) h tight_nil blanks_nil

theorem trim_blanks_append {b : List Char} (hb : Blanks b) (s : List Char) :
    trim (b ++ s) = trim s := by
  obtain ⟨lead, trail, hs, hl, ht, htight⟩ := exists_trim s
  conv_lhs => rw [hs, ← List.append_assoc, ← List.append_assoc]
  exact trim_append_append (hb.append hl) htight ht

theorem trimEnd_append_of_ne_nil {s : List Char} (hs : trimEnd s ≠ []) (z : List Char) :
    trimEnd (z ++ s) = z ++ trimEnd s := by
  obtain ⟨trail, he, ht, hl⟩ := exists_trimEnd s
  conv_lhs => rw [he, ← List.append_assoc]
  refine trimEnd_append (fun c hc ↦ hl c ?_) ht
  rwa [List.getLast?_append_of_ne_nil _ hs] at hc

theorem trimEnd_ne_nil {s : List Char} {c : Char} (hc : c ∈ s) (hb : isBlank c = false) :
    trimEnd s ≠ [] := by
  intro h
  obtain ⟨trail, he, ht, -⟩ := exists_trimEnd s
  rw [h, List.nil_append] at he
  rw [ht c (he ▸ hc)] at hb
  cases hb

theorem trim_append_blanks {b : List Char} (hb : Blanks b) (s : List Char) :
    trim (s ++ b) = trim s := by
  obtain ⟨lead, trail, hs, hl, ht, htight⟩ := exists_trim s
  conv_lhs => rw [hs, List.append_assoc]
  exact trim_append_append hl htight (ht.append hb)

theorem cutFirst_eq_some_iff {sep : Char} {s a b : List Char} :
    cutFirst sep s = some (a, b) ↔ s = a ++ sep :: b ∧ sep ∉ a := by
  induction s generalizing a with
  | nil => simp [cutFirst]
  | cons c s ih =>
    rw [cutFirst]
    split_ifs with hc
    · subst hc
      constructor
      · intro h
        cases h
        simp
      · rintro ⟨h, ha⟩
        cases a with
        | nil => simpa using h
        | cons d a => simp_all
    · constructor
      · intro h
        obtain ⟨⟨a', b'⟩, h', he⟩ := Option.map_eq_some_iff.1 h
        cases he
        obtain ⟨rfl, ha⟩ := ih.1 h'
        exact ⟨rfl, by simp [ha, Ne.symm hc]⟩
      · rintro ⟨h, ha⟩
        cases a with
        | nil =>
          simp only [List.nil_append, List.cons.injEq] at h
          exact absurd h.1 hc
        | cons d a =>
          obtain ⟨rfl, rfl⟩ : c = d ∧ s = a ++ sep :: b := by simpa using h
          rw [ih.2 ⟨rfl, fun h ↦ ha (List.mem_cons_of_mem c h)⟩]
          rfl

end RpcStubs.Text
