import Mathlib.Tactic.Common
import RpcStubs.Code.Identifier

namespace RpcStubs

open Text

/-- A property of the characters of a list is decided along the list, not over all characters. -/
instance (priority := 2000) decidableForallMemChar (p : Char → Prop) [DecidablePred p]
    (cs : List Char) : Decidable (∀ c ∈ cs, p c) :=
  List.decidableBAll p cs

def classMembers : List Nat → List Nat
  | lo :: hi :: rest => List.range' lo (hi - lo) ++ classMembers rest
  | _ => []

theorem mem_classMembers {bounds : List Nat} {n : Nat} (h : inClass bounds n = true) :
    n ∈ classMembers bounds := by
  induction bounds using classMembers.induct with
  | case1 lo hi rest ih =>
    rw [inClass] at h
    rw [classMembers, List.mem_append, List.mem_range'_1]
    split_ifs at h with h₁ h₂
    · exact .inl ⟨by omega, by omega⟩
    · exact .inr (ih h)
  | case2 bounds hb =>
    rw [inClass] at h
    · cases h
    · exact hb

theorem isBlank_of_isWordChar {c : Char} (h : Name.isWordChar c = true) : isBlank c = false := by
  by_contra hb
  have hc : c.toNat ∈ classMembers blankBounds := mem_classMembers (by simpa [isBlank] using hb)
  have hall : ∀ n ∈ classMembers blankBounds,
      (inClass alphabeticBounds n || inClass numericBounds n || n == '_'.toNat) = false := by
    decide +kernel
  have hn := hall _ hc
  simp only [Bool.or_eq_false_iff, beq_eq_false_iff_ne] at hn
  simp only [Name.isWordChar, isLetterOrNumeric, isLetter, isNumeric, hn, Bool.or_eq_true,
    beq_iff_eq] at h
  rcases h with (h | h) | rfl
  · cases h
  · cases h
  · exact hn.2 rfl

theorem isWordChar_of_startsWord {c : Char} (h : startsWord c = true) :
    Name.isWordChar c = true := by
  simp only [startsWord, Name.isWordChar, isLetterOrNumeric, Bool.or_eq_true] at h ⊢
  exact h.imp_left .inl

theorem isWordChar_of_mem {s : List Char} (h : isWord s = true) {c : Char} (hc : c ∈ s) :
    Name.isWordChar c = true := by
  cases s with
  | nil => cases hc
  | cons d s =>
    simp only [isWord, Bool.and_eq_true, List.all_eq_true] at h
    rcases List.mem_cons.1 hc with rfl | hc
    · exact isWordChar_of_startsWord h.1
    · exact h.2 c hc

theorem exists_of_isWord {s : List Char} (h : isWord s = true) :
    ∃ c rest, s = c :: rest ∧ startsWord c = true := by
  cases s with
  | nil => cases h
  | cons c rest => exact ⟨c, rest, rfl, (Bool.and_eq_true_iff.1 h).1⟩

theorem not_mem_of_isWord {s : List Char} (h : isWord s = true) {c : Char}
    (hc : Name.isWordChar c = false) : c ∉ s := by
  intro hs
  rw [isWordChar_of_mem h hs] at hc
  cases hc

end RpcStubs
