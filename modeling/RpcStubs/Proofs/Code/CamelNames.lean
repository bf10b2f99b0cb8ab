import Mathlib
import RpcStubs.Code.Name

namespace RpcStubs.Name

def EndsWord (c : Char) : Prop := c.isDigit = true ∨ c = '_'

theorem isAlpha_of_endsWord {c : Char} (h : EndsWord c) : c.isAlpha = false := by
  rcases h with hdigit | rfl
  · rw [Char.isDigit_iff_toNat] at hdigit
    have hnine : '9'.toNat = 57 := rfl
    simp [Char.isAlpha, Char.isUpper, Char.isLower, UInt32.le_iff_toNat_le]
    omega
  · decide

theorem isLower_of_endsWord {c : Char} (h : EndsWord c) : c.isLower = false := by
  have halpha := isAlpha_of_endsWord h
  rw [Char.isAlpha, Bool.or_eq_false_iff] at halpha
  exact halpha.2

theorem toUpper_of_endsWord {c : Char} (h : EndsWord c.toUpper) : c.toUpper = c := by
  have halpha := isAlpha_of_endsWord h
  rw [Char.isAlpha_toUpper_eq_isAlpha, Char.isAlpha, Bool.or_eq_false_iff] at halpha
  exact Char.toUpper_eq_of_not_isLower (by simp [halpha.2])

theorem startsLower_eq_false_iff {s : List Char} :
    startsLower s = false ↔ ∀ c ∈ s.head?, c.isLower = false := by
  cases s <;> simp [startsLower]

theorem camelWords_cases (inWord : Bool) (c : Char) (rest : List Char) :
    (inWord = true ∧ c.isLower = true ∧
        camelWords inWord (c :: rest) = c :: camelWords true rest) ∨
      (c = '_' ∧ startsLower rest = true ∧
        camelWords inWord (c :: rest) = camelWords false rest) ∨
      (c.isDigit = true ∧ camelWords inWord (c :: rest) = c :: camelWords false rest) ∨
      (c.isDigit = false ∧ (inWord = true → c.isLower = false) ∧
        (c = '_' → startsLower rest = false) ∧
        camelWords inWord (c :: rest) = c.toUpper :: camelWords true rest) := by
  rw [camelWords]
  split_ifs with hword hskip hdigit
  · simp only [Bool.and_eq_true] at hword
    exact .inl ⟨hword.1, hword.2, rfl⟩
  · simp only [Bool.and_eq_true, decide_eq_true_eq] at hskip
    exact .inr (.inl ⟨hskip.1, hskip.2, rfl⟩)
  · exact .inr (.inr (.inl ⟨hdigit, rfl⟩))
  · exact .inr (.inr (.inr
      ⟨by simpa using hdigit, by simpa using hword, by simpa using hskip, rfl⟩))

/-- No lower case letter stands first, behind a digit or behind an underscore, and no underscore
stands first. -/
structure Camel (s : List Char) : Prop where
  first : ∀ c ∈ s.head?, c ≠ '_' ∧ c.isLower = false
  joined : s.IsChain fun a b ↦ EndsWord a → b.isLower = false

theorem head?_camelWords (inWord : Bool) {s : List Char}
    (h : inWord = true → startsLower s = false) :
    ∀ c ∈ (camelWords inWord s).head?, c.isLower = false := by
  induction s generalizing inWord with
  | nil => simp [camelWords]
  | cons c s ih =>
    obtain ⟨hword, hlower, hcamel⟩ | ⟨-, -, hcamel⟩ | ⟨hdigit, hcamel⟩ | ⟨-, -, -, hcamel⟩ :=
      camelWords_cases inWord c s <;> rw [hcamel]
    · have hstarts := h hword
      rw [startsLower, hlower] at hstarts
      cases hstarts
    · exact ih false nofun
    · simpa using isLower_of_endsWord (.inl hdigit)
    · simp

theorem isChain_camelWords (inWord : Bool) (s : List Char) :
    (camelWords inWord s).IsChain fun a b ↦ EndsWord a → b.isLower = false := by
  induction s generalizing inWord with
  | nil => exact .nil
  | cons c s ih =>
    obtain ⟨-, hlower, hcamel⟩ | ⟨-, -, hcamel⟩ | ⟨-, hcamel⟩ | ⟨hdigit, -, hskip, hcamel⟩ :=
      camelWords_cases inWord c s <;> rw [hcamel]
    · refine List.isChain_cons.2 ⟨fun d _ hc ↦ ?_, ih true⟩
      rw [isLower_of_endsWord hc] at hlower
      cases hlower
    · exact ih false
    · exact List.isChain_cons.2 ⟨fun d hd _ ↦ head?_camelWords false nofun d hd, ih false⟩
    · refine List.isChain_cons.2 ⟨fun d hd hc ↦ ?_, ih true⟩
      -- what is written ends a word only if it is what was read
      rw [toUpper_of_endsWord hc] at hc
      have hunderscore : c = '_' := hc.resolve_left (by simp [hdigit])
      exact head?_camelWords true (fun _ ↦ hskip hunderscore) d hd

theorem camel_camelChars (s : List Char) : Camel (camelChars s) := by
  unfold camelChars
  split
  · next rest =>
    refine ⟨by simp, List.isChain_cons.2 ⟨fun _ _ hc ↦ ?_, isChain_camelWords false rest⟩⟩
    exact absurd (isAlpha_of_endsWord hc) (by decide)
  · next hfirst =>
    refine ⟨fun c hc ↦ ⟨?_, head?_camelWords false nofun c hc⟩, isChain_camelWords false s⟩
    rintro rfl
    cases s with
    | nil => simp [camelWords] at hc
    | cons c s =>
      have hc' : c ≠ '_' := fun h ↦ hfirst s (h ▸ rfl)
      obtain ⟨hword, -⟩ | ⟨hskip, -⟩ | ⟨-, hcamel⟩ | ⟨-, -, -, hcamel⟩ :=
        camelWords_cases false c s
      · cases hword
      · exact hc' hskip
      · rw [hcamel] at hc
        exact hc' (Option.some_inj.1 hc)
      · rw [hcamel] at hc
        have hupper : c.toUpper = '_' := Option.some_inj.1 hc
        exact hc' (toUpper_of_endsWord (.inr hupper) ▸ hupper)

theorem camelWords_eq_self {inWord : Bool} {s : List Char}
    (hjoined : s.IsChain fun a b ↦ EndsWord a → b.isLower = false)
    (hfirst : inWord = false → startsLower s = false) : camelWords inWord s = s := by
  induction s generalizing inWord with
  | nil => rfl
  | cons c s ih =>
    obtain ⟨hnext, hjoined⟩ := List.isChain_cons.1 hjoined
    have hstarts (hc : EndsWord c) : startsLower s = false :=
      startsLower_eq_false_iff.2 fun d hd ↦ hnext d hd hc
    have htrue : camelWords true s = s := ih hjoined (by simp)
    obtain ⟨-, -, hcamel⟩ | ⟨rfl, hlower, -⟩ | ⟨hdigit, hcamel⟩ | ⟨-, hlower, -, hcamel⟩ :=
      camelWords_cases inWord c s
    · rw [hcamel, htrue]
    · rw [hstarts (.inr rfl)] at hlower
      cases hlower
    · rw [hcamel, ih hjoined fun _ ↦ hstarts (.inl hdigit)]
    · have hc : c.isLower = false := by
        cases inWord with
        | false => exact hfirst rfl
        | true => exact hlower rfl
      rw [hcamel, htrue, Char.toUpper_eq_of_not_isLower (by simp [hc])]

theorem camelChars_eq_self_iff {s : List Char} : camelChars s = s ↔ Camel s := by
  constructor
  · intro h
    rw [← h]
    exact camel_camelChars s
  · intro h
    unfold camelChars
    split
    · next rest => exact absurd rfl (h.first '_' rfl).1
    · exact camelWords_eq_self h.joined fun _ ↦
        startsLower_eq_false_iff.2 fun c hc ↦ (h.first c hc).2

theorem camel_camelCase (s : String) : Camel (camelCase s).toList := by
  rw [camelCase, String.toList_ofList]
  exact camel_camelChars s.toList

theorem camelCase_eq_self_iff {s : String} : camelCase s = s ↔ Camel s.toList := by
  rw [← String.toList_inj, camelCase, String.toList_ofList, camelChars_eq_self_iff]

def Raises (a b : Char) : Prop := b = a ∨ b = a.toUpper

def kept (s : List Char) : List Char := s.filter (· ≠ '_')

theorem Raises.toLower_eq {a b : Char} (h : Raises a b) : b.toLower = a.toLower := by
  rcases h with rfl | rfl
  · rfl
  · exact Char.toLower_toUpper_eq_toLower a

theorem map_toLower_of_raises {s t : List Char} (h : List.Forall₂ Raises s t) :
    t.map Char.toLower = s.map Char.toLower := by
  induction h with
  | nil => rfl
  | cons hab _ ih => rw [List.map_cons, List.map_cons, hab.toLower_eq, ih]

theorem toUpper_eq_underscore_iff {c : Char} : c.toUpper = '_' ↔ c = '_' := by
  constructor
  · intro h
    rw [← toUpper_of_endsWord (.inr h), h]
  · rintro rfl
    decide

theorem kept_cons (c : Char) (s : List Char) :
    kept (c :: s) = if c = '_' then kept s else c :: kept s := by
  simp [kept, List.filter_cons]

theorem kept_cons_raises {c d : Char} (h : Raises c d) {s t : List Char}
    (hst : List.Forall₂ Raises (kept s) (kept t)) :
    List.Forall₂ Raises (kept (c :: s)) (kept (d :: t)) := by
  have hunderscore : d = '_' ↔ c = '_' := by
    rcases h with rfl | rfl
    · rfl
    · exact toUpper_eq_underscore_iff
  rw [kept_cons, kept_cons]
  by_cases hc : c = '_'
  · rwa [if_pos hc, if_pos (hunderscore.2 hc)]
  · rw [if_neg hc, if_neg (mt hunderscore.1 hc)]
    exact .cons h hst

theorem raises_camelWords (inWord : Bool) (s : List Char) :
    List.Forall₂ Raises (kept s) (kept (camelWords inWord s)) := by
  induction s generalizing inWord with
  | nil => exact .nil
  | cons c s ih =>
    obtain ⟨-, -, hcamel⟩ | ⟨rfl, -, hcamel⟩ | ⟨-, hcamel⟩ | ⟨-, -, -, hcamel⟩ :=
      camelWords_cases inWord c s <;> rw [hcamel]
    · exact kept_cons_raises (.inl rfl) (ih true)
    · exact ih false
    · exact kept_cons_raises (.inl rfl) (ih false)
    · exact kept_cons_raises (.inr rfl) (ih true)

def lead (s : List Char) : List Char := if s.head? = some '_' then ['x'] else []

/-- What is left of a name when neither case nor underscores count. -/
def folded (s : List Char) : List Char := (kept s).map Char.toLower

theorem raises_camelChars (s : List Char) :
    List.Forall₂ Raises (lead s ++ kept s) (kept (camelChars s)) := by
  unfold camelChars
  split
  · next rest => exact .cons (.inr rfl) (raises_camelWords false rest)
  · next hfirst =>
    have hlead : lead s = [] := by
      refine if_neg fun h ↦ ?_
      cases s with
      | nil => cases h
      | cons c s => exact hfirst s (congrArg (· :: s) (Option.some_inj.1 h))
    rw [hlead]
    exact raises_camelWords false s

theorem folded_camelChars (s : List Char) : folded (camelChars s) = lead s ++ folded s := by
  have hlead : (lead s).map Char.toLower = lead s := by
    unfold lead
    split_ifs
    · decide
    · rfl
  calc folded (camelChars s) = (lead s ++ kept s).map Char.toLower :=
        map_toLower_of_raises (raises_camelChars s)
    _ = lead s ++ folded s := by rw [List.map_append, hlead, folded]

/-- Camel case is a normal form: names in it are left as they are, and what it does to other names
is to raise letters and to drop underscores, so that names with one camel case differ in case and
underscores only. -/
theorem camelCase_normalizes (s : String) :
    camelCase (camelCase s) = camelCase s ∧ Camel (camelCase s).toList ∧
      folded (camelCase s).toList = lead s.toList ++ folded s.toList ∧
      List.Forall₂ Raises (lead s.toList ++ kept s.toList) (kept (camelCase s).toList) ∧
      ∀ t, camelCase t = camelCase s →
        lead t.toList ++ folded t.toList = lead s.toList ++ folded s.toList := by
  have hfolded (t : String) :
      folded (camelCase t).toList = lead t.toList ++ folded t.toList := by
    rw [camelCase, String.toList_ofList, folded_camelChars]
  refine ⟨camelCase_eq_self_iff.2 (camel_camelCase s), camel_camelCase s, hfolded s, ?_,
    fun t ht ↦ ?_⟩
  · rw [camelCase, String.toList_ofList]
    exact raises_camelChars s.toList
  · rw [← hfolded t, ht, hfolded s]

example : camelCase "_get_v2__status_" = "XGetV2_Status_" := by decide

end RpcStubs.Name
