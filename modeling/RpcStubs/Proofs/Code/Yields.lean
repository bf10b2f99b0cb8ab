import Mathlib.Tactic.Common
import RpcStubs.Code.GoType
import RpcStubs.Log.Event
import RpcStubs.Proofs.Code.Words
import RpcStubs.Proofs.Text.Pieces

namespace RpcStubs

open Text

/-- Failures of resolution, construction, invariants and encoding. -/
def Failure.isExpected (f : Failure) : Bool :=
  f.isConstruction || f.isResolution ||
    match f.root with
    | .invariantViolation _ | .encode _ => true
    | _ => false

theorem Failure.isExpected_within (builder : String) (f : Failure) :
    (Failure.within builder f).isExpected = f.isExpected := rfl

theorem Failure.not_isFormat_of_isExpected {f : Failure} (h : f.isExpected = true) :
    f.isFormat = false := by
  unfold isExpected isConstruction isResolution at h
  unfold isFormat
  cases hr : f.root <;> simp_all

/-- Success has the property, and a failure is an expected one. -/
inductive Yields {α : Type} : Build α → (α → Prop) → Prop
  | ok {a : α} {Q : α → Prop} : Q a → Yields (.ok a) Q
  | error {f : Failure} {Q : α → Prop} : f.isExpected = true → Yields (.error f) Q

section Rules

variable {α β : Type} {x : Build α} {Q R : α → Prop}

theorem yields_pure {a : α} (h : Q a) : Yields (pure a) Q := .ok h

theorem Yields.of_ok {a : α} (h : Yields (.ok a) Q) : Q a := by
  cases h with
  | ok h => exact h

theorem Yields.of_error {f : Failure} (h : Yields (.error f) Q) : f.isExpected = true := by
  cases h with
  | error h => exact h

theorem Yields.mono (h : Yields x Q) (hQ : ∀ a, Q a → R a) : Yields x R := by
  cases h with
  | ok h => exact .ok (hQ _ h)
  | error h => exact .error h

theorem Yields.with_eq (h : Yields x Q) : Yields x fun a ↦ Q a ∧ x = .ok a := by
  cases h with
  | ok h => exact .ok ⟨h, rfl⟩
  | error h => exact .error h

theorem yields_forall {ι : Type} [Nonempty ι] {S : ι → α → Prop} (h : ∀ i, Yields x (S i)) :
    Yields x fun a ↦ ∀ i, S i a := by
  cases x with
  | ok a => exact .ok fun i ↦ (h i).of_ok
  | error f => exact .error (h (Classical.arbitrary ι)).of_error

theorem Yields.bind {f : α → Build β} {S : β → Prop} (h : Yields x Q)
    (hf : ∀ a, Q a → Yields (f a) S) : Yields (x >>= f) S := by
  cases h with
  | ok h => exact hf _ h
  | error h => exact .error h

theorem Yields.mapError (h : Yields x Q) {g : Failure → Failure}
    (hg : ∀ f, (g f).isExpected = f.isExpected) : Yields (x.mapError g) Q := by
  cases h with
  | ok h => exact .ok h
  | error h => exact .error ((hg _).trans h)

theorem Yields.inBuilder (h : Yields x Q) (builder : String) :
    Yields (Build.inBuilder builder x) Q :=
  h.mapError (Failure.isExpected_within builder)

/-- `I` holds of the elements that were folded and the result so far. -/
theorem yields_foldlM {f : β → α → Build β} (I : List α → β → Prop) {l : List α} {b : β}
    (h₀ : I [] b) (h : ∀ done a b, a ∈ l → I done b → Yields (f b a) (I (done ++ [a]))) :
    Yields (l.foldlM f b) (I l) := by
  have hall : ∀ (rest done : List α) (b : β), (∀ a ∈ rest, a ∈ l) → I done b →
      Yields (rest.foldlM f b) (I (done ++ rest)) := by
    intro rest
    induction rest with
    | nil =>
      intro done b _ hI
      rw [List.append_nil]
      exact .ok hI
    | cons a rest ih =>
      intro done b hmem hI
      rw [List.foldlM_cons]
      refine (h done a b (hmem a List.mem_cons_self) hI).bind fun b' hI' ↦ ?_
      have h' := ih (done ++ [a]) b' (fun c hc ↦ hmem c (List.mem_cons_of_mem a hc)) hI'
      rwa [List.append_assoc] at h'
  exact hall l [] b (fun _ ha ↦ ha) h₀

theorem yields_mapM {f : α → Build β} {S : α → β → Prop} {l : List α}
    (h : ∀ a ∈ l, Yields (f a) (S a)) :
    Yields (l.mapM f) fun bs ↦ (∀ a ∈ l, ∃ b ∈ bs, S a b) ∧ ∀ b ∈ bs, ∃ a ∈ l, S a b := by
  induction l with
  | nil => exact yields_pure (by simp)
  | cons a l ih =>
    rw [List.mapM_cons]
    refine (h a List.mem_cons_self).bind fun b hb ↦ ?_
    refine (ih fun c hc ↦ h c (List.mem_cons_of_mem a hc)).bind fun bs hbs ↦ yields_pure ⟨?_, ?_⟩
    · refine List.forall_mem_cons.2 ⟨⟨b, List.mem_cons_self, hb⟩, fun c hc ↦ ?_⟩
      obtain ⟨d, hd, hS⟩ := hbs.1 c hc
      exact ⟨d, List.mem_cons_of_mem b hd, hS⟩
    · refine List.forall_mem_cons.2 ⟨⟨a, List.mem_cons_self, hb⟩, fun d hd ↦ ?_⟩
      obtain ⟨c, hc, hS⟩ := hbs.2 d hd
      exact ⟨c, List.mem_cons_of_mem a hc, hS⟩

theorem yields_mapM_forall {f : α → Build β} {S : β → Prop} {l : List α}
    (h : ∀ a ∈ l, Yields (f a) S) : Yields (l.mapM f) fun bs ↦ ∀ b ∈ bs, S b :=
  (yields_mapM h).mono fun _ hbs b hb ↦ (hbs.2 b hb).elim fun _ ha ↦ ha.2

end Rules

theorem isWord_of_legal {s : String} (h : identifierFault? s = none) :
    isWord s.toList = true := by
  unfold identifierFault? at h
  split at h
  · cases h
  · next c rest hs =>
    split_ifs at h with hc hr
    rw [hs, isWord]
    simp_all

theorem not_isKeyword_of_legal {s : String} (h : identifierFault? s = none) :
    isKeyword s = false := by
  unfold identifierFault? at h
  split at h
  · cases h
  · split_ifs at h with hc hr hk
    simpa using hk

theorem yields_checkIdentifier (s : String) :
    Yields (checkIdentifier s) fun _ ↦ identifierFault? s = none := by
  unfold checkIdentifier
  split
  · exact .ok ‹_›
  · exact .error rfl

theorem yields_checkIdentifiers (names : List String) :
    Yields (checkIdentifiers names) fun _ ↦ ∀ s ∈ names, identifierFault? s = none := by
  induction names with
  | nil => exact .ok (by simp)
  | cons s names ih =>
    rw [checkIdentifiers]
    refine (yields_checkIdentifier s).bind fun _ hs ↦ ih.mono fun _ hrest ↦ ?_
    exact List.forall_mem_cons.2 ⟨hs, hrest⟩

theorem yields_ofString (s : String) : Yields (Identifier.ofString s) fun i ↦ i.name = s := by
  unfold Identifier.ofString
  split
  · exact .ok rfl
  · exact .error rfl

theorem yields_checkSelector (builder field s : String) :
    Yields (checkSelector builder field s) fun _ ↦
      ∀ w ∈ pieces '.' s.toList, identifierFault? (String.ofList w) = none := by
  unfold checkSelector
  split_ifs with hempty hall
  · exact .error rfl
  · refine .ok fun w hw ↦ ?_
    simp only [segments, List.all_map, List.all_eq_true, Function.comp_apply,
      Option.isNone_iff_eq_none] at hall
    exact hall w hw
  · exact .error rfl

theorem yields_checkOperand (builder field s : String) :
    Yields (checkOperand builder field s) fun _ ↦ True := by
  simp only [checkOperand]
  split_ifs
  · exact .error rfl
  · exact .error rfl
  · exact .ok trivial

theorem yields_checkTypeName (s : String) :
    Yields (GoType.checkTypeName s) fun _ ↦ isWord s.toList = true := by
  unfold GoType.checkTypeName
  split_ifs with h
  · exact .ok h
  · exact .error rfl

theorem yields_declared (name : String) :
    Yields (GoType.declared name) fun t ↦
      t = .named name none none ∧ isWord name.toList = true :=
  (yields_checkTypeName name).bind fun _ h ↦ yields_pure ⟨rfl, h⟩

theorem yields_qualified (package name : String) (origin : Option Import) :
    Yields (GoType.qualified package name origin) fun t ↦ t = .named name (some package) origin ∧
      isWord package.toList = true ∧ isWord name.toList = true :=
  (yields_checkTypeName package).bind fun _ hp ↦
    (yields_checkTypeName name).bind fun _ hn ↦ yields_pure ⟨rfl, hp, hn⟩

theorem yields_checkAll (params : List Parameter) :
    Yields (Parameter.checkAll params) fun _ ↦
      ∀ p ∈ params, identifierFault? p.name = none := by
  induction params with
  | nil => exact .ok (by simp)
  | cons p params ih =>
    have hp : Yields p.check fun _ ↦ identifierFault? p.name = none := by
      unfold Parameter.check
      split_ifs
      · exact .error rfl
      · exact .error rfl
      · exact yields_checkIdentifier p.name
    rw [Parameter.checkAll]
    refine hp.bind fun _ hname ↦ ih.mono fun _ hrest ↦ ?_
    exact List.forall_mem_cons.2 ⟨hname, hrest⟩

end RpcStubs
