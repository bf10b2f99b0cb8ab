import Mathlib.Tactic.Common
import RpcStubs.Code.Qualifier

namespace RpcStubs

theorem mem_usedImports {used : OrderedSet String} {declared : ImportSet} {i : Import} :
    i ∈ usedImports used declared ↔ i ∈ declared ∧ i.qualifier ∈ used :=
  OrderedSet.mem_filter.trans (and_congr_right fun _ ↦ List.contains_iff_mem)

theorem qualifier_of_standardImport? {q : String} {i : Import} (h : standardImport? q = some i) :
    i.qualifier = q := by
  have hfound := List.find?_some h
  exact beq_iff_eq.1 hfound

def HasQualifier (imports : ImportSet) (q : String) : Prop := ∃ i ∈ imports, i.qualifier = q

theorem any_qualifier_iff {imports : ImportSet} {q : String} :
    imports.items.any (·.qualifier == q) = true ↔ HasQualifier imports q := by
  simp only [List.any_eq_true, beq_iff_eq]
  rfl

def serve (imports : ImportSet) (q : String) : ImportSet :=
  if imports.items.any (·.qualifier == q) then imports
  else
    match standardImport? q with
    | some i => imports.insert i
    | none => imports

theorem mem_serve {imports : ImportSet} {q : String} {i : Import} :
    i ∈ serve imports q ↔ i ∈ imports ∨ ¬HasQualifier imports q ∧ standardImport? q = some i := by
  unfold serve
  split_ifs with hhas
  · simp [any_qualifier_iff.1 hhas]
  · have hhas' := any_qualifier_iff.not.1 hhas
    cases hq : standardImport? q with
    | none => simp
    | some j =>
      simp only [OrderedSet.mem_insert, hhas', not_false_eq_true, true_and, Option.some_inj]
      rw [or_comm, eq_comm]

/-- Serving one qualifier leaves all others as they are. -/
theorem hasQualifier_serve_iff {imports : ImportSet} {q q' : String} (h : q' ≠ q) :
    HasQualifier (serve imports q) q' ↔ HasQualifier imports q' := by
  constructor
  · rintro ⟨i, hi, rfl⟩
    rcases mem_serve.1 hi with hi | ⟨-, hi⟩
    · exact ⟨i, hi, rfl⟩
    · exact absurd (qualifier_of_standardImport? hi) h
  · rintro ⟨i, hi, rfl⟩
    exact ⟨i, mem_serve.2 (.inl hi), rfl⟩

theorem mem_foldl_serve {qs : List String} {imports : ImportSet} {i : Import} :
    i ∈ qs.foldl serve imports ↔
      i ∈ imports ∨ ∃ q ∈ qs, ¬HasQualifier imports q ∧ standardImport? q = some i := by
  induction qs generalizing imports with
  | nil => simp
  | cons q qs ih =>
    rw [List.foldl_cons, ih, mem_serve]
    constructor
    · rintro ((hi | hi) | ⟨q', hq', hhas, hi⟩)
      · exact .inl hi
      · exact .inr ⟨q, List.mem_cons_self, hi⟩
      · refine .inr ⟨q', List.mem_cons_of_mem q hq', fun ⟨j, hj, hjq⟩ ↦ ?_, hi⟩
        exact hhas ⟨j, mem_serve.2 (.inl hj), hjq⟩
    · rintro (hi | ⟨q', hq', hhas, hi⟩)
      · exact .inl (.inl hi)
      · by_cases he : q' = q
        · subst he
          exact .inl (.inr ⟨hhas, hi⟩)
        · have hmem := (List.mem_cons.1 hq').resolve_left he
          exact .inr ⟨q', hmem, (hasQualifier_serve_iff he).not.2 hhas, hi⟩

theorem mem_addedImports_iff {used : OrderedSet String} {kept : ImportSet} {i : Import} :
    i ∈ addedImports used kept ↔
      ∃ q ∈ used, ¬HasQualifier kept q ∧ standardImport? q = some i := by
  rw [addedImports, List.mem_filterMap]
  refine exists_congr fun q ↦ and_congr_right fun _ ↦ ?_
  split_ifs with h
  · simp [any_qualifier_iff.1 h]
  · simp [any_qualifier_iff.not.1 h]

theorem resolveImports_eq_foldl (body : String) (declared : ImportSet) :
    resolveImports body declared =
      (usedQualifiers body).items.foldl serve (usedImports (usedQualifiers body) declared) := by
  refine OrderedSet.ext_mem fun i ↦ ?_
  rw [resolveImports, OrderedSet.mem_insertAll, mem_addedImports_iff, mem_foldl_serve, or_comm]
  rfl

theorem hasQualifier_usedImports_iff {used : OrderedSet String} {declared : ImportSet} {q : String}
    (hq : q ∈ used) : HasQualifier (usedImports used declared) q ↔ HasQualifier declared q := by
  constructor
  · rintro ⟨i, hi, hiq⟩
    exact ⟨i, (mem_usedImports.1 hi).1, hiq⟩
  · rintro ⟨i, hi, rfl⟩
    exact ⟨i, mem_usedImports.2 ⟨hi, hq⟩, rfl⟩

theorem mem_resolveImports_iff {body : String} {declared : ImportSet} {i : Import} :
    i ∈ resolveImports body declared ↔
      i ∈ declared ∧ i.qualifier ∈ usedQualifiers body ∨
        ∃ q ∈ usedQualifiers body, ¬HasQualifier declared q ∧ standardImport? q = some i := by
  rw [resolveImports_eq_foldl, mem_foldl_serve, mem_usedImports]
  refine or_congr_right (exists_congr fun q ↦ and_congr_right fun hq ↦ ?_)
  rw [hasQualifier_usedImports_iff hq]

/-- Imports are resolved for packages that the body uses. -/
theorem qualifier_mem_usedQualifiers {body : String} {declared : ImportSet} {i : Import}
    (h : i ∈ resolveImports body declared) : i.qualifier ∈ usedQualifiers body := by
  rcases mem_resolveImports_iff.1 h with h | ⟨q, hq, -, hi⟩
  · exact h.2
  · rwa [qualifier_of_standardImport? hi]

/-- A used qualifier that some package has is covered. -/
theorem hasQualifier_resolveImports {body : String} {declared : ImportSet} {q : String}
    (hq : q ∈ usedQualifiers body) {i : Import} (hi : standardImport? q = some i) :
    HasQualifier (resolveImports body declared) q := by
  by_cases hhas : HasQualifier declared q
  · obtain ⟨j, hj, rfl⟩ := hhas
    exact ⟨j, mem_resolveImports_iff.2 (.inl ⟨hj, hq⟩), rfl⟩
  · exact ⟨i, mem_resolveImports_iff.2 (.inr ⟨q, hq, hhas, hi⟩), qualifier_of_standardImport? hi⟩

theorem resolveImports_resolveImports (body : String) (declared : ImportSet) :
    resolveImports body (resolveImports body declared) = resolveImports body declared := by
  refine OrderedSet.ext_mem fun i ↦ ?_
  rw [mem_resolveImports_iff]
  constructor
  · rintro (⟨hi, -⟩ | ⟨q, hq, hhas, hi⟩)
    · exact hi
    · exact absurd (hasQualifier_resolveImports hq hi) hhas
  · exact fun hi ↦ .inl ⟨hi, qualifier_mem_usedQualifiers hi⟩

/-- The imports of a body are the declared ones that it uses, and the standard packages of used
qualifiers that no declared import has. Resolving them again changes nothing. -/
theorem resolveImports_exact (body : String) (declared : ImportSet) :
    (∀ i ∈ resolveImports body declared, i.qualifier ∈ usedQualifiers body) ∧
      (∀ i ∈ declared, i.qualifier ∈ usedQualifiers body → i ∈ resolveImports body declared) ∧
      (∀ i ∈ resolveImports body declared, i ∉ declared →
        ∃ q ∈ usedQualifiers body, standardImport? q = some i ∧ ∀ j ∈ declared, j.qualifier ≠ q) ∧
      (∀ q ∈ usedQualifiers body, ∀ i, standardImport? q = some i →
        ∃ j ∈ resolveImports body declared, j.qualifier = q) ∧
      resolveImports body (resolveImports body declared) = resolveImports body declared := by
  refine ⟨fun i ↦ qualifier_mem_usedQualifiers, fun i hi hq ↦ ?_, fun i hi hd ↦ ?_,
    fun q hq i ↦ hasQualifier_resolveImports hq, resolveImports_resolveImports body declared⟩
  · exact mem_resolveImports_iff.2 (.inl ⟨hi, hq⟩)
  · rcases mem_resolveImports_iff.1 hi with ⟨hi, -⟩ | ⟨q, hq, hhas, hi⟩
    · exact absurd hi hd
    · exact ⟨q, hq, hi, fun j hj hjq ↦ hhas ⟨j, hj, hjq⟩⟩

end RpcStubs
