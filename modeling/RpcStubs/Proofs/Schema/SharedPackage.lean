import Mathlib.Data.Set.Basic
import RpcStubs.Proofs.Schema.PackageNames

namespace RpcStubs.Schema

section Agreement

variable {setting name : String} {names : List String}

theorem agreed_eq_none_iff : agreed setting names = .ok none ↔ names = [] := by
  cases names with
  | nil => simp [agreed]
  | cons first rest =>
    rw [agreed]
    split <;> simp

theorem agreed_eq_some_iff :
    agreed setting names = .ok (some name) ↔ names ≠ [] ∧ ∀ n ∈ names, n = name := by
  constructor
  · intro h
    refine ⟨?_, agreed_eq_some h⟩
    rintro rfl
    cases h
  · rintro ⟨hne, hall⟩
    obtain ⟨first, rest, rfl⟩ := List.exists_cons_of_ne_nil hne
    obtain rfl : first = name := hall first List.mem_cons_self
    have hrest : rest.find? (· ≠ first) = none :=
      List.find?_eq_none.2 fun n hn ↦ by simpa using hall n (List.mem_cons_of_mem _ hn)
    rw [agreed, hrest]

theorem agreed_eq_error {failure : Failure} (h : agreed setting names = .error failure) :
    ∃ first ∈ names, ∃ second ∈ names, first ≠ second ∧
      failure = .conflictingPackageName setting first second := by
  cases names with
  | nil => cases h
  | cons first rest =>
    rw [agreed] at h
    split at h
    · next second hfind =>
      cases h
      have hne : second ≠ first := by simpa using List.find?_some hfind
      exact ⟨first, List.mem_cons_self, second,
        List.mem_cons_of_mem _ (List.mem_of_find?_eq_some hfind), hne.symm, rfl⟩
    · cases h

end Agreement

def explicitPackages (files : List File) : Set String :=
  {p | ∃ f ∈ files, ∃ option, f.goPackage? = some option ∧
    Name.sanitize (Name.baseName option.name) = p}

def implicitPackages (files : List File) : Set String :=
  {p | ∃ f ∈ files, Name.sanitize (Name.baseName f.implicitName) = p}

variable {files : List File} {p : String}

theorem mem_explicitNames_iff : p ∈ explicitNames files ↔ p ∈ explicitPackages files := by
  simp [explicitNames, explicitPackages, packageIdent]

theorem mem_implicitNames_iff :
    p ∈ files.map (fun f ↦ packageIdent f.implicitName) ↔ p ∈ implicitPackages files := by
  simp [implicitPackages, packageIdent]

theorem explicitNames_eq_nil_iff : explicitNames files = [] ↔ explicitPackages files = ∅ := by
  rw [List.eq_nil_iff_forall_not_mem, Set.eq_empty_iff_forall_notMem]
  exact forall_congr' fun _ ↦ not_congr mem_explicitNames_iff

theorem deducePackage_eq_ok_iff_agreed :
    deducePackage files = .ok p ↔
      agreed explicitSetting (explicitNames files) = .ok (some p) ∨
        agreed explicitSetting (explicitNames files) = .ok none ∧
          agreed implicitSetting (files.map fun f ↦ packageIdent f.implicitName) =
            .ok (some p) := by
  unfold deducePackage
  generalize agreed explicitSetting (explicitNames files) = explicit
  generalize agreed implicitSetting (files.map fun f ↦ packageIdent f.implicitName) = implicit
  rcases explicit with _ | _ | name
  · simp [bind, Except.bind]
  · rcases implicit with _ | _ | name <;>
      simp [bind, Except.bind, pure, Except.pure, throw, throwThe, MonadExceptOf.throw]
  · simp [bind, Except.bind, pure, Except.pure]

/-- Where there are files, only names that differ make the deduction fail. -/
theorem deducePackage_eq_error (hne : files ≠ []) {failure : Failure}
    (h : deducePackage files = .error failure) :
    agreed explicitSetting (explicitNames files) = .error failure ∨
      agreed explicitSetting (explicitNames files) = .ok none ∧
        agreed implicitSetting (files.map fun f ↦ packageIdent f.implicitName) =
          .error failure := by
  have himplicit : agreed implicitSetting (files.map fun f ↦ packageIdent f.implicitName) ≠
      .ok none := by
    rw [ne_eq, agreed_eq_none_iff, List.map_eq_nil_iff]
    exact hne
  unfold deducePackage at h
  generalize agreed explicitSetting (explicitNames files) = explicit at h ⊢
  generalize agreed implicitSetting (files.map fun f ↦ packageIdent f.implicitName) = implicit
    at h himplicit ⊢
  rcases explicit with _ | _ | name
  · cases h
    exact .inl rfl
  · refine .inr ⟨rfl, ?_⟩
    rcases implicit with _ | _ | name
    · cases h
      rfl
    · exact absurd rfl himplicit
    · cases h
  · cases h

/-- Files that name packages share the one that all of them name. -/
theorem deducePackage_eq_ok_iff_forall :
    deducePackage files = .ok p ↔
      ((explicitPackages files).Nonempty ∧ ∀ n ∈ explicitPackages files, n = p) ∨
        (explicitPackages files = ∅ ∧ files ≠ [] ∧ ∀ n ∈ implicitPackages files, n = p) := by
  rw [deducePackage_eq_ok_iff_agreed, agreed_eq_some_iff, agreed_eq_none_iff, agreed_eq_some_iff,
    Set.nonempty_iff_ne_empty, ne_eq, explicitNames_eq_nil_iff, ne_eq (List.map ..),
    List.map_eq_nil_iff]
  simp only [mem_explicitNames_iff, mem_implicitNames_iff, ne_eq]

/-- The names that conflict come from the options, or without options from the files. -/
theorem exists_conflict_of_deducePackage_eq_error (hne : files ≠ []) {failure : Failure}
    (h : deducePackage files = .error failure) :
    ∃ first second, first ≠ second ∧
      ((first ∈ explicitPackages files ∧ second ∈ explicitPackages files ∧
          failure = .conflictingPackageName explicitSetting first second) ∨
        (explicitPackages files = ∅ ∧
          first ∈ implicitPackages files ∧ second ∈ implicitPackages files ∧
          failure = .conflictingPackageName implicitSetting first second)) := by
  rcases deducePackage_eq_error hne h with h | ⟨hnone, h⟩
  · obtain ⟨first, hfirst, second, hsecond, hdiffer, hfailure⟩ := agreed_eq_error h
    exact ⟨first, second, hdiffer, .inl
      ⟨mem_explicitNames_iff.1 hfirst, mem_explicitNames_iff.1 hsecond, hfailure⟩⟩
  · obtain ⟨first, hfirst, second, hsecond, hdiffer, hfailure⟩ := agreed_eq_error h
    exact ⟨first, second, hdiffer, .inr
      ⟨explicitNames_eq_nil_iff.1 (agreed_eq_none_iff.1 hnone), mem_implicitNames_iff.1 hfirst,
        mem_implicitNames_iff.1 hsecond, hfailure⟩⟩

/-- The set of files decides: not their order, and not how often each of them is listed. -/
theorem deducePackage_eq_ok_congr {files' : List File} (h : ∀ f, f ∈ files' ↔ f ∈ files)
    (p : String) :
    deducePackage files' = .ok p ↔ deducePackage files = .ok p := by
  have hexplicit : explicitPackages files' = explicitPackages files := by
    simp only [explicitPackages, h]
  have himplicit : implicitPackages files' = implicitPackages files := by
    simp only [implicitPackages, h]
  have hnil : files' = [] ↔ files = [] := by
    simp only [List.eq_nil_iff_forall_not_mem, h]
  rw [deducePackage_eq_ok_iff_forall, deducePackage_eq_ok_iff_forall, hexplicit, himplicit, ne_eq,
    hnil]

/-- Files share a package when their options agree on one name, or when there are no options and the
implicit names agree. Otherwise two names that differ are reported, of those that had to agree. -/
theorem deducePackage_decided_by_names (hne : files ≠ []) :
    (∀ p, deducePackage files = .ok p ↔
        ((explicitPackages files).Nonempty ∧ ∀ n ∈ explicitPackages files, n = p) ∨
          (explicitPackages files = ∅ ∧ ∀ n ∈ implicitPackages files, n = p)) ∧
      (∀ failure, deducePackage files = .error failure → ∃ first second, first ≠ second ∧
        ((first ∈ explicitPackages files ∧ second ∈ explicitPackages files ∧
            failure = .conflictingPackageName "go_package settings, must be the same"
              first second) ∨
          (explicitPackages files = ∅ ∧
            first ∈ implicitPackages files ∧ second ∈ implicitPackages files ∧
            failure = .conflictingPackageName
              "package names, must be the same or overridden with go_package" first second))) ∧
      ∀ files' : List File, (∀ f, f ∈ files' ↔ f ∈ files) →
        ∀ p, deducePackage files' = .ok p ↔ deducePackage files = .ok p := by
  refine ⟨fun p ↦ ?_, fun failure h ↦ exists_conflict_of_deducePackage_eq_error hne h,
    fun files' h ↦ deducePackage_eq_ok_congr h⟩
  rw [deducePackage_eq_ok_iff_forall, and_iff_right hne]

def mixed : List File := [
  { (default : File) with name := "a.proto", goPackage := "example.com/x/api" },
  { (default : File) with name := "b.proto", package := "other" },
  { (default : File) with name := "c.proto", goPackage := "example.com/y;api" }]

theorem deducePackage_decided_mixed :
    mixed ≠ [] ∧ deducePackage mixed = .ok "api" ∧
      (∀ n ∈ explicitPackages mixed, n = "api") ∧
      deducePackage (mixed.reverse ++ mixed) = .ok "api" := by
  have hne : mixed ≠ [] := List.cons_ne_nil _ _
  obtain ⟨hok, -, hset⟩ := deducePackage_decided_by_names hne
  have hpackage : deducePackage mixed = .ok "api" := by decide +kernel
  refine ⟨hne, hpackage, ?_, (hset _ (by simp) "api").2 hpackage⟩
  rcases (hok "api").1 hpackage with ⟨-, hall⟩ | ⟨hempty, -⟩
  · exact hall
  · simp [hempty]

end RpcStubs.Schema
