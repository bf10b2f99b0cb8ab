import Mathlib.Tactic.Common
import RpcStubs.Proofs.Code.Inversion
import RpcStubs.Proofs.Text.Trim
import RpcStubs.Schema.Context

namespace RpcStubs

namespace Text

variable {sep : Char} {s a b : List Char}

theorem cutFirst_eq_none_iff : cutFirst sep s = none ↔ sep ∉ s := by
  induction s with
  | nil => simp [cutFirst]
  | cons c s ih =>
    rw [cutFirst]
    split_ifs with hc
    · simp [hc]
    · simp [ih, Ne.symm hc]

theorem cutLast_eq_some_iff : cutLast sep s = some (a, b) ↔ s = a ++ sep :: b ∧ sep ∉ b := by
  rw [cutLast, Option.map_eq_some_iff]
  constructor
  · rintro ⟨⟨after, before⟩, hcut, h⟩
    cases h
    obtain ⟨hs, hsep⟩ := cutFirst_eq_some_iff.1 hcut
    refine ⟨?_, by simpa using hsep⟩
    rw [← List.reverse_reverse s, hs]
    simp
  · rintro ⟨rfl, hsep⟩
    refine ⟨(b.reverse, a.reverse), cutFirst_eq_some_iff.2 ⟨by simp, by simpa using hsep⟩, ?_⟩
    simp

theorem cutLast_eq_none_iff : cutLast sep s = none ↔ sep ∉ s := by
  rw [cutLast, Option.map_eq_none_iff, cutFirst_eq_none_iff, List.mem_reverse]

end Text

namespace Name

open Text

def Wordless (s : List Char) : Prop := ∀ c ∈ s, isWordChar c = false

/-- A name that has nothing to lose with its directory or its extension. -/
structure Whole (s : String) : Prop where
  directory : ∀ dir last, s.toList = dir ++ '/' :: last → '/' ∉ last → Wordless dir
  extension : ∀ stem ext, s.toList = stem ++ '.' :: ext → '/' ∉ ext → '.' ∉ ext → Wordless ext

theorem filter_isWordChar_eq_nil_iff {s : List Char} : s.filter isWordChar = [] ↔ Wordless s := by
  simp [Wordless]

def beforeExtension (last : List Char) : List Char :=
  match cutLast '.' last with
  | some (stem, _) => stem
  | none => last

theorem toList_baseName (s : String) :
    (baseName s).toList = beforeExtension (afterLast '/' s.toList) := by
  unfold baseName beforeExtension
  cases hcut : cutLast '.' (afterLast '/' s.toList) with
  | none => simp only [hcut, String.toList_ofList]
  | some cut => simp only [hcut, String.toList_ofList]

theorem sublist_beforeExtension (last : List Char) : (beforeExtension last).Sublist last := by
  unfold beforeExtension
  split
  · next stem ext hcut =>
    obtain ⟨rfl, -⟩ := cutLast_eq_some_iff.1 hcut
    exact List.sublist_append_left stem _
  · exact .refl last

theorem filter_beforeExtension_iff {last : List Char} :
    (beforeExtension last).filter isWordChar = last.filter isWordChar ↔
      ∀ stem ext, last = stem ++ '.' :: ext → '.' ∉ ext → Wordless ext := by
  cases hcut : cutLast '.' last with
  | none =>
    have hdot := cutLast_eq_none_iff.1 hcut
    simp only [beforeExtension, hcut, true_iff]
    rintro stem ext rfl -
    simp at hdot
  | some cut =>
    obtain ⟨stem, ext⟩ := cut
    obtain ⟨rfl, -⟩ := cutLast_eq_some_iff.1 hcut
    have hfilter : (stem ++ '.' :: ext).filter isWordChar =
        stem.filter isWordChar ++ ext.filter isWordChar := by
      rw [List.filter_append, List.filter_cons_of_neg (by decide)]
    simp only [beforeExtension, hcut, hfilter, List.self_eq_append_right,
      filter_isWordChar_eq_nil_iff]
    constructor
    · intro hext stem' ext' h hdot
      have hsame := cutLast_eq_some_iff.2 ⟨h, hdot⟩
      cases hcut.symm.trans hsame
      exact hext
    · intro h
      exact h stem ext rfl (cutLast_eq_some_iff.1 hcut).2

/-- Behind the last slash an extension is one of the whole name. -/
theorem extension_of_directory {dir last stem ext : List Char}
    (h : dir ++ '/' :: last = stem ++ '.' :: ext) (hext : '/' ∉ ext) :
    ∃ t, last = t ++ '.' :: ext := by
  rcases List.append_eq_append_iff.1 h with ⟨l, -, hl⟩ | ⟨l, -, hl⟩
  · cases l with
    | nil => cases hl
    | cons c l => exact ⟨l, (List.cons.inj hl).2⟩
  · cases l with
    | nil => cases hl
    | cons c l =>
      obtain ⟨-, rfl⟩ := List.cons.inj hl
      simp at hext

theorem whole_iff_of_directory {s : String} {dir last : List Char}
    (hs : s.toList = dir ++ '/' :: last) (hlast : '/' ∉ last) :
    Whole s ↔ Wordless dir ∧
      ∀ stem ext, last = stem ++ '.' :: ext → '.' ∉ ext → Wordless ext := by
  constructor
  · intro h
    refine ⟨h.directory dir last hs hlast, fun stem ext hsplit hdot ↦ ?_⟩
    refine h.extension (dir ++ '/' :: stem) ext (by simp [hs, hsplit]) (fun hslash ↦ ?_) hdot
    exact hlast (hsplit ▸ List.mem_append_right _ (List.mem_cons_of_mem _ hslash))
  · rintro ⟨hdir, hext⟩
    constructor
    · intro dir' last' hs' hlast'
      have hcut := cutLast_eq_some_iff.2 ⟨hs, hlast⟩
      cases hcut.symm.trans (cutLast_eq_some_iff.2 ⟨hs', hlast'⟩)
      exact hdir
    · intro stem ext hs' hslash hdot
      obtain ⟨t, ht⟩ := extension_of_directory (hs.symm.trans hs') hslash
      exact hext t ext ht hdot

theorem whole_iff_of_not_mem {s : String} (hs : '/' ∉ s.toList) :
    Whole s ↔ ∀ stem ext, s.toList = stem ++ '.' :: ext → '.' ∉ ext → Wordless ext := by
  constructor
  · intro h stem ext hsplit hdot
    refine h.extension stem ext hsplit (fun hslash ↦ hs ?_) hdot
    exact hsplit ▸ List.mem_append_right _ (List.mem_cons_of_mem _ hslash)
  · intro h
    refine ⟨fun dir last hsplit _ ↦ absurd ?_ hs,
      fun stem ext hsplit _ hdot ↦ h stem ext hsplit hdot⟩
    rw [hsplit]
    simp

theorem sanitize_baseName_eq_iff {s : String} : sanitize (baseName s) = sanitize s ↔ Whole s := by
  rw [sanitize, sanitize, ← String.toList_inj, String.toList_ofList, String.toList_ofList,
    toList_baseName]
  cases hcut : cutLast '/' s.toList with
  | none =>
    rw [whole_iff_of_not_mem (cutLast_eq_none_iff.1 hcut), ← filter_beforeExtension_iff, afterLast,
      hcut]
  | some cut =>
    obtain ⟨dir, last⟩ := cut
    obtain ⟨hs, hlast⟩ := cutLast_eq_some_iff.1 hcut
    have hfilter : s.toList.filter isWordChar =
        dir.filter isWordChar ++ last.filter isWordChar := by
      rw [hs, List.filter_append, List.filter_cons_of_neg (by decide)]
    have hafter : afterLast '/' s.toList = last := by rw [afterLast, hcut]
    rw [whole_iff_of_directory hs hlast, ← filter_beforeExtension_iff,
      ← filter_isWordChar_eq_nil_iff, hafter, hfilter]
    constructor
    · -- The stem gives no more than the last element does, so the directory gives nothing.
      intro h
      have hle := ((sublist_beforeExtension last).filter isWordChar).length_le
      have hlength := congrArg List.length h
      rw [List.length_append] at hlength
      have hdir : dir.filter isWordChar = [] := List.eq_nil_of_length_eq_zero (by omega)
      exact ⟨hdir, by simpa [hdir] using h⟩
    · rintro ⟨hdir, hstem⟩
      rw [hstem, hdir, List.nil_append]

end Name

namespace Schema

theorem deducePackage_singleton (f : File) :
    deducePackage [f] = .ok (packageIdent f.packageName.1) := by
  unfold deducePackage explicitNames File.packageName
  cases hoption : f.goPackage? with
  | none => simp [hoption, agreed, bind, Except.bind, pure, Except.pure]
  | some option => simp [hoption, agreed, bind, Except.bind, pure, Except.pure]

theorem dependencyName_eq (f : File) : f.dependencyName =
    if f.goPackage? = none ∧ f.package.isEmpty then packageIdent f.packageName.1
    else Name.sanitize f.packageName.1 := by
  unfold File.dependencyName File.packageName File.implicitName packageIdent
  cases hoption : f.goPackage? with
  | none => by_cases hempty : f.package.isEmpty <;> simp [hempty]
  | some option => simp

/-- A file on its own is generated under a name made from its raw package name. That is the name
under which other packages use it if the raw name is a file name, or has nothing to lose. -/
theorem deducePackage_eq_dependencyName_iff (f : File) :
    deducePackage [f] = .ok (packageIdent f.packageName.1) ∧
      (deducePackage [f] = .ok f.dependencyName ↔
        (f.goPackage? = none ∧ f.package.isEmpty) ∨ Name.Whole f.packageName.1) := by
  refine ⟨deducePackage_singleton f, ?_⟩
  rw [deducePackage_singleton, dependencyName_eq]
  split_ifs with hfile
  · simp [hfile]
  · rw [Except.ok.injEq, packageIdent, Name.sanitize_baseName_eq_iff, or_iff_right hfile]

def dotted : File := { (default : File) with
  name := "a.proto"
  goPackage := "github.com/acme/api.v1" }

theorem deducePackage_dotted :
    deducePackage [dotted] = .ok "api" ∧ dotted.dependencyName = "apiv1" := by
  decide +kernel

end Schema

/-- A type of the package at the given path, written with the name it is imported under. -/
def GoType.ReachedBy (path : String) (t : GoType) : Prop :=
  ∃ name package origin, t = .named name (some package) origin ∧
    ∃ i ∈ t.imports, i.path = path ∧ i.qualifier = package

namespace Schema

theorem agreed_eq_some {setting name : String} {names : List String}
    (h : agreed setting names = .ok (some name)) : ∀ n ∈ names, n = name := by
  cases names with
  | nil => cases h
  | cons first rest =>
    rw [agreed] at h
    split at h
    · cases h
    · next hnone =>
      cases h
      simpa using hnone

/-- The options of the files to generate name one package. -/
theorem deducePackage_explicit {files : List File} {package : String}
    (h : deducePackage files = .ok package) {f : File} (hf : f ∈ files) {option : GoPackage}
    (hoption : f.goPackage? = some option) : package = packageIdent option.name := by
  have hmem : packageIdent option.name ∈ explicitNames files :=
    List.mem_filterMap.2 ⟨f, hf, by rw [hoption, Option.map_some]⟩
  obtain ⟨agreement, hagreed, h⟩ := bind_eq_ok h
  cases agreement with
  | some name =>
    cases h
    exact (agreed_eq_some hagreed _ hmem).symm
  | none =>
    cases hnames : explicitNames files with
    | nil => simp [hnames] at hmem
    | cons first rest =>
      rw [hnames, agreed] at hagreed
      split at hagreed <;> cases hagreed

namespace Context

variable {ctx : Context} {files : List File} {names : List String}

theorem resolve_eq_ok (h : (resolve files names).result = .ok ctx) :
    ctx.files = files ∧ deducePackage (ctx.toGenerate.filterMap (files[·]?)) = .ok ctx.package := by
  unfold resolve at h
  rw [Traced.result_bind] at h
  obtain ⟨ctx', hquiet, h⟩ := bind_eq_ok h
  cases h
  obtain ⟨toGenerate, -, hquiet⟩ := bind_eq_ok hquiet
  obtain ⟨package, hpackage, hquiet⟩ := bind_eq_ok hquiet
  cases hquiet
  exact ⟨rfl, hpackage⟩

/-- An import of a package under the given name. -/
theorem importOf?_eq_some {f : File} {package : String} {i : Import}
    (h : importOf? f package = some i) : f.importPath? = some i.path ∧ i.qualifier = package := by
  obtain ⟨path, hpath, h⟩ := Option.map_eq_some_iff.1 h
  split_ifs at h with hlast
  · cases h
    exact ⟨hpath, hlast⟩
  · cases h
    exact ⟨hpath, rfl⟩

/-- Equal package names make a dependency's message a local one. -/
theorem type_of_dependency {name : String} {d : Definition} (hd : ctx.registry.message name = .ok d)
    {f : File} (hf : ctx.files[d.fileIndex]? = some f) (hdependency : d.fileIndex ∉ ctx.toGenerate)
    {t : GoType} (ht : ctx.type name = .ok t) :
    (f.dependencyName = ctx.package ∧ t = .named d.goName none none) ∨
      (f.dependencyName ≠ ctx.package ∧
        t = .named d.goName (some f.dependencyName) (importOf? f f.dependencyName)) := by
  have hpackage : ctx.packageOf? d.fileIndex = some f.dependencyName := by
    simp [packageOf?, hf, hdependency]
  rw [type, hd] at ht
  simp only [bind, Except.bind, hf, hpackage] at ht
  split_ifs at ht with hsame
  · obtain ⟨-, -, ht⟩ := bind_eq_ok ht
    cases ht
    exact .inl ⟨hsame, rfl⟩
  · obtain ⟨-, -, ht⟩ := bind_eq_ok ht
    obtain ⟨-, -, ht⟩ := bind_eq_ok ht
    cases ht
    exact .inr ⟨hsame, rfl⟩

theorem reachedBy_importOf? {f : File} {path : String} (hpath : f.importPath? = some path)
    (name package : String) :
    (GoType.named name (some package) (importOf? f package)).ReachedBy path := by
  have hsome : (importOf? f package).isSome := by simp [importOf?, hpath]
  obtain ⟨i, hi⟩ := Option.isSome_iff_exists.1 hsome
  obtain ⟨hpath', hqualifier⟩ := importOf?_eq_some hi
  refine ⟨_, _, _, rfl, i, ?_, Option.some_inj.1 (hpath'.symm.trans hpath), hqualifier⟩
  simp [GoType.imports, GoType.origins, hi]

/-- A message of a dependency is written without its package exactly when the two packages share a
name, whatever their import paths. The package of the generated files is named by their options. -/
theorem type_reachedBy_iff (h : (resolve files names).result = .ok ctx) {name : String}
    {d : Definition} (hd : ctx.registry.message name = .ok d) {f : File}
    (hf : files[d.fileIndex]? = some f) (hdependency : d.fileIndex ∉ ctx.toGenerate)
    {path : String} (hpath : f.importPath? = some path) {t : GoType}
    (ht : ctx.type name = .ok t) :
    (t.ReachedBy path ↔ f.dependencyName ≠ ctx.package) ∧
      (t = .named d.goName none none ↔ f.dependencyName = ctx.package) ∧
      ∀ i ∈ ctx.toGenerate, ∀ g, files[i]? = some g → ∀ option, g.goPackage? = some option →
        ctx.package = packageIdent option.name := by
  obtain ⟨rfl, hpackage⟩ := resolve_eq_ok h
  refine ⟨?_, ?_, fun i hi g hg option hoption ↦ ?_⟩
  · rcases type_of_dependency hd hf hdependency ht with ⟨hsame, rfl⟩ | ⟨hne, rfl⟩
    · simp [GoType.ReachedBy, hsame]
    · exact iff_of_true (reachedBy_importOf? hpath ..) hne
  · rcases type_of_dependency hd hf hdependency ht with ⟨hsame, rfl⟩ | ⟨hne, rfl⟩
    · simp [hsame]
    · simp [hne]
  · exact deducePackage_explicit hpackage (List.mem_filterMap.2 ⟨i, hi, hg⟩) hoption

def twoPackages (goPackage : String) : List File := [
  { (default : File) with
    name := "a.proto", package := "p", goPackage := "example.com/x/api", messages := [⟨"Q", []⟩] },
  { (default : File) with
    name := "b.proto", package := "q", goPackage, messages := [⟨"R", []⟩] }]

def twoPackagesContext (goPackage : String) : Context where
  files := twoPackages goPackage
  toGenerate := [0]
  package := "api"
  registry := .ofFiles (twoPackages goPackage)

theorem resolve_twoPackages (goPackage : String) :
    (resolve (twoPackages goPackage) ["a.proto"]).result = .ok (twoPackagesContext goPackage) := rfl

theorem type_reachedBy_other :
    (GoType.named "R" (some "common") (some (.plain "example.com/y/common"))).ReachedBy
      "example.com/y/common" := by
  have hd : (twoPackagesContext "example.com/y/common").registry.message ".q.R" =
      .ok ⟨1, "R", [], [4, 0]⟩ := rfl
  have h := type_reachedBy_iff (resolve_twoPackages "example.com/y/common") hd rfl
    (by decide) rfl rfl
  exact h.1.2 (by decide +kernel)

/-- Two packages with different import paths and one name. -/
theorem type_local_of_sameName :
    (twoPackages "example.com/y/api").map File.importPath? =
        [some "example.com/x/api", some "example.com/y/api"] ∧
      ∃ ctx t, (resolve (twoPackages "example.com/y/api") ["a.proto"]).result = .ok ctx ∧
        ctx.toGenerate = [0] ∧ ctx.type ".q.R" = .ok t ∧ ¬t.ReachedBy "example.com/y/api" := by
  refine ⟨by decide +kernel, _, .named "R" none none, resolve_twoPackages _, rfl, rfl, ?_⟩
  rintro ⟨name, package, origin, h, -⟩
  cases h

end Context

end Schema

end RpcStubs
