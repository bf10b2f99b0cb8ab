import Mathlib.Data.List.Nodup
import RpcStubs.Proofs.Stub.Listing

namespace RpcStubs

def Separate (imports : ImportSet) : Prop :=
  ∀ i ∈ imports, ∀ j ∈ imports, i.qualifier = j.qualifier → i = j

/-- An import is added for a qualifier that no declared import has. -/
theorem mem_addedImports {used : OrderedSet String} {kept : ImportSet} {i : Import}
    (h : i ∈ addedImports used kept) :
    standardImport? i.qualifier = some i ∧ ∀ j ∈ kept, j.qualifier ≠ i.qualifier := by
  obtain ⟨q, -, hother, hq⟩ := mem_addedImports_iff.1 h
  obtain rfl := qualifier_of_standardImport? hq
  exact ⟨hq, fun j hj hqualifier ↦ hother ⟨j, hj, hqualifier⟩⟩

/-- The imports of a body are separate if those declared ones are that the body uses. -/
theorem separate_resolveImports_iff {body : String} {declared : ImportSet} :
    Separate (resolveImports body declared) ↔
      Separate (usedImports (usedQualifiers body) declared) := by
  have hkept {i : Import} (hi : i ∈ usedImports (usedQualifiers body) declared) :
      i ∈ resolveImports body declared := OrderedSet.mem_insertAll.2 (.inr hi)
  constructor
  · intro h i hi j hj
    exact h i (hkept hi) j (hkept hj)
  · intro h i hi j hj hqualifier
    rcases OrderedSet.mem_insertAll.1 hi with hi | hi
    · obtain ⟨hstandard, hother⟩ := mem_addedImports hi
      rcases OrderedSet.mem_insertAll.1 hj with hj | hj
      · obtain ⟨hstandard', -⟩ := mem_addedImports hj
        rw [hqualifier, hstandard'] at hstandard
        exact (Option.some_inj.1 hstandard).symm
      · exact absurd hqualifier.symm (hother j hj)
    · rcases OrderedSet.mem_insertAll.1 hj with hj | hj
      · exact absurd hqualifier ((mem_addedImports hj).2 i hi)
      · exact h i hi j hj hqualifier

namespace Stub

open Schema (Context File)

/-- The packages that every file imports or may import, whatever its methods are. -/
def fixedImports (fw : Framework) : List Import :=
  fw.imports ++ [.plain "context", .plain "net/http"]

theorem qualifiers_fixedImports (fw : Framework) : (fixedImports fw).map Import.qualifier =
    Package.all.map Package.name ++ ["context", "http"] := by
  have hcontext : (Import.plain "context").qualifier = "context" := by decide
  have hhttp : (Import.plain "net/http").qualifier = "http" := by decide
  simp [fixedImports, Framework.imports, qualifier_importOf, hcontext, hhttp, Function.comp_def]

theorem eq_of_mem_fixedImports {fw : Framework} {i j : Import} (hi : i ∈ fixedImports fw)
    (hj : j ∈ fixedImports fw) (h : i.qualifier = j.qualifier) : i = j := by
  have hnodup : ((fixedImports fw).map Import.qualifier).Nodup := by
    rw [qualifiers_fixedImports]
    decide
  exact List.inj_on_of_nodup_map hnodup hi hj h

theorem provided_iff {fw : Framework} {ctx : Context} {f : File} {i : Import} :
    Provided fw ctx f i ↔ i ∈ fixedImports fw ∨ Depends ctx f i := by
  have hall (p : Package) : p ∈ Package.all := by cases p <;> decide
  constructor
  · intro h
    cases h with
    | runtime p => exact .inl (List.mem_append_left _ (List.mem_map_of_mem (hall p)))
    | context => exact .inl (by simp [fixedImports])
    | http => exact .inl (by simp [fixedImports])
    | dependency hi => exact .inr hi
  · rintro (h | h)
    · rcases List.mem_append.1 h with h | h
      · obtain ⟨p, -, rfl⟩ := List.mem_map.1 h
        exact .runtime p
      · simp only [List.mem_cons, List.not_mem_nil, or_false] at h
        rcases h with rfl | rfl
        · exact .context
        · exact .http
    · exact .dependency h

/-- No two packages that a file for the schema file may import have the same name. -/
def Unambiguous (fw : Framework) (ctx : Context) (f : File) : Prop :=
  ∀ i j, Provided fw ctx f i → Provided fw ctx f j → i.qualifier = j.qualifier → i = j

namespace Config

variable {fw : Framework} {ctx : Context} {f : File} {g : GoFile}

/-- A file with a service declares all packages that it may import. -/
theorem Serving.mem_declaredImports_iff (h : Serving fw ctx f (List.range f.services.length) g)
    (hs : f.services ≠ []) {i : Import} : i ∈ g.declaredImports ↔ Provided fw ctx f i := by
  have hstructure {i : Import} (hi : ∃ d ∈ g.typesWithMethods, i ∈ d.imports) :
      i ∈ g.declaredImports := by
    obtain ⟨d, hd, hi⟩ := hi
    simp only [GoFile.declaredImports, OrderedSet.mem_insertAll, List.mem_append, List.mem_flatMap]
    exact .inl (.inl (.inr ⟨d, List.mem_append_right _ hd, hi⟩))
  have hrange : List.range f.services.length ≠ [] := by simpa using hs
  obtain ⟨d, hd, hcontext, hhttp⟩ := h.handles hrange
  refine ⟨h.sound.declaredImports i, fun hi ↦ ?_⟩
  cases hi with
  | runtime p => exact OrderedSet.mem_insertAll.2 (.inr (h.runtime p))
  | context => exact hstructure ⟨d, hd, hcontext⟩
  | http => exact hstructure ⟨d, hd, hhttp⟩
  | dependency hi => exact h.mem_declaredImports hi

/-- The imports of a file are separate if no two packages that it may import have one name. -/
theorem Serving.separate_iff (h : Serving fw ctx f (List.range f.services.length) g)
    (hs : f.services ≠ []) {body : String} (hb : g.body = .ok body) :
    Separate (resolveImports body g.declaredImports) ↔ Unambiguous fw ctx f := by
  rw [separate_resolveImports_iff]
  constructor
  · intro hseparate i j hi hj hqualifier
    have hkept {k : Import} (hk : Provided fw ctx f k)
        (hused : k.qualifier ∈ usedQualifiers body) :
        k ∈ usedImports (usedQualifiers body) g.declaredImports :=
      mem_usedImports.2 ⟨(h.mem_declaredImports_iff hs).2 hk, hused⟩
    -- one of two packages with one name is used by a method, and with it the other one
    by_cases hused : i.qualifier ∈ usedQualifiers body
    · exact hseparate i (hkept hi hused) j (hkept hj (hqualifier ▸ hused)) hqualifier
    · have hfixed {k : Import} (hk : Provided fw ctx f k) (heq : i.qualifier = k.qualifier) :
          k ∈ fixedImports fw := by
        rcases provided_iff.1 hk with hk | hk
        · exact hk
        · exact absurd (heq ▸ h.mem_usedQualifiers hk hb) hused
      exact eq_of_mem_fixedImports (hfixed hi rfl) (hfixed hj hqualifier) hqualifier
  · intro hunambiguous i hi j hj
    have hprovided {k : Import} (hk : k ∈ usedImports (usedQualifiers body) g.declaredImports) :
        Provided fw ctx f k := (h.mem_declaredImports_iff hs).1 (mem_usedImports.1 hk).1
    exact hunambiguous i j (hprovided hi) (hprovided hj)

/-- A generated file comes from a schema file with services, and its text is the body of its
declarations below the imports that are resolved for it. -/
structure Produces [Compressor] (c : Config) (ctx : Context) (out : GeneratedFile) (f : File)
    (g : GoFile) (body : String) : Prop where
  drafted : ∃ file ∈ ctx.toGenerate, ∃ position, ctx.file file = .ok f ∧
    (c.draft ctx f file position).result = .ok g
  services : f.services ≠ []
  written : g.body = .ok body
  content : g.layOut body = .ok out.content

structure ProducesAt [Compressor] (c : Config) (ctx : Context) (position : Nat)
    (out : GeneratedFile) (f : File) (g : GoFile) (body : String) :
    Prop extends Produces c ctx out f g body where
  numbered : ∃ file, ctx.file file = .ok f ∧ (c.draft ctx f file position).result = .ok g
  name : out.name = c.outputName f g.fileName

theorem Produces.eq_of_single [Compressor] {f' : File} {s : Service} {out : GeneratedFile}
    {body : String} (h : Produces c ctx out f' g body) (hs : Single c ctx f s) : f' = f := by
  obtain ⟨file, hfile, -, hf', -⟩ := h.drafted
  rw [hs.toGenerate] at hfile
  obtain rfl := List.mem_singleton.1 hfile
  exact Except.ok.inj (hf'.symm.trans hs.file)

theorem eq_ok_of_finish {text : String} (h : g.finish.result = .ok text) :
    ∃ body, g.body = .ok body ∧ g.layOut body = .ok text := by
  unfold GoFile.finish at h
  split at h
  · cases h
  · next body hbody =>
    refine ⟨body, hbody, ?_⟩
    dsimp only at h
    split at h
    · cases h
    · next text' htext =>
      cases h
      exact htext

variable {c : Config} {made made' : List GeneratedFile}

theorem exists_producesAt_of_generateFile [Compressor] {file position : Nat}
    (hfile : file ∈ ctx.toGenerate) (hf : ctx.file file = .ok f) (hs : f.services ≠ [])
    {out : GeneratedFile} (h : (c.generateFile ctx file position).result = .ok out) :
    ∃ g body, ProducesAt c ctx position out f g body := by
  rw [generateFile_eq, Traced.result_bind] at h
  obtain ⟨f', hf', h⟩ := bind_eq_ok h
  obtain rfl := Except.ok.inj (hf.symm.trans hf')
  rw [Traced.result_bind] at h
  obtain ⟨g, hg, h⟩ := bind_eq_ok h
  rw [Traced.result_bind] at h
  obtain ⟨content, hcontent, h⟩ := bind_eq_ok h
  cases h
  obtain ⟨body, hbody, hlayOut⟩ := eq_ok_of_finish hcontent
  exact ⟨g, body, ⟨⟨file, hfile, position, hf, hg⟩, hs, hbody, hlayOut⟩, ⟨file, hf, hg⟩, rfl⟩

theorem addFile_eq_ok [Compressor] {file : Nat} (hfile : file ∈ ctx.toGenerate)
    (h : (c.addFile ctx made file).result = .ok made') :
    ∃ f, ctx.file file = .ok f ∧ (f.services = [] ∧ made' = made ∨
      ∃ out g body, made' = made ++ [out] ∧ ProducesAt c ctx made.length out f g body) := by
  rw [addFile, Traced.result_bind] at h
  obtain ⟨f, hf, h⟩ := bind_eq_ok h
  refine ⟨f, hf, ?_⟩
  split_ifs at h with hs
  · cases h
    exact .inl ⟨List.isEmpty_iff.1 hs, rfl⟩
  · rw [Traced.result_bind] at h
    obtain ⟨out, hout, h⟩ := bind_eq_ok h
    cases h
    have hservices : f.services ≠ [] := fun hnil ↦ hs (List.isEmpty_iff.2 hnil)
    obtain ⟨g, body, hproduces⟩ := exists_producesAt_of_generateFile hfile hf hservices hout
    exact .inr ⟨out, g, body, rfl, hproduces⟩

theorem exists_produces_of_foldlM [Compressor] {files : List Nat}
    (hfiles : ∀ file ∈ files, file ∈ ctx.toGenerate)
    (h : (files.foldlM (c.addFile ctx) made).result = .ok made')
    (hmade : ∀ out ∈ made, ∃ f g body, Produces c ctx out f g body) :
    ∀ out ∈ made', ∃ f g body, Produces c ctx out f g body := by
  induction files generalizing made with
  | nil =>
    cases h
    exact hmade
  | cons file files ih =>
    rw [List.foldlM_cons, Traced.result_bind] at h
    obtain ⟨next, hnext, h⟩ := bind_eq_ok h
    refine ih (fun other hother ↦ hfiles other (List.mem_cons_of_mem file hother)) h ?_
    obtain ⟨f, -, ⟨-, rfl⟩ | ⟨out, g, body, rfl, hout⟩⟩ :=
      addFile_eq_ok (hfiles file List.mem_cons_self) hnext
    · exact hmade
    · exact List.forall_mem_append.2
        ⟨hmade, List.forall_mem_singleton.2 ⟨f, g, body, hout.toProduces⟩⟩

theorem validate_of_generate [Compressor] {r : Request} (h : (c.generate r).result = .ok made) :
    c.validate = .ok () := by
  rw [generate, Traced.result_bind] at h
  obtain ⟨_, hv, -⟩ := bind_eq_ok h
  exact hv

theorem exists_produces_of_generate [Compressor] {r : Request}
    (h : (c.generate r).result = .ok made) :
    ∃ ctx, (Context.resolve r.files r.filesToGenerate).result = .ok ctx ∧
      ∀ out ∈ made, ∃ f g body, Produces c ctx out f g body := by
  rw [result_generate (validate_of_generate h)] at h
  obtain ⟨ctx, hctx, hfold⟩ := bind_eq_ok h
  exact ⟨ctx, hctx, exists_produces_of_foldlM (fun _ hfile ↦ hfile) hfold (by simp)⟩

theorem Produces.separate_iff [Compressor] (hv : c.validate = .ok ()) {out : GeneratedFile}
    {body : String} (h : Produces c ctx out f g body) :
    Separate (resolveImports body g.declaredImports) ↔ Unambiguous c.runtime ctx f := by
  obtain ⟨file, -, position, hf, hg⟩ := h.drafted
  exact (serving_of_draft hv hf hg).separate_iff h.services h.written

/-- Every file of a run imports its packages under different names, exactly if no two packages that
it may import have the same name. -/
theorem generate_separate_iff [Compressor] {r : Request} (h : (c.generate r).result = .ok made) :
    ∃ ctx, (Context.resolve r.files r.filesToGenerate).result = .ok ctx ∧
      (∀ out ∈ made, ∃ f g body, Produces c ctx out f g body) ∧
      ∀ out f g body, Produces c ctx out f g body →
        (Separate (resolveImports body g.declaredImports) ↔ Unambiguous c.runtime ctx f) := by
  obtain ⟨ctx, hctx, hproduces⟩ := exists_produces_of_generate h
  exact ⟨ctx, hctx, hproduces, fun out f g body ↦ Produces.separate_iff (validate_of_generate h)⟩

theorem unambiguous_callingFile (fw : Framework) : Unambiguous fw callContext callingFile := by
  let imports := fixedImports fw ++ [.plain "example.com/t", .aliased "example.com/v1" "u"]
  have hmem {i : Import} (hi : Provided fw callContext callingFile i) :
      i ∈ imports := by
    rcases provided_iff.1 hi with hi | hi
    · exact List.mem_append_left _ hi
    · exact List.mem_append_right _ (by simpa using depends_callingFile_iff.1 hi)
  have hnodup : (imports.map Import.qualifier).Nodup := by
    rw [List.map_append, qualifiers_fixedImports]
    decide
  exact fun i j hi hj ↦ List.inj_on_of_nodup_map hnodup (hmem hi) (hmem hj)

theorem generate_separate_callRequest :
    ∃ out f g body, (generate {} (callRequest [])).result = .ok [out] ∧
      Produces {} callContext out f g body ∧
      Separate (resolveImports body g.declaredImports) := by
  obtain ⟨out, hout⟩ := exists_generate_callRequest
  obtain ⟨ctx, hctx, hproduces, hseparate⟩ := generate_separate_iff hout
  obtain rfl := Except.ok.inj (resolve_callRequest.symm.trans hctx)
  obtain ⟨f, g, body, h⟩ := hproduces out List.mem_cons_self
  obtain rfl := h.eq_of_single single_callContext
  exact ⟨out, _, g, body, hout, h, (hseparate out _ g body h).2 (unambiguous_callingFile _)⟩

def betweenFile : File := .ofDescriptor [
  (1, .text "a.proto"), (2, .text "p"), (4, .message [(1, .text "Q")]),
  (6, .message [(1, .text "S"),
    (2, .message [(1, .text "M"), (2, .text ".q.Q"), (3, .text ".r.R")])])]

def sameNameFiles : List File := [
  .ofDescriptor [(1, .text "b.proto"), (2, .text "q"), (4, .message [(1, .text "Q")]),
    (8, .message [(11, .text "example.com/a/api")])],
  .ofDescriptor [(1, .text "c.proto"), (2, .text "r"), (4, .message [(1, .text "R")]),
    (8, .message [(11, .text "example.com/b/api")])]]

def betweenRequest : Request where
  files := betweenFile :: sameNameFiles
  filesToGenerate := ["a.proto"]

def betweenContext : Context where
  files := betweenRequest.files
  toGenerate := [0]
  package := "p"
  registry := .ofFiles betweenRequest.files

end Config

def betweenService : Service where
  name := "S"
  schemaPackage := "p"
  index := 0
  root := Wire.defaultPrefix
  comment := none
  endpoints := [⟨"M", .named "Q" (some "api") (some (.plain "example.com/a/api")),
    .named "R" (some "api") (some (.plain "example.com/b/api")), none⟩]

theorem named_betweenService : betweenService.Named where
  name := by decide
  exported := by decide
  serverName := by decide
  clientName := by rintro (_ | _) <;> decide
  endpoints := by decide

namespace Config

theorem depends_betweenFile_iff {i : Import} : Depends betweenContext betweenFile i ↔
    i = .plain "example.com/a/api" ∨ i = .plain "example.com/b/api" := by
  have htypes : (betweenFile.services.flatMap messageNames).mapM betweenContext.type =
      .ok [.named "Q" (some "api") (some (.plain "example.com/a/api")),
        .named "R" (some "api") (some (.plain "example.com/b/api"))] := rfl
  rw [depends_iff_of_mapM htypes]
  simp [GoType.origins]

theorem resolve_betweenRequest :
    (Context.resolve betweenRequest.files betweenRequest.filesToGenerate).result =
      .ok betweenContext := rfl

theorem quotable_betweenRequest : Quotable bareConfig betweenRequest := by decide

theorem single_betweenContext : Single bareConfig betweenContext betweenFile betweenService where
  toGenerate := rfl
  file := rfl
  services := rfl
  package := by decide +kernel
  header := by decide +kernel
  resolved := rfl
  named := named_betweenService

theorem exists_generate_betweenRequest [Compressor] :
    ∃ out, (bareConfig.generate betweenRequest).result = .ok [out] := by
  refine exists_generate quotable_betweenRequest rfl resolve_betweenRequest single_betweenContext
    fun hcase ↦ ?_
  obtain ⟨i, hi, hname⟩ := caseImport_iff.1 hcase
  rcases depends_betweenFile_iff.1 hi with rfl | rfl
  all_goals cases hname

theorem not_separate_betweenRequest :
    ∃ out f g body, (bareConfig.generate betweenRequest).result = .ok [out] ∧
      Produces bareConfig betweenContext out f g body ∧
      ¬Separate (resolveImports body g.declaredImports) := by
  obtain ⟨out, hout⟩ := exists_generate_betweenRequest
  obtain ⟨ctx, hctx, hproduces⟩ := exists_produces_of_generate hout
  obtain rfl := Except.ok.inj (resolve_betweenRequest.symm.trans hctx)
  obtain ⟨f, g, body, h⟩ := hproduces out List.mem_cons_self
  refine ⟨out, f, g, body, hout, h, fun hseparate ↦ ?_⟩
  obtain rfl := h.eq_of_single single_betweenContext
  have hsame := (h.separate_iff rfl).1 hseparate _ _
    (.dependency (depends_betweenFile_iff.2 (.inl rfl)))
    (.dependency (depends_betweenFile_iff.2 (.inr rfl))) (by decide)
  exact absurd hsame (by decide)

end Config

end Stub

end RpcStubs
