import RpcStubs.Gzip
import RpcStubs.Proofs.Code.Inversion
import RpcStubs.Proofs.Stub.Parts

namespace RpcStubs

theorem foldlM_eq_error_iff {α β : Type} {f : β → α → Build β} {l : List α} {b : β}
    {failure : Failure} :
    l.foldlM f b = .error failure ↔ ∃ before a after b', l = before ++ a :: after ∧
      before.foldlM f b = .ok b' ∧ f b' a = .error failure := by
  constructor
  · intro h
    induction l generalizing b with
    | nil => cases h
    | cons a l ih =>
      rw [List.foldlM_cons] at h
      cases hstep : f b a with
      | error other =>
        rw [hstep] at h
        cases h
        exact ⟨[], a, l, b, rfl, rfl, hstep⟩
      | ok b₁ =>
        rw [hstep] at h
        obtain ⟨before, c, after, b', rfl, hbefore, hc⟩ := ih h
        refine ⟨a :: before, c, after, b', rfl, ?_, hc⟩
        rw [List.foldlM_cons, hstep]
        exact hbefore
  · rintro ⟨before, a, after, b', rfl, hbefore, ha⟩
    rw [List.foldlM_append, hbefore]
    change (a :: after).foldlM f b' = _
    rw [List.foldlM_cons, ha]
    rfl

end RpcStubs

namespace RpcStubs.Stub

namespace Config

open Layout
open Schema (Context File)

variable {c : Config} {r : Request} {ctx : Context} {made : List GeneratedFile} {file : Nat}

/-- A run that has come to the schema file at a position, with what it made before. -/
structure Reaches [Compressor] (c : Config) (r : Request) (ctx : Context)
    (made : List GeneratedFile) (file : Nat) : Prop where
  resolved : (Context.resolve r.files r.filesToGenerate).result = .ok ctx
  earlier : ∃ before after, ctx.toGenerate = before ++ file :: after ∧
    (before.foldlM (c.addFile ctx) []).result = .ok made

theorem result_generate [Compressor] (hv : c.validate = .ok ()) :
    (c.generate r).result = (Context.resolve r.files r.filesToGenerate).result.bind
      fun ctx ↦ (ctx.toGenerate.foldlM (c.addFile ctx) []).result := by
  simp only [generate, Traced.result_bind, hv]
  rfl

theorem result_generate_eq_error_iff [Compressor] (hv : c.validate = .ok ()) {failure : Failure} :
    (c.generate r).result = .error failure ↔
      (Context.resolve r.files r.filesToGenerate).result = .error failure ∨
        ∃ ctx made file, Reaches c r ctx made file ∧
          (c.addFile ctx made file).result = .error failure := by
  rw [result_generate hv]
  cases hctx : (Context.resolve r.files r.filesToGenerate).result with
  | error other =>
    constructor
    · intro h
      cases h
      exact .inl rfl
    · rintro (h | ⟨ctx, made, file, hreaches, -⟩)
      · cases h
        rfl
      · cases hctx.symm.trans hreaches.resolved
  | ok ctx =>
    change (ctx.toGenerate.foldlM (c.addFile ctx) []).result = _ ↔ _
    rw [Traced.result_foldlM, foldlM_eq_error_iff]
    constructor
    · rintro ⟨before, file, after, made, hsplit, hbefore, hfile⟩
      refine .inr ⟨ctx, made, file, ⟨hctx, before, after, hsplit, ?_⟩, hfile⟩
      rw [Traced.result_foldlM]
      exact hbefore
    · rintro (h | ⟨ctx', made, file, ⟨hresolved, before, after, hsplit, hbefore⟩, hfile⟩)
      · cases h
      · obtain rfl := Except.ok.inj (hctx.symm.trans hresolved)
        rw [Traced.result_foldlM] at hbefore
        exact ⟨before, file, after, made, hsplit, hbefore, hfile⟩

/-- All declarations for the schema file at a position can be made, and one of its methods takes or
returns a message of a package that is imported as `case`. -/
def Clashes [Compressor] (c : Config) (ctx : Context) (made : List GeneratedFile) (file : Nat) :
    Prop :=
  ∃ f g, ctx.file file = .ok f ∧ (c.draft ctx f file made.length).result = .ok g ∧ CaseImport ctx f

theorem result_generateFile_eq_bind [Compressor] {f : File} (hf : ctx.file file = .ok f)
    {position : Nat} :
    (c.generateFile ctx file position).result =
      (c.draft ctx f file position).result.bind fun g ↦
        g.finish.result.bind fun text ↦ .ok ⟨c.outputName f g.fileName, text⟩ := by
  rw [generateFile_eq]
  simp only [Traced.result_bind, hf]
  rfl

theorem result_generateFile [Compressor] {f : File} (hf : ctx.file file = .ok f) {position : Nat}
    {g : GoFile} (hg : (c.draft ctx f file position).result = .ok g) :
    (c.generateFile ctx file position).result =
      g.finish.result.bind fun text ↦ .ok ⟨c.outputName f g.fileName, text⟩ := by
  rw [result_generateFile_eq_bind hf, hg]
  rfl

theorem result_addFile [Compressor] {f : File} (hf : ctx.file file = .ok f)
    (hs : ¬f.services.isEmpty = true) :
    (c.addFile ctx made file).result =
      (c.generateFile ctx file made.length).result.bind fun g ↦ .ok (made ++ [g]) := by
  unfold addFile
  simp only [Traced.result_bind, hf]
  change (if f.services.isEmpty = true then _ else _ : Traced (List GeneratedFile)).result = _
  rw [if_neg hs, Traced.result_bind]
  rfl

theorem result_addFile_of_isEmpty [Compressor] {f : File} (hf : ctx.file file = .ok f)
    (hs : f.services.isEmpty = true) : (c.addFile ctx made file).result = .ok made := by
  rw [addFile, Traced.result_bind, hf]
  change (if f.services.isEmpty = true then _ else _ : Traced (List GeneratedFile)).result = _
  rw [if_pos hs]
  rfl

section Step

variable (hroot : Clean c.framework.toList) (hv : c.validate = .ok ())
  (hclean : ∀ f ∈ ctx.files, Clean f.goPackage.toList)
  (hnames : ∀ f ∈ ctx.files, '\n' ∉ f.name.toList)
include hroot hv hclean hnames

theorem yields_addFile [Compressor] (h : ¬Clashes c ctx made file) :
    Yields (c.addFile ctx made file).result fun _ ↦ True := by
  have hfile : Yields (c.generateFile ctx file made.length).result fun _ ↦ True := by
    rw [generateFile_eq]
    refine yields_result_bind (yields_file ctx file).with_eq fun f hf ↦ ?_
    refine yields_result_bind (yields_draft hv hf.2 made.length).with_eq fun g hg ↦ ?_
    obtain ⟨text, htext⟩ := hg.1.exists_finish hroot hclean hnames fun hc ↦
      h ⟨f, g, hf.2, hg.2, hc⟩
    refine yields_result_bind (Q := fun _ ↦ True) ?_ fun _ _ ↦ yields_pure trivial
    rw [htext]
    exact .ok trivial
  refine yields_result_bind (yields_file ctx file) fun f _ ↦ ?_
  split_ifs
  · exact .ok trivial
  · exact yields_result_bind hfile fun _ _ ↦ .ok trivial

/-- The failure of a file that clashes carries the source of its draft. -/
theorem addFile_eq_error [Compressor] {f : File} (hf : ctx.file file = .ok f) {g : GoFile}
    (hg : (c.draft ctx f file made.length).result = .ok g) (hc : CaseImport ctx f) :
    ∃ line body, (c.addFile ctx made file).result =
      .error (misplacedCase line (resolvedSource g body)) := by
  obtain ⟨line, body, hfailure⟩ :=
    (serving_of_draft hv hf hg).finish_eq_error hroot hclean hnames hc
  have hservices : ¬f.services.isEmpty = true := by
    obtain ⟨s, hs, -⟩ := hc
    exact fun hempty ↦ List.ne_nil_of_mem hs (List.isEmpty_iff.1 hempty)
  refine ⟨line, body, ?_⟩
  rw [result_addFile hf hservices, result_generateFile hf hg, hfailure]
  rfl

end Step

/-- Text of a request that a generated file repeats as it is. -/
structure Quotable (c : Config) (r : Request) : Prop where
  framework : Clean c.framework.toList
  goPackage : ∀ f ∈ r.files, Clean f.goPackage.toList
  name : ∀ f ∈ r.files, '\n' ∉ f.name.toList

instance (c : Config) (r : Request) : Decidable (Quotable c r) :=
  decidable_of_iff (Clean c.framework.toList ∧ (∀ f ∈ r.files, Clean f.goPackage.toList) ∧
    ∀ f ∈ r.files, '\n' ∉ f.name.toList)
    ⟨fun ⟨framework, goPackage, name⟩ ↦ ⟨framework, goPackage, name⟩,
      fun h ↦ ⟨h.framework, h.goPackage, h.name⟩⟩

theorem Quotable.singleNames (h : Quotable c r) (hfiles : ctx.files = r.files) :
    SingleNames ctx := by
  rw [SingleNames, hfiles]
  exact h.name

theorem Reaches.files_eq [Compressor] (h : Reaches c r ctx made file) : ctx.files = r.files := by
  have hfiles := yields_context r.files r.filesToGenerate
  rw [h.resolved] at hfiles
  exact hfiles.of_ok

section Run

variable (h : Quotable c r) (hv : c.validate = .ok ())
include h hv

theorem Quotable.isExpected_of_not_clashes [Compressor] (hr : Reaches c r ctx made file)
    (hc : ¬Clashes c ctx made file) {failure : Failure}
    (hf : (c.addFile ctx made file).result = .error failure) : failure.isExpected = true := by
  have hyields := yields_addFile h.framework hv (hr.files_eq ▸ h.goPackage)
    (hr.files_eq ▸ h.name) hc
  rw [hf] at hyields
  exact hyields.of_error

theorem Quotable.exists_misplacedCase [Compressor] (hr : Reaches c r ctx made file) {f : File}
    (hf : ctx.file file = .ok f) {g : GoFile}
    (hg : (c.draft ctx f file made.length).result = .ok g) (hc : CaseImport ctx f) :
    ∃ line body, (c.generate r).result = .error (misplacedCase line (resolvedSource g body)) ∧
      (c.addFile ctx made file).result = .error (misplacedCase line (resolvedSource g body)) := by
  obtain ⟨line, body, hfailure⟩ := addFile_eq_error h.framework hv (hr.files_eq ▸ h.goPackage)
    (hr.files_eq ▸ h.name) hf hg hc
  exact ⟨line, body, (result_generate_eq_error_iff hv).2 (.inr ⟨ctx, made, file, hr, hfailure⟩),
    hfailure⟩

theorem Quotable.exists_format [Compressor] (hr : Reaches c r ctx made file)
    (hc : Clashes c ctx made file) :
    ∃ failure, (c.generate r).result = .error failure ∧
      (c.addFile ctx made file).result = .error failure ∧ failure.isFormat = true := by
  obtain ⟨f, g, hf, hg, hcase⟩ := hc
  obtain ⟨line, body, hfailure, hfile⟩ := h.exists_misplacedCase hv hr hf hg hcase
  exact ⟨_, hfailure, hfile, rfl⟩

theorem Quotable.isExpected_or_clashes [Compressor] {failure : Failure}
    (hf : (c.generate r).result = .error failure) :
    failure.isExpected = true ∨
      failure.isFormat = true ∧ ∃ ctx made file, Reaches c r ctx made file ∧
        Clashes c ctx made file := by
  rcases (result_generate_eq_error_iff hv).1 hf with hresolve | ⟨ctx, made, file, hr, hfile⟩
  · have hcontext := yields_context r.files r.filesToGenerate
    rw [hresolve] at hcontext
    exact .inl hcontext.of_error
  · by_cases hc : Clashes c ctx made file
    · obtain ⟨other, -, hother, hformat⟩ := h.exists_format hv hr hc
      obtain rfl := Except.error.inj (hfile.symm.trans hother)
      exact .inr ⟨hformat, ctx, made, file, hr, hc⟩
    · exact .inl (h.isExpected_of_not_clashes hv hr hc hfile)

end Run

/-- A run fails for a reason that the schema gives, or in the layout; and in the layout exactly if
it comes to a file that clashes. -/
theorem generate_format_iff [Compressor] (h : Quotable c r) (hv : c.validate = .ok ()) :
    (∀ failure, (c.generate r).result = .error failure →
      failure.isExpected = true ∨ failure.isFormat = true) ∧
    ((∃ failure, (c.generate r).result = .error failure ∧ failure.isFormat = true) ↔
      ∃ ctx made file, Reaches c r ctx made file ∧ Clashes c ctx made file) := by
  refine ⟨fun failure hf ↦ (h.isExpected_or_clashes hv hf).imp_right And.left, ?_, ?_⟩
  · rintro ⟨failure, hf, hformat⟩
    rcases h.isExpected_or_clashes hv hf with hexpected | ⟨-, hclash⟩
    · rw [Failure.not_isFormat_of_isExpected hexpected] at hformat
      cases hformat
    · exact hclash
  · rintro ⟨ctx, made, file, hr, hc⟩
    obtain ⟨failure, hf, -, hformat⟩ := h.exists_format hv hr hc
    exact ⟨failure, hf, hformat⟩

def servingFile : File := .ofDescriptor [
  (1, .text "a.proto"), (2, .text "p"), (4, .message [(1, .text "Q")]),
  (6, .message [(1, .text "S"),
    (2, .message [(1, .text "M"), (2, .text ".p.Q"), (3, .text ".q.R")])])]

def caseFile : File := .ofDescriptor [
  (1, .text "b.proto"), (2, .text "q"), (4, .message [(1, .text "R")]),
  (8, .message [(11, .text "example.com/foo;case")])]

def caseRequest : Request where
  files := [servingFile, caseFile]
  filesToGenerate := ["a.proto"]

def caseContext : Context where
  files := caseRequest.files
  toGenerate := [0]
  package := "p"
  registry := .ofFiles caseRequest.files

theorem quotable_caseRequest : Quotable {} caseRequest := by decide

theorem reaches_caseRequest [Compressor] : Reaches {} caseRequest caseContext [] 0 :=
  ⟨rfl, [], [], rfl, rfl⟩

end Config

def caseService : Service where
  name := "S"
  schemaPackage := "p"
  index := 0
  root := Wire.defaultPrefix
  comment := none
  endpoints := [⟨"M", .named "Q" none none,
    .named "R" (some "case") (some (.aliased "example.com/foo" "case")), none⟩]

theorem named_caseService : caseService.Named where
  name := by decide
  exported := by decide
  serverName := by decide
  clientName := by rintro (_ | _) <;> decide
  endpoints := by decide

theorem isOk_server_caseService :
    (ServerStub.build caseService (Config.runtime {}) [.json, .protobuf]
      ⟨descriptorName 0, version⟩).result.isOk = true :=
  ServerStub.isOk_build named_caseService (by decide)

theorem isOk_client_caseService (ct : Wire.ContentType) :
    (ClientStub.build caseService (Config.runtime {}) ct).result.isOk = true :=
  ClientStub.isOk_build named_caseService

namespace Config

theorem exists_served_caseContext :
    ∃ g, (served {} caseContext servingFile 0 0).result = .ok g := by
  refine exists_served (by decide +kernel) (by decide +kernel) fun index hindex g ↦ ?_
  obtain rfl := List.mem_singleton.1 hindex
  have hresolve : Service.resolve caseContext 0 0 Wire.defaultPrefix = .ok caseService := rfl
  exact isOk_addService hresolve named_caseService (by decide) g

theorem clashes_caseContext [Compressor] : Clashes {} caseContext [] 0 := by
  obtain ⟨g, hg⟩ := exists_served_caseContext
  obtain ⟨g', hg'⟩ := exists_draft hg (by decide)
  have htype : caseContext.type ".q.R" =
      .ok (.named "R" (some "case") (some (.aliased "example.com/foo" "case"))) := rfl
  exact ⟨servingFile, g', rfl, hg', _, List.mem_cons_self, _, List.mem_cons_self, ".q.R",
    by decide, _, htype, _, List.mem_cons_self, rfl⟩

theorem not_forall_isFormat_eq_false :
    ¬∀ c r, Quotable c r → c.validate = .ok () →
      ∀ failure, (c.generate r).result = .error failure → failure.isFormat = false := by
  intro h
  obtain ⟨failure, hf, -, hformat⟩ := quotable_caseRequest.exists_format rfl reaches_caseRequest
    clashes_caseContext
  rw [h {} caseRequest quotable_caseRequest rfl failure hf] at hformat
  cases hformat

theorem generate_format_iff_caseRequest :
    Quotable {} caseRequest ∧ validate {} = .ok () ∧
      ∃ failure, (generate {} caseRequest).result = .error failure ∧ failure.isFormat = true :=
  ⟨quotable_caseRequest, rfl, (generate_format_iff quotable_caseRequest rfl).2.2
    ⟨caseContext, [], 0, reaches_caseRequest, clashes_caseContext⟩⟩

end Config

end RpcStubs.Stub
