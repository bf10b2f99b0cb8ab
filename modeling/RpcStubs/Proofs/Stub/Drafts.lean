import RpcStubs.Proofs.Code.MisplacedCase
import RpcStubs.Proofs.Stub.Clients
import RpcStubs.Proofs.Stub.Resolution
import RpcStubs.Proofs.Stub.Servers
import RpcStubs.Stub.Generate

namespace RpcStubs

open Text

theorem yields_result_bind {α β : Type} {x : Traced α} {f : α → Traced β} {Q : α → Prop}
    {S : β → Prop} (h : Yields x.result Q) (hf : ∀ a, Q a → Yields (f a).result S) :
    Yields (x >>= f).result S := by
  rw [Traced.result_bind]
  exact h.bind hf

theorem yields_emit (e : Event) : Yields (Traced.emit e).result fun _ ↦ True := .ok trivial

theorem Traced.result_foldlM {α β : Type} (f : β → α → Traced β) (l : List α) (b : β) :
    (l.foldlM f b).result = l.foldlM (fun b a ↦ (f b a).result) b := by
  induction l generalizing b with
  | nil => rfl
  | cons a l ih =>
    rw [List.foldlM_cons, List.foldlM_cons, Traced.result_bind]
    simp only [ih]
    rfl

end RpcStubs

namespace RpcStubs.Stub

open Text Layout
open Schema (Context File)

variable {P : Import → Prop} {c : Config}

theorem ClientStub.result_build (s : Service) (f : Framework) (ct : Wire.ContentType) :
    (ClientStub.build s f ct).result = ClientStub.buildQuietly s f ct := by
  unfold ClientStub.build
  rw [Traced.result_bind]
  cases h : buildQuietly s f ct <;> rfl

theorem ServerStub.yields_server {f : Framework} (hl : Linked P f) {s : Service}
    (hs : SoundService P s) (hn : Flat s.name.toList) {cts : List Wire.ContentType} (hc : cts ≠ [])
    {data : ServerMetadata} (hd : Flat data.descriptorVar.toList) :
    Yields (ServerStub.build s f cts data).result (SoundServer P) := by
  refine yields_result_bind (yields_declarations hl hs hc hd) fun d hd ↦ ?_
  obtain ⟨struct, constructor⟩ := d
  refine yields_result_bind (yields_emit _) fun _ _ ↦ ?_
  exact yields_result_bind (yields_pathPrefixConst (P := P) hn) fun const hconst ↦
    yields_pure ⟨hconst, hd.1, hd.2⟩

namespace Config

structure Extends (g g' : GoFile) : Prop where
  header : g'.header = g.header
  imports : g'.imports = g.imports
  interfaces : ∀ d ∈ g.interfaces, d ∈ g'.interfaces
  typesWithMethods : ∀ d ∈ g.typesWithMethods, d ∈ g'.typesWithMethods

theorem Extends.refl (g : GoFile) : Extends g g := ⟨rfl, rfl, fun _ hd ↦ hd, fun _ hd ↦ hd⟩

theorem Extends.trans {g g' g'' : GoFile} (h : Extends g g') (h' : Extends g' g'') :
    Extends g g'' where
  header := h'.header.trans h.header
  imports := h'.imports.trans h.imports
  interfaces d hd := h'.interfaces d (h.interfaces d hd)
  typesWithMethods d hd := h'.typesWithMethods d (h.typesWithMethods d hd)

theorem extends_addInterface (g : GoFile) (d : Interface) : Extends g (g.addInterface d) :=
  ⟨rfl, rfl, fun _ hd ↦ List.mem_append_left _ hd, fun _ hd ↦ hd⟩

theorem extends_addConst (g : GoFile) (d : Const) : Extends g (g.addConst d) :=
  ⟨rfl, rfl, fun _ hd ↦ hd, fun _ hd ↦ hd⟩

theorem extends_addFunc (g : GoFile) (d : Function) : Extends g (g.addFunc d) :=
  ⟨rfl, rfl, fun _ hd ↦ hd, fun _ hd ↦ hd⟩

theorem extends_addTypeWithMethods (g : GoFile) (d : Structure) :
    Extends g (g.addTypeWithMethods d) :=
  ⟨rfl, rfl, fun _ hd ↦ hd, fun _ hd ↦ List.mem_append_left _ hd⟩

theorem yields_addClients (hl : Linked P c.runtime) {s : Service} (hs : SoundService P s)
    (hn : Flat s.name.toList) {g : GoFile} (hg : SoundFile P g) :
    Yields (c.addClients s g).result fun g' ↦ SoundFile P g' ∧ Extends g g' := by
  unfold addClients
  split_ifs
  · rw [Traced.result_foldlM]
    refine yields_foldlM (fun _ g' ↦ SoundFile P g' ∧ Extends g g') ⟨hg, .refl g⟩
      fun _ ct g' _ hg' ↦ ?_
    unfold addClient
    refine yields_result_bind (Q := ClientStub.SoundClient P) ?_ fun client hclient ↦ ?_
    · rw [ClientStub.result_build]
      exact ClientStub.yields_buildQuietly hl hs hn ct
    · exact yields_pure ⟨(hg'.1.addFunc hclient.constructor).addTypeWithMethods hclient.type,
        (hg'.2.trans (extends_addFunc ..)).trans (extends_addTypeWithMethods ..)⟩
  · exact yields_pure ⟨hg, .refl g⟩

def Handles (d : Structure) : Prop := .plain "context" ∈ d.imports ∧ .plain "net/http" ∈ d.imports

theorem yields_addServer (hl : Linked P c.runtime) {s : Service} (hs : SoundService P s)
    (hn : Flat s.name.toList) (hc : c.orderedContentTypes ≠ []) {data : ServerMetadata}
    (hd : Flat data.descriptorVar.toList) {g : GoFile} (hg : SoundFile P g) :
    Yields (c.addServer s data g).result fun g' ↦ SoundFile P g' ∧ Extends g g' ∧
      ∃ d ∈ g'.typesWithMethods, Handles d := by
  unfold addServer
  refine yields_result_bind (ServerStub.yields_server hl hs hn hc hd).with_eq
    fun server hserver ↦ ?_
  obtain ⟨hserver, hbuild⟩ := hserver
  have hfuncs := (hg.addConst hserver.pathPrefix).addFunc hserver.constructor
  have hextends : Extends g (((g.addConst server.pathPrefix).addFunc
      server.constructor).addTypeWithMethods server.type) :=
    ((extends_addConst ..).trans (extends_addFunc ..)).trans (extends_addTypeWithMethods ..)
  refine yields_pure ⟨hfuncs.addTypeWithMethods hserver.type, hextends, server.type, ?_,
    ServerStub.mem_imports_of_build hbuild⟩
  simp [GoFile.addTypeWithMethods]

theorem orderedContentTypes_ne_nil (h : c.validate = .ok ()) : c.orderedContentTypes ≠ [] := by
  have hne : c.contentTypes ≠ [] := by
    intro hnil
    simp [validate, fault?, hnil] at h
  obtain ⟨ct, hct⟩ := List.exists_mem_of_ne_nil _ hne
  have hall : ct ∈ Wire.ContentType.all := by cases ct <;> decide
  exact List.ne_nil_of_mem (List.mem_filter.2 ⟨hall, List.contains_iff_mem.2 hct⟩)

theorem result_addService {ctx : Context} {file index : Nat} {data : ServerMetadata} {g : GoFile}
    {s : Service} (hs : Service.resolve ctx file index c.pathPrefix = .ok s) :
    (c.addService ctx file data g index).result = s.interface >>= fun i ↦
      (c.addClients s (g.addInterface i)).result >>= fun g' ↦ (c.addServer s data g').result := by
  simp only [addService, Traced.result_bind, hs]
  rfl

def served (c : Config) (ctx : Context) (f : File) (file position : Nat) : Traced GoFile := do
  let start ← GoFile.new ctx.package f.name
  let header ← fileHeader ctx file (position = 0)
  let framed := c.runtime.imports.foldl GoFile.addImport (start.withHeader header)
  let data := ⟨descriptorName position, version⟩
  (List.range f.services.length).foldlM (c.addService ctx file data) framed

def framed (c : Config) (ctx : Context) (f : File) (file position : Nat) : Build GoFile := do
  let start ← GoFile.new ctx.package f.name
  let header ← fileHeader ctx file (position = 0)
  return c.runtime.imports.foldl GoFile.addImport (start.withHeader header)

theorem result_served (c : Config) (ctx : Context) (f : File) (file position : Nat) :
    (c.served ctx f file position).result = (c.framed ctx f file position).bind fun g ↦
      ((List.range f.services.length).foldlM
        (c.addService ctx file ⟨descriptorName position, version⟩) g).result := by
  simp only [served, framed, Traced.result_bind]
  cases GoFile.new ctx.package f.name with
  | error failure => rfl
  | ok start => cases fileHeader ctx file (position = 0) <;> rfl

/-- The file with all its declarations, not yet laid out. -/
def draft [Compressor] (c : Config) (ctx : Context) (f : File) (file position : Nat) :
    Traced GoFile := do
  return (← c.served ctx f file position).addVar (← descriptorVar f position)

theorem generateFile_eq [Compressor] (c : Config) (ctx : Context) (file position : Nat) :
    c.generateFile ctx file position = do
      let f ← ctx.file file
      let g ← c.draft ctx f file position
      let content ← g.finish
      return ⟨c.outputName f g.fileName, content⟩ := by
  simp only [generateFile, draft, served, bind_assoc, pure_bind]
  rfl

theorem yields_newFile (package schemaFile : String) :
    Yields (GoFile.new package schemaFile) fun g ↦ '\n' ∉ package.toList ∧
      ∀ P header, SoundFile P (g.withHeader header) := by
  unfold GoFile.new
  by_cases hempty : package.isEmpty = true
  · rw [if_pos hempty]
    exact .error rfl
  · rw [if_neg hempty]
    refine ((yields_ofString package).inBuilder _).bind fun i hi ↦ ?_
    have hword := isWord_of_legal i.legal
    rw [hi] at hword
    split_ifs
    · exact .error rfl
    · refine yields_pure ⟨not_mem_of_isWord hword (by decide), fun P header ↦ ?_⟩
      exact ⟨nofun, nofun, nofun, nofun, rfl, rfl, rfl, nofun, nofun⟩

theorem yields_descriptorVar [Compressor] (f : File) (position : Nat) :
    Yields (descriptorVar f position) BytesVar := by
  refine (yields_bytes _ _ (lined_ofLines ?_)).bind fun d hd ↦ yields_pure hd
  rw [List.forall_mem_singleton]
  exact not_mem_append (flat_repr _).single (not_mem_ofList (by decide))

/-- The descriptor can always be written down. -/
theorem exists_draft [Compressor] {ctx : Context} {f : File} {file position : Nat} {g : GoFile}
    (hg : (c.served ctx f file position).result = .ok g)
    (hname : identifierFault? (descriptorName position) = none) :
    ∃ g', (c.draft ctx f file position).result = .ok g' := by
  have hd : Var.bytes (descriptorName position) (compressedDescriptor f) = .ok _ :=
    bytes_eq_ok ⟨_, hname⟩ _
  simp only [draft, descriptorVar, Traced.result_bind, hg, hd]
  exact ⟨_, rfl⟩

/-- An interface of the file has a method for a method of the schema. -/
def Covers (ctx : Context) (g : GoFile) (m : Schema.Method) : Prop :=
  ∃ d ∈ g.interfaces, ∃ m' ∈ d.methods, ∃ e, Resolves ctx m e ∧ Serves e m'

theorem mem_imports_addImports {l : List Import} {g : GoFile} {i : Import} :
    i ∈ (l.foldl GoFile.addImport g).imports ↔ i ∈ l ∨ i ∈ g.imports := by
  induction l generalizing g with
  | nil => simp
  | cons j l ih =>
    rw [List.foldl_cons, ih]
    simp only [GoFile.addImport, OrderedSet.mem_insert, List.mem_cons]
    tauto

/-- Imports are added to nothing but the imports. -/
theorem unchanged_addImports {α : Type} (part : GoFile → α)
    (hpart : ∀ (i : Import) g, part (g.addImport i) = part g) (l : List Import) (g : GoFile) :
    part (l.foldl GoFile.addImport g) = part g := by
  induction l generalizing g with
  | nil => rfl
  | cons i l ih => rw [List.foldl_cons, ih, hpart]

theorem Covers.mono {ctx : Context} {g g' : GoFile} {m : Schema.Method} (h : Covers ctx g m)
    (hg : Extends g g') : Covers ctx g' m := by
  obtain ⟨d, hd, h⟩ := h
  exact ⟨d, hg.interfaces d hd, h⟩

/-- A sound file that covers the methods of the services at the given positions. -/
structure Serving (fw : Framework) (ctx : Context) (f : File) (positions : List Nat) (g : GoFile) :
    Prop where
  header : SingleNames ctx → g.header.Lined
  sound : SoundFile (Provided fw ctx f) g
  runtime : ∀ p, fw.importOf p ∈ g.imports
  covers : ∀ index ∈ positions, ∀ s, f.services[index]? = some s → ∀ m ∈ s.methods, Covers ctx g m
  handles : positions ≠ [] → ∃ d ∈ g.typesWithMethods, Handles d

section Draft

variable {ctx : Context} (hv : c.validate = .ok ())
include hv

theorem yields_addService {file : Nat} {f : File} (hf : ctx.file file = .ok f)
    {data : ServerMetadata} (hd : Flat data.descriptorVar.toList) {done : List Nat} {g : GoFile}
    (hg : Serving c.runtime ctx f done g) (index : Nat) :
    Yields (c.addService ctx file data g index).result
      (Serving c.runtime ctx f (done ++ [index])) := by
  have hl := linked_provided c.runtime ctx f
  refine yields_result_bind (yields_resolve c.runtime hf index c.pathPrefix) fun s hs ↦ ?_
  refine yields_result_bind (yields_emit _) fun _ _ ↦ ?_
  refine yields_result_bind (yields_interface hl hs.1) fun i hi ↦ ?_
  refine yields_result_bind (yields_addClients hl hs.1 hi.2 (hg.sound.addInterface hi.1.sound))
    fun g₁ h₁ ↦ ?_
  refine (yields_addServer hl hs.1 hi.2 (orderedContentTypes_ne_nil hv) hd h₁.1).mono fun g₂ h₂ ↦ ?_
  have hlater := h₁.2.trans h₂.2.1
  have hextends := (extends_addInterface g i).trans hlater
  refine ⟨fun hnames ↦ ?_, h₂.1, fun p ↦ ?_, fun position hposition declared hdeclared m hm ↦ ?_,
    fun _ ↦ h₂.2.2⟩
  · rw [hextends.header]
    exact hg.header hnames
  · rw [hextends.imports]
    exact hg.runtime p
  · rcases List.mem_append.1 hposition with hposition | hposition
    · exact (hg.covers position hposition declared hdeclared m hm).mono hextends
    · obtain rfl := List.mem_singleton.1 hposition
      obtain ⟨e, he, hresolves⟩ := hs.2 declared hdeclared m hm
      obtain ⟨m', hm', hserves⟩ := hi.1.serves e he
      have hnew : i ∈ (g.addInterface i).interfaces := by simp [GoFile.addInterface]
      exact ⟨i, hlater.interfaces i hnew, m', hm', e, hresolves, hserves⟩

theorem yields_served {file : Nat} {f : File} (hf : ctx.file file = .ok f) (position : Nat) :
    Yields (c.served ctx f file position).result
      (Serving c.runtime ctx f (List.range f.services.length)) := by
  have hname : Flat (descriptorName position).toList := by
    unfold descriptorName
    rw [String.toList_append]
    exact (flat_ofList (by decide)).append (flat_repr position)
  refine yields_result_bind (yields_newFile ctx.package f.name) fun start hstart ↦ ?_
  refine yields_result_bind (yields_fileHeader hstart.1 file _) fun header hheader ↦ ?_
  have hframed := (hstart.2 _ header).addImports (l := c.runtime.imports) <| by
    intro i hi
    obtain ⟨p, -, rfl⟩ := List.mem_map.1 hi
    exact (linked_provided c.runtime ctx f).runtime p
  rw [Traced.result_foldlM]
  refine yields_foldlM (Serving c.runtime ctx f) ?_ fun done index g _ hg ↦
    yields_addService hv hf hname hg index
  refine ⟨fun hnames ↦ ?_, hframed, fun p ↦ ?_, nofun, fun hne ↦ absurd rfl hne⟩
  · rw [unchanged_addImports GoFile.header fun _ _ ↦ rfl]
    exact hheader hnames
  · refine mem_imports_addImports.2 (.inl (List.mem_map_of_mem ?_))
    cases p <;> decide

theorem yields_draft [Compressor] {file : Nat} {f : File} (hf : ctx.file file = .ok f)
    (position : Nat) :
    Yields (c.draft ctx f file position).result
      (Serving c.runtime ctx f (List.range f.services.length)) := by
  refine yields_result_bind (yields_served hv hf position) fun g hg ↦ ?_
  refine yields_result_bind (yields_descriptorVar f position) fun d hd ↦ yields_pure ?_
  exact { hg with sound := hg.sound.addVar hd }

theorem serving_of_draft [Compressor] {file position : Nat} {f : File} {g : GoFile}
    (hf : ctx.file file = .ok f) (hg : (c.draft ctx f file position).result = .ok g) :
    Serving c.runtime ctx f (List.range f.services.length) g := by
  have hserving := yields_draft hv hf position
  rw [hg] at hserving
  exact hserving.of_ok

end Draft

theorem mem_declaredImports {g : GoFile} {d : Interface} (hd : d ∈ g.interfaces)
    {m : InterfaceMethod} (hm : m ∈ d.methods) {i : Import}
    (hi : i ∈ signatureImports m.params m.results) : i ∈ g.declaredImports := by
  have himports : i ∈ d.imports.items := by
    rw [← OrderedSet.mem_def, Interface.imports, OrderedSet.mem_ofList]
    exact List.mem_flatMap.2 ⟨m, hm, hi⟩
  simp only [GoFile.declaredImports, OrderedSet.mem_insertAll, List.mem_append, List.mem_flatMap]
  exact .inl (.inl (.inl (.inl (.inr ⟨d, hd, himports⟩))))

section Serving

variable {fw : Framework} {ctx : Context} {f : File} {g : GoFile}

/-- An interface of the file has a method that points to a type with the import. -/
theorem Serving.exists_method (h : Serving fw ctx f (List.range f.services.length) g) {i : Import}
    (hi : Depends ctx f i) :
    ∃ d ∈ g.interfaces, ∃ m ∈ d.methods, 2 ≤ m.results.length ∧ ∃ name, isWord name.toList = true ∧
      isWord i.qualifier.toList = true ∧
      ((∃ p ∈ m.params, p.type = .pointer (.named name (some i.qualifier) (some i))) ∨
        GoType.pointer (.named name (some i.qualifier) (some i)) ∈ m.results) := by
  obtain ⟨s, hs, m, hm, name, hname, t, ht, hi⟩ := hi
  obtain ⟨index, hindex, rfl⟩ := List.mem_iff_getElem.1 hs
  obtain ⟨d, hd, m', hm', e, hresolves, hserves⟩ := h.covers index (List.mem_range.2 hindex) _
    (List.getElem?_eq_getElem hindex) m hm
  have htype := yields_type ctx name
  rw [ht] at htype
  obtain ⟨n, rfl, hn, hp⟩ := htype.of_ok.spelled i hi
  refine ⟨d, hd, m', hm', by simp [hserves.1], n, hn, hp, ?_⟩
  rcases List.mem_cons.1 hname with rfl | hname
  · rw [← Except.ok.inj (hresolves.input.symm.trans ht)]
    exact .inl hserves.2
  · obtain rfl := List.mem_singleton.1 hname
    rw [← Except.ok.inj (hresolves.output.symm.trans ht)]
    exact .inr (by simp [hserves.1])

theorem Serving.mem_declaredImports (h : Serving fw ctx f (List.range f.services.length) g)
    {i : Import} (hi : Depends ctx f i) : i ∈ g.declaredImports := by
  obtain ⟨d, hd, m, hm, -, name, -, -, hused⟩ := h.exists_method hi
  refine Config.mem_declaredImports hd hm ?_
  rw [mem_signatureImports]
  rcases hused with ⟨p, hp, hptype⟩ | hresult
  · exact .inl ⟨p, hp, by simp [hptype, GoType.origins]⟩
  · exact .inr ⟨_, hresult, by simp [GoType.origins]⟩

/-- The interfaces of a file use every package that its methods depend on. -/
theorem Serving.mem_usedQualifiers (h : Serving fw ctx f (List.range f.services.length) g)
    {i : Import} (hi : Depends ctx f i) {body : String} (hb : g.body = .ok body) :
    i.qualifier ∈ usedQualifiers body := by
  obtain ⟨d, hd, m, hm, hresults, name, hname, hpackage, hused⟩ := h.exists_method hi
  exact h.sound.mem_usedQualifiers hb hd hm hresults hname hpackage hused

section Clean

variable (hroot : Clean fw.root.toList) (hclean : ∀ f ∈ ctx.files, Clean f.goPackage.toList)
  (hnames : SingleNames ctx)
include hroot hclean hnames

theorem Serving.exists_finish {positions : List Nat} (h : Serving fw ctx f positions g)
    (hc : ¬CaseImport ctx f) : ∃ text, g.finish.result = .ok text :=
  h.sound.exists_finish (text_frontMatter (h.header hnames))
    (fun _ hi ↦ hi.importable hroot hclean) fun i hi hcase ↦
      hc ((h.sound.declaredImports i hi).caseImport hcase)

/-- The interface uses the import, so the import stays and its line is read as a branch. -/
theorem Serving.finish_eq_error (h : Serving fw ctx f (List.range f.services.length) g)
    (hc : CaseImport ctx f) :
    ∃ line body, g.finish.result = .error (misplacedCase line (resolvedSource g body)) := by
  obtain ⟨i, hi, hcase⟩ := caseImport_iff.1 hc
  have hqualifier : i.qualifier = "case" := by rw [Import.qualifier, hcase, Option.getD_some]
  refine h.sound.finish_eq_error (h.header hnames) (fun _ hi ↦ hi.importable hroot hclean)
    (h.mem_declaredImports hi) hcase fun body hb ↦ ?_
  rw [← hqualifier]
  exact h.mem_usedQualifiers hi hb

end Clean

end Serving

end Config

end RpcStubs.Stub
