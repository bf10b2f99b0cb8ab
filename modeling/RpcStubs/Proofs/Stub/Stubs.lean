import Mathlib.Data.List.Forall2
import RpcStubs.Proofs.Stub.Imports

namespace RpcStubs

theorem forall₂_of_mapM_eq_ok {α β : Type} {f : α → Build β} {l : List α} {bs : List β}
    (h : l.mapM f = .ok bs) : List.Forall₂ (fun a b ↦ f a = .ok b) l bs := by
  induction l generalizing bs with
  | nil =>
    cases h
    exact .nil
  | cons a l ih =>
    rw [List.mapM_cons] at h
    obtain ⟨b, hb, h⟩ := bind_eq_ok h
    obtain ⟨rest, hrest, h⟩ := bind_eq_ok h
    cases h
    exact .cons hb (ih hrest)

theorem map_eq_of_forall₂ {α β γ : Type} {R : α → β → Prop} {l : List α} {l' : List β}
    {f : α → γ} {g : β → γ} (h : List.Forall₂ R l l') (hR : ∀ a b, R a b → f a = g b) :
    l.map f = l'.map g := by
  induction h with
  | nil => rfl
  | cons hab _ ih => rw [List.map_cons, List.map_cons, hR _ _ hab, ih]

theorem forall₂_of_range {α β : Type} {R : Nat → β → Prop} {S : α → β → Prop} {l : List α}
    {bs : List β} (h : List.Forall₂ R (List.range l.length) bs)
    (hS : ∀ i a b, l[i]? = some a → R i b → S a b) : List.Forall₂ S l bs := by
  obtain ⟨hlength, hall⟩ := List.forall₂_iff_get.1 h
  refine List.forall₂_iff_get.2 ⟨by simpa using hlength, fun i hi hi' ↦ ?_⟩
  refine hS i _ _ (List.getElem?_eq_getElem hi) ?_
  have hR := hall i (by simpa using hi) hi'
  simpa using hR

namespace Stub

open Schema (Context File)

def goNames (s : Schema.Service) : List String := s.methods.map fun m ↦ Name.camelCase m.name

structure Service.Models (ctx : Context) (declared : Schema.Service) (s : Service) : Prop where
  name : s.name = Name.camelCase declared.name
  endpoints : List.Forall₂ (fun m e ↦ e.name = Name.camelCase m.name ∧ Resolves ctx m e)
    declared.methods s.endpoints

theorem Service.Models.names_eq {ctx : Context} {declared : Schema.Service} {s : Service}
    (h : s.Models ctx declared) : s.endpoints.map Endpoint.name = goNames declared :=
  (map_eq_of_forall₂ h.endpoints fun _ _ he ↦ he.1.symm).symm

theorem Service.models_of_resolve {ctx : Context} {file index : Nat} {root : String} {s : Service}
    {f : File} (hf : ctx.file file = .ok f) (h : Service.resolve ctx file index root = .ok s) :
    s.index = index ∧ ∃ declared, f.services[index]? = some declared ∧ s.Models ctx declared := by
  rw [Service.resolve, hf] at h
  obtain ⟨f', hf', h⟩ := bind_eq_ok h
  cases hf'
  split at h
  · cases h
  · next declared hdeclared =>
    obtain ⟨endpoints, hendpoints, h⟩ := bind_eq_ok h
    obtain ⟨comment, -, h⟩ := bind_eq_ok h
    cases h
    refine ⟨rfl, declared, hdeclared, rfl, ?_⟩
    rw [← List.zipIdx_map_fst 0 declared.methods, List.forall₂_map_left_iff]
    refine (forall₂_of_mapM_eq_ok hendpoints).imp fun p e he ↦ ?_
    obtain ⟨input, hinput, he⟩ := bind_eq_ok he
    obtain ⟨output, houtput, he⟩ := bind_eq_ok he
    obtain ⟨comment, -, he⟩ := bind_eq_ok he
    cases he
    exact ⟨rfl, hinput, houtput⟩

structure Stubs where
  service : Service
  interface : Interface
  clients : List ClientStub
  server : ServerStub

namespace Stubs

def structures (x : Stubs) : List Structure := x.clients.map ClientStub.type ++ [x.server.type]

def constructors (x : Stubs) : List Declaration :=
  (x.clients.map ClientStub.constructor ++ [x.server.constructor]).map .function

structure Implements (c : Config) (ctx : Context) (data : ServerMetadata)
    (declared : Schema.Service) (x : Stubs) : Prop where
  service : x.service.Models ctx declared
  interface : x.service.interface = .ok x.interface
  clients : List.Forall₂
    (fun ct client ↦ (ClientStub.build x.service c.runtime ct).result = .ok client)
    (if c.mode.emitsClients then c.orderedContentTypes else []) x.clients
  server : (ServerStub.build x.service c.runtime c.orderedContentTypes data).result = .ok x.server

def addTo (x : Stubs) (g : GoFile) : GoFile :=
  { g with
    consts := g.consts ++ [x.server.pathPrefix]
    interfaces := g.interfaces ++ [x.interface]
    typesWithMethods := g.typesWithMethods ++ x.structures
    funcs := g.funcs ++ x.constructors }

/-- The file declares the stubs one after the other, and beside them only variables. -/
structure DeclaredIn (xs : List Stubs) (g : GoFile) : Prop where
  consts : g.consts = xs.map fun x ↦ x.server.pathPrefix
  interfaces : g.interfaces = xs.map Stubs.interface
  typesWithMethods : g.typesWithMethods = xs.flatMap structures
  funcs : g.funcs = xs.flatMap constructors

theorem DeclaredIn.addTo {xs : List Stubs} {g : GoFile} (hg : DeclaredIn xs g) (x : Stubs) :
    DeclaredIn (xs ++ [x]) (x.addTo g) where
  consts := by simp [Stubs.addTo, hg.consts]
  interfaces := by simp [Stubs.addTo, hg.interfaces]
  typesWithMethods := by simp [Stubs.addTo, hg.typesWithMethods]
  funcs := by simp [Stubs.addTo, hg.funcs]

end Stubs

namespace Config

variable {c : Config} {ctx : Context} {f : File} {s : Service} {g g' : GoFile}

theorem eq_of_addClients_foldlM {cts : List Wire.ContentType}
    (h : (cts.foldlM (c.addClient s) g).result = .ok g') :
    ∃ clients, List.Forall₂ (fun ct client ↦ (ClientStub.build s c.runtime ct).result = .ok client)
        cts clients ∧
      g' = { g with
        typesWithMethods := g.typesWithMethods ++ clients.map ClientStub.type
        funcs := g.funcs ++ (clients.map ClientStub.constructor).map .function } := by
  induction cts generalizing g with
  | nil =>
    cases h
    exact ⟨[], .nil, by simp⟩
  | cons ct cts ih =>
    rw [List.foldlM_cons, Traced.result_bind] at h
    obtain ⟨next, hnext, h⟩ := bind_eq_ok h
    rw [addClient, Traced.result_bind] at hnext
    obtain ⟨client, hclient, hnext⟩ := bind_eq_ok hnext
    cases hnext
    obtain ⟨clients, hclients, rfl⟩ := ih h
    refine ⟨client :: clients, .cons hclient hclients, ?_⟩
    simp [GoFile.addFunc, GoFile.addTypeWithMethods]

theorem exists_addTo_of_addService {file index : Nat} (hf : ctx.file file = .ok f)
    {data : ServerMetadata} (h : (c.addService ctx file data g index).result = .ok g') :
    ∃ x : Stubs, x.service.index = index ∧ (∃ declared, f.services[index]? = some declared ∧
      x.Implements c ctx data declared) ∧ g' = x.addTo g := by
  rw [addService, Traced.result_bind] at h
  obtain ⟨s, hs, h⟩ := bind_eq_ok h
  rw [Traced.result_bind] at h
  obtain ⟨-, -, h⟩ := bind_eq_ok h
  rw [Traced.result_bind] at h
  obtain ⟨i, hi, h⟩ := bind_eq_ok h
  rw [Traced.result_bind] at h
  obtain ⟨g₁, hclients, h⟩ := bind_eq_ok h
  rw [addServer, Traced.result_bind] at h
  obtain ⟨server, hserver, h⟩ := bind_eq_ok h
  cases h
  obtain ⟨clients, hmade, rfl⟩ : ∃ clients, List.Forall₂
      (fun ct client ↦ (ClientStub.build s c.runtime ct).result = .ok client)
      (if c.mode.emitsClients then c.orderedContentTypes else []) clients ∧
      g₁ = { g.addInterface i with
        typesWithMethods := g.typesWithMethods ++ clients.map ClientStub.type
        funcs := g.funcs ++ (clients.map ClientStub.constructor).map .function } := by
    unfold addClients at hclients
    split_ifs at hclients with hmode
    · rw [if_pos hmode]
      exact eq_of_addClients_foldlM hclients
    · rw [if_neg hmode]
      cases hclients
      exact ⟨[], .nil, by simp [GoFile.addInterface]⟩
  obtain ⟨hindex, declared, hdeclared, hmodels⟩ := Service.models_of_resolve hf hs
  refine ⟨⟨s, i, clients, server⟩, hindex, ⟨declared, hdeclared, hmodels, hi, hmade, hserver⟩, ?_⟩
  simp [GoFile.addTypeWithMethods, GoFile.addFunc, GoFile.addConst, GoFile.addInterface,
    Stubs.addTo, Stubs.structures, Stubs.constructors]

/-- One service adds its stubs after those of the services before it. -/
theorem exists_stubs_of_addService {file index : Nat} (hf : ctx.file file = .ok f)
    {data : ServerMetadata} {xs : List Stubs} (hg : Stubs.DeclaredIn xs g)
    (h : (c.addService ctx file data g index).result = .ok g') :
    ∃ x, x.service.index = index ∧ (∃ declared, f.services[index]? = some declared ∧
      x.Implements c ctx data declared) ∧ Stubs.DeclaredIn (xs ++ [x]) g' := by
  obtain ⟨x, hindex, hx, rfl⟩ := exists_addTo_of_addService hf h
  exact ⟨x, hindex, hx, hg.addTo x⟩

theorem exists_stubs_of_foldlM {file : Nat} (hf : ctx.file file = .ok f) {data : ServerMetadata}
    {positions : List Nat} {xs : List Stubs} (hg : Stubs.DeclaredIn xs g)
    (h : (positions.foldlM (c.addService ctx file data) g).result = .ok g') :
    ∃ ys, ys.map (fun y ↦ y.service.index) = positions ∧
      List.Forall₂ (fun index y ↦ ∃ declared, f.services[index]? = some declared ∧
        y.Implements c ctx data declared) positions ys ∧ Stubs.DeclaredIn (xs ++ ys) g' := by
  induction positions generalizing g xs with
  | nil =>
    cases h
    exact ⟨[], rfl, .nil, by simpa using hg⟩
  | cons index positions ih =>
    rw [List.foldlM_cons, Traced.result_bind] at h
    obtain ⟨next, hnext, h⟩ := bind_eq_ok h
    obtain ⟨x, hindex, hx, hnext⟩ := exists_stubs_of_addService hf hg hnext
    obtain ⟨ys, hpositions, hys, hdeclared⟩ := ih hnext h
    refine ⟨x :: ys, ?_, .cons hx hys, ?_⟩
    · rw [List.map_cons, hindex, hpositions]
    · simpa using hdeclared

theorem declaredIn_addImports {imports : List Import} (hg : Stubs.DeclaredIn [] g) :
    Stubs.DeclaredIn [] (imports.foldl GoFile.addImport g) := by
  induction imports generalizing g with
  | nil => exact hg
  | cons i imports ih => exact ih ⟨hg.consts, hg.interfaces, hg.typesWithMethods, hg.funcs⟩

theorem declaredIn_new {package schemaFile : String} (h : GoFile.new package schemaFile = .ok g)
    (header : Comment) : Stubs.DeclaredIn [] (g.withHeader header) := by
  obtain ⟨i, rfl⟩ := GoFile.eq_of_new h
  exact ⟨rfl, rfl, rfl, rfl⟩

/-- Services leave a part of a file as it is if no stub is added to it. -/
theorem unchanged_of_foldlM {α : Type} (part : GoFile → α)
    (hpart : ∀ (x : Stubs) g, part (x.addTo g) = part g) {file : Nat} (hf : ctx.file file = .ok f)
    {data : ServerMetadata} {positions : List Nat}
    (h : (positions.foldlM (c.addService ctx file data) g).result = .ok g') : part g' = part g := by
  induction positions generalizing g with
  | nil =>
    cases h
    rfl
  | cons index positions ih =>
    rw [List.foldlM_cons, Traced.result_bind] at h
    obtain ⟨next, hnext, h⟩ := bind_eq_ok h
    obtain ⟨x, -, -, rfl⟩ := exists_addTo_of_addService hf hnext
    rw [ih h, hpart]

theorem framed_eq_ok {file position : Nat} (h : c.framed ctx f file position = .ok g) :
    ∃ start header, GoFile.new ctx.package f.name = .ok start ∧
      fileHeader ctx file (position = 0) = .ok header ∧
      g = c.runtime.imports.foldl GoFile.addImport (start.withHeader header) := by
  obtain ⟨start, hstart, h⟩ := bind_eq_ok h
  obtain ⟨header, hheader, h⟩ := bind_eq_ok h
  cases h
  exact ⟨start, header, hstart, hheader, rfl⟩

theorem declaredIn_framed {file position : Nat} (h : c.framed ctx f file position = .ok g) :
    Stubs.DeclaredIn [] g := by
  obtain ⟨start, header, hstart, -, rfl⟩ := framed_eq_ok h
  exact declaredIn_addImports (declaredIn_new hstart header)

/-- How a draft comes about: the services are added to the frame, and then the descriptor. -/
theorem draft_eq_ok [Compressor] {file position : Nat}
    (h : (c.draft ctx f file position).result = .ok g) :
    ∃ start g₁ d, c.framed ctx f file position = .ok start ∧
      ((List.range f.services.length).foldlM
        (c.addService ctx file ⟨descriptorName position, version⟩) start).result = .ok g₁ ∧
      descriptorVar f position = .ok d ∧ g = g₁.addVar d := by
  rw [draft, Traced.result_bind] at h
  obtain ⟨g₁, hserved, h⟩ := bind_eq_ok h
  rw [Traced.result_bind] at h
  obtain ⟨d, hd, h⟩ := bind_eq_ok h
  cases h
  rw [result_served] at hserved
  obtain ⟨start, hstart, hserved⟩ := bind_eq_ok hserved
  exact ⟨start, g₁, d, hstart, hserved, hd, rfl⟩

theorem header_of_draft [Compressor] {file position : Nat} (hf : ctx.file file = .ok f)
    (h : (c.draft ctx f file position).result = .ok g) :
    ∃ start, GoFile.new ctx.package f.name = .ok start ∧
      fileHeader ctx file (position = 0) = .ok g.header := by
  obtain ⟨framed, g₁, d, hframed, hserved, -, rfl⟩ := draft_eq_ok h
  obtain ⟨start, header, hstart, hheader, rfl⟩ := framed_eq_ok hframed
  have hg₁ : g₁.header = header := by
    rw [unchanged_of_foldlM GoFile.header (fun _ _ ↦ rfl) hf hserved,
      unchanged_addImports GoFile.header fun _ _ ↦ rfl]
    rfl
  refine ⟨start, hstart, ?_⟩
  change fileHeader ctx file _ = .ok g₁.header
  rw [hg₁]
  exact hheader

/-- A draft declares the stubs of all services of its schema file. -/
theorem exists_stubs_of_draft [Compressor] {file position : Nat} (hf : ctx.file file = .ok f)
    (h : (c.draft ctx f file position).result = .ok g) :
    ∃ xs, xs.map (fun x ↦ x.service.index) = List.range f.services.length ∧
      List.Forall₂ (Stubs.Implements c ctx ⟨descriptorName position, version⟩) f.services xs ∧
      Stubs.DeclaredIn xs g := by
  obtain ⟨start, g₁, d, hframed, hserved, -, rfl⟩ := draft_eq_ok h
  obtain ⟨xs, hpositions, hxs, hdeclared⟩ :=
    exists_stubs_of_foldlM hf (declaredIn_framed hframed) hserved
  refine ⟨xs, hpositions, forall₂_of_range hxs ?_, hdeclared.consts, hdeclared.interfaces,
    hdeclared.typesWithMethods, hdeclared.funcs⟩
  rintro index declared x hindex ⟨declared', hdeclared', himplements⟩
  obtain rfl := Option.some_inj.1 (hindex.symm.trans hdeclared')
  exact himplements

theorem Produces.exists_stubs [Compressor] {out : GeneratedFile} {body : String}
    (h : Produces c ctx out f g body) :
    ∃ data xs, List.Forall₂ (Stubs.Implements c ctx data) f.services xs ∧
      Stubs.DeclaredIn xs g := by
  obtain ⟨file, -, position, hf, hg⟩ := h.drafted
  obtain ⟨xs, -, hxs⟩ := exists_stubs_of_draft hf hg
  exact ⟨_, xs, hxs⟩

def pairConfig : Config := { contentTypes := [.json] }

def pairFile : File := .ofDescriptor [
  (1, .text "a.proto"), (2, .text "p"), (4, .message [(1, .text "Q")]),
  (6, .message [(1, .text "S"),
    (2, .message [(1, .text "Get"), (2, .text ".p.Q"), (3, .text ".p.Q")]),
    (2, .message [(1, .text "GetContent"), (2, .text ".p.Q"), (3, .text ".p.Q")])])]

def pairDeclared : Schema.Service where
  name := "S"
  methods := [⟨"Get", ".p.Q", ".p.Q"⟩, ⟨"GetContent", ".p.Q", ".p.Q"⟩]

theorem services_pairFile : pairFile.services = [pairDeclared] := rfl

def pairRequest : Request where
  files := [pairFile]
  filesToGenerate := ["a.proto"]

def pairContext : Context where
  files := [pairFile]
  toGenerate := [0]
  package := "p"
  registry := .ofFiles [pairFile]

end Config

def pairService : Service where
  name := "S"
  schemaPackage := "p"
  index := 0
  root := Wire.defaultPrefix
  comment := none
  endpoints := [⟨"Get", .named "Q" none none, .named "Q" none none, none⟩,
    ⟨"GetContent", .named "Q" none none, .named "Q" none none, none⟩]

theorem named_pairService : pairService.Named where
  name := by decide
  exported := by decide
  serverName := by decide
  clientName := by rintro (_ | _) <;> decide
  endpoints := by decide

namespace Config

theorem not_caseImport_pairFile : ¬CaseImport pairContext pairFile := by
  have htypes : (pairFile.services.flatMap messageNames).mapM pairContext.type =
      .ok (List.replicate 4 (.named "Q" none none)) := rfl
  intro hcase
  obtain ⟨i, hi, -⟩ := caseImport_iff.1 hcase
  simp [depends_iff_of_mapM htypes, GoType.origins] at hi

theorem single_pairContext : Single pairConfig pairContext pairFile pairService where
  toGenerate := rfl
  file := rfl
  services := rfl
  package := by decide +kernel
  header := by decide +kernel
  resolved := rfl
  named := named_pairService

theorem resolve_pairRequest :
    (Context.resolve pairRequest.files pairRequest.filesToGenerate).result = .ok pairContext := rfl

theorem exists_generate_pairRequest [Compressor] :
    ∃ out, (pairConfig.generate pairRequest).result = .ok [out] := by
  have hquotable : Quotable pairConfig pairRequest := by decide
  exact exists_generate hquotable rfl resolve_pairRequest single_pairContext
    not_caseImport_pairFile

theorem exists_produces_pairRequest [Compressor] {out : GeneratedFile}
    (h : (pairConfig.generate pairRequest).result = .ok [out]) :
    ∃ f g body, Produces pairConfig pairContext out f g body := by
  obtain ⟨ctx, hctx, hproduces⟩ := exists_produces_of_generate h
  obtain rfl := Except.ok.inj (resolve_pairRequest.symm.trans hctx)
  exact hproduces out List.mem_cons_self

theorem Produces.services_pair [Compressor] {out : GeneratedFile} {body : String}
    (h : Produces pairConfig pairContext out f g body) : f.services = [pairDeclared] := by
  rw [h.eq_of_single single_pairContext, services_pairFile]

end Config

end Stub

end RpcStubs
