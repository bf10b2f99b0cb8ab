import RpcStubs.Proofs.Code.Invariants
import RpcStubs.Proofs.Schema.MessageIndex
import RpcStubs.Proofs.Schema.SharedPackage
import RpcStubs.Proofs.Stub.Naming
import RpcStubs.Proofs.Stub.Runs

namespace RpcStubs

theorem bind_eq_error_iff {α β : Type} {x : Build α} {f : α → Build β} {failure : Failure} :
    x >>= f = .error failure ↔ x = .error failure ∨ ∃ a, x = .ok a ∧ f a = .error failure := by
  cases x <;> simp [bind, Except.bind]

theorem mapM_cons_eq_error_iff {α β : Type} {f : α → Build β} {a : α} {l : List α}
    {failure : Failure} : (a :: l).mapM f = .error failure ↔
      f a = .error failure ∨ (∃ b, f a = .ok b) ∧ l.mapM f = .error failure := by
  have hpure (b : β) (bs : List β) : (pure (b :: bs) : Build (List β)) ≠ .error failure := nofun
  simp only [List.mapM_cons, bind_eq_error_iff, hpure, and_false, exists_false, or_false,
    exists_and_right]

theorem mapM_eq_error_iff {α β : Type} {f : α → Build β} {l : List α} {failure : Failure} :
    l.mapM f = .error failure ↔ ∃ before a after, l = before ++ a :: after ∧
      (∀ b ∈ before, ∃ c, f b = .ok c) ∧ f a = .error failure := by
  constructor
  · intro h
    induction l with
    | nil => cases h
    | cons a l ih =>
      rcases mapM_cons_eq_error_iff.1 h with ha | ⟨hok, hl⟩
      · exact ⟨[], a, l, rfl, List.forall_mem_nil _, ha⟩
      · obtain ⟨before, a', after, rfl, hbefore, ha'⟩ := ih hl
        exact ⟨a :: before, a', after, rfl, List.forall_mem_cons.2 ⟨hok, hbefore⟩, ha'⟩
  · rintro ⟨before, a, after, rfl, hbefore, ha⟩
    induction before with
    | nil => exact mapM_cons_eq_error_iff.2 (.inl ha)
    | cons b before ih =>
      obtain ⟨hb, hbefore⟩ := List.forall_mem_cons.1 hbefore
      exact mapM_cons_eq_error_iff.2 (.inr ⟨hb, ih hbefore⟩)

theorem range_eq_append_cons_iff {n i : Nat} {before after : List Nat} :
    List.range n = before ++ i :: after ↔
      i < n ∧ before = List.range i ∧ after = List.range' (i + 1) (n - i - 1) := by
  rw [List.range_eq_range', List.range_eq_range', List.range'_eq_append_iff]
  constructor
  · rintro ⟨k, hk, rfl, hafter⟩
    obtain ⟨rfl, hpos, rfl⟩ := List.range'_eq_cons_iff.1 hafter.symm
    rw [Nat.zero_add, Nat.mul_one]
    exact ⟨Nat.lt_of_sub_pos hpos, rfl, rfl⟩
  · rintro ⟨hi, rfl, rfl⟩
    exact ⟨i, Nat.le_of_lt hi, rfl, (List.range'_eq_cons_iff.2 ⟨by omega, by omega, rfl⟩).symm⟩

namespace Stub

section Parts

variable {s : Service} {f : Framework} {cts : List Wire.ContentType} {data : ServerMetadata}
  {receiver : GoType} {structName : String}

theorem Framework.upholds_type (f : Framework) (p : Package) {name : String}
    (h : isWord name.toList = true) : Upholds (f.type p name) :=
  failsOnly_of_eq_ok (f.type_eq p h)

theorem upholds_contextType : Upholds contextType := failsOnly_of_eq_ok rfl

theorem upholds_responseWriter : Upholds responseWriter := failsOnly_of_eq_ok rfl

theorem upholds_requestPointer : Upholds requestPointer := failsOnly_of_eq_ok rfl

theorem Service.upholds_addEndpoint (i : Interface) (e : Endpoint) :
    Upholds (Service.addEndpoint i e) := by
  refine upholds_contextType.bind fun context ↦ ?_
  exact i.upholds_addMethod ..

theorem Service.upholds_interface (s : Service) : Upholds s.interface := by
  refine (Interface.upholds_new s.name).bind fun start ↦ ?_
  exact failsOnly_foldlM (fun e _ i ↦ upholds_addEndpoint i e) _

namespace ClientStub

theorem upholds_urlLiteral (s : Service) : Upholds (urlLiteral s) :=
  (SliceLiteral.upholds_new ..).bind fun _ ↦ failsOnly_foldlM (fun _ _ l ↦ l.upholds_push _) _

theorem upholds_literal (h : isWord structName.toList = true) (value : String) :
    Upholds (literal structName value) := by
  refine (GoType.upholds_declared h).bind fun type ↦ ?_
  refine (StructLiteral.upholds_addField ..).bind fun withClient ↦ ?_
  exact withClient.upholds_addField ..

theorem upholds_newClient (h : isWord structName.toList = true) (hs : isWord s.name.toList = true)
    (suffix : String) (httpClient : GoType) :
    Upholds (newClient s structName suffix httpClient) := by
  have hpointer : Upholds httpClientPointer := failsOnly_of_eq_ok rfl
  refine (upholds_urlLiteral s).bind fun urls ↦ ?_
  refine (upholds_literal h "httpClient").bind fun redirectless ↦ ?_
  refine (upholds_literal h "client").bind fun plain ↦ ?_
  refine hpointer.bind fun pointer ↦ ?_
  refine (Block.upholds_ofSteps _).bind fun body ↦ ?_
  refine (GoType.upholds_declared hs).bind fun result ↦ ?_
  exact (Function.upholds_new ..).bind fun function ↦ failsOnly_pure _

theorem upholds_method (s : Service) (ct : Wire.ContentType) (receiver : GoType) (e : Endpoint)
    (i : Nat) : Upholds (method s ct receiver e i) := by
  refine (Block.upholds_ofSteps _).bind fun body ↦ ?_
  refine upholds_contextType.bind fun context ↦ ?_
  exact (Method.upholds_new ..).bind fun m ↦ failsOnly_pure _

/-- The structure is made first, and that fails unless its name is a word. -/
theorem upholds_buildQuietly (hs : isWord s.name.toList = true) (f : Framework)
    (ct : Wire.ContentType) : Upholds (buildQuietly s f ct) := by
  refine (f.upholds_type .transport (by decide)).bind fun httpClient ↦ ?_
  refine (Structure.upholds_new _).bind_of_ok fun start hstart ↦ ?_
  obtain ⟨i, hi, -⟩ := bind_eq_ok hstart
  have hword := isWord_of_legal i.legal
  rw [name_of_ofString (eq_ok_of_inBuilder hi)] at hword
  have hmethods (receiver : GoType) :
      Upholds (s.endpoints.zipIdx.mapM fun ei ↦ method s ct receiver ei.1 ei.2) :=
    failsOnly_mapM fun ei _ ↦ upholds_method s ct receiver ei.1 ei.2
  refine (Structure.upholds_addField ..).bind fun withClient ↦ ?_
  refine (withClient.upholds_addField ..).bind fun fields ↦ ?_
  refine (upholds_newClient hword hs _ _).bind fun constructor ↦ ?_
  refine (GoType.upholds_declared hword).bind fun receiver ↦ ?_
  exact (hmethods _).bind fun methods ↦ failsOnly_pure _

/-- The names of clients and servers start alike. -/
theorem isWord_serverName_of_build {ct : Wire.ContentType} {client : ClientStub}
    (h : (build s f ct).result = .ok client) : isWord s.serverName.toList = true := by
  have hname : client.type.name.name = s.clientName ct := congrArg Prod.fst (summary_of_build h)
  have hword := isWord_of_legal client.type.name.legal
  rw [hname, Service.clientName_eq, String.toList_append] at hword
  rw [Service.serverName, String.toList_append]
  exact isWord_append_of_isWord hword (by decide)

end ClientStub

namespace ServerStub

theorem upholds_handlerParams : Upholds handlerParams := failsOnly_of_eq_ok rfl

theorem upholds_pathPrefixConst (s : Service) : Upholds (pathPrefixConst s) :=
  (Const.upholds_new ..).bind fun _ ↦ failsOnly_pure _

theorem upholds_newServer (h : isWord structName.toList = true) (hs : isWord s.name.toList = true)
    (f : Framework) (hooks logError : GoType) :
    Upholds (newServer s f structName hooks logError) := by
  have hserver := f.upholds_type .server (by decide : isWord "Server".toList = true)
  refine (GoType.upholds_declared h).bind fun type ↦ ?_
  refine (StructLiteral.upholds_addField ..).bind fun withService ↦ ?_
  refine (withService.upholds_addField ..).bind fun literal ↦ ?_
  refine (Block.upholds_ofSteps _).bind fun body ↦ ?_
  refine (GoType.upholds_declared hs).bind fun service ↦ ?_
  refine hserver.bind fun result ↦ ?_
  exact (Function.upholds_new ..).bind fun function ↦ failsOnly_pure _

theorem upholds_method (receiver : GoType) (name : String) (params : List Parameter)
    (results : List GoType) : Upholds (method receiver name params results) :=
  Method.upholds_new ..

theorem upholds_errorWriter (receiver : GoType) : Upholds (errorWriter receiver) := by
  refine (Block.upholds_ofSteps _).bind fun body ↦ ?_
  refine upholds_contextType.bind fun context ↦ ?_
  refine upholds_responseWriter.bind fun writer ↦ ?_
  exact (upholds_method ..).bind fun m ↦ failsOnly_pure _

theorem upholds_addRoute (s : Service) (routes : Switch) (e : Endpoint) :
    Upholds (addRoute s routes e) := by
  refine (Block.upholds_ofSteps _).bind fun body ↦ ?_
  exact routes.upholds_addCase ..

theorem upholds_routes (s : Service) : Upholds (routes s) := by
  refine (Switch.upholds_onValue _).bind fun start ↦ ?_
  refine (failsOnly_foldlM (fun e _ routes ↦ upholds_addRoute s routes e) _).bind fun cases ↦ ?_
  exact (Block.upholds_ofSteps _).bind fun fallback ↦ failsOnly_pure _

theorem upholds_handler (s : Service) (receiver : GoType) : Upholds (handler s receiver) := by
  refine (upholds_routes s).bind fun routes ↦ ?_
  refine (Block.upholds_ofSteps _).bind fun body ↦ ?_
  refine upholds_responseWriter.bind fun writer ↦ ?_
  refine upholds_requestPointer.bind fun request ↦ ?_
  exact (upholds_method ..).bind fun m ↦ failsOnly_pure _

theorem upholds_dispatcher (receiver : GoType) (cts : List Wire.ContentType) (e : Endpoint) :
    Upholds (dispatcher receiver cts e) := by
  refine (Block.upholds_ofSteps _).bind fun body ↦ ?_
  refine upholds_handlerParams.bind fun params ↦ ?_
  exact (upholds_method ..).bind fun m ↦ failsOnly_pure _

theorem upholds_endpointCall (e : Endpoint) : Upholds (endpointCall e) := by
  refine (Block.upholds_ofSteps _).bind fun onPanic ↦ ?_
  refine (FuncLiteral.upholds_new ..).bind fun f ↦ ?_
  exact (Block.upholds_ofSteps _).bind fun body ↦ failsOnly_pure _

theorem upholds_contentHandler (receiver : GoType) (f : Framework) (e : Endpoint) :
    Upholds (contentHandler receiver f e) := by
  have hdecode := f.upholds_type .transport (by decide : isWord "DecodeRequestFunc".toList = true)
  have hencode := f.upholds_type .transport (by decide : isWord "EncodeResponseFunc".toList = true)
  refine (Step.upholds_callExpr ..).bind fun decode ↦ ?_
  refine (upholds_endpointCall e).bind fun call ↦ ?_
  refine (Step.upholds_callExpr ..).bind fun encode ↦ ?_
  refine (Block.upholds_ofSteps _).bind fun body ↦ ?_
  refine upholds_handlerParams.bind fun params ↦ ?_
  refine hdecode.bind fun decodeType ↦ ?_
  refine hencode.bind fun encodeType ↦ ?_
  exact (upholds_method ..).bind fun m ↦ failsOnly_pure _

theorem upholds_endpointMethods (receiver : GoType) (f : Framework) (cts : List Wire.ContentType)
    (e : Endpoint) : Upholds (endpointMethods receiver f cts e) := by
  refine (upholds_dispatcher receiver cts e).bind fun dispatcher ↦ ?_
  exact (upholds_contentHandler receiver f e).bind fun handler ↦ failsOnly_pure _

theorem upholds_descriptorAccessor (s : Service) (receiver : GoType) (data : ServerMetadata) :
    Upholds (descriptorAccessor s receiver data) := by
  refine (Block.upholds_ofSteps _).bind fun body ↦ ?_
  exact (upholds_method ..).bind fun m ↦ failsOnly_pure _

theorem upholds_versionAccessor (receiver : GoType) (data : ServerMetadata) :
    Upholds (versionAccessor receiver data) := by
  refine (Block.upholds_ofSteps _).bind fun body ↦ ?_
  exact (upholds_method ..).bind fun m ↦ failsOnly_pure _

theorem upholds_methods (s : Service) (receiver : GoType) (f : Framework)
    (cts : List Wire.ContentType) (data : ServerMetadata) :
    Upholds (methods s receiver f cts data) := by
  have hserved : Upholds (s.endpoints.mapM (endpointMethods receiver f cts)) :=
    failsOnly_mapM fun e _ ↦ upholds_endpointMethods receiver f cts e
  refine (upholds_errorWriter receiver).bind fun errorWriter ↦ ?_
  refine (upholds_handler s receiver).bind fun handler ↦ ?_
  refine hserved.bind fun served ↦ ?_
  refine (upholds_descriptorAccessor s receiver data).bind fun descriptorAccessor ↦ ?_
  exact (upholds_versionAccessor receiver data).bind fun versionAccessor ↦ failsOnly_pure _

theorem upholds_declarations (hs : isWord s.name.toList = true)
    (h : isWord s.serverName.toList = true) (f : Framework) (cts : List Wire.ContentType)
    (data : ServerMetadata) : Upholds (declarations s f cts data) := by
  have hhooks := f.upholds_type .hooks (by decide : isWord "ServerHooks".toList = true)
  have hlog := f.upholds_type .transport (by decide : isWord "LogErrorFunc".toList = true)
  refine (GoType.upholds_declared h).bind fun receiver ↦ ?_
  refine hhooks.bind fun hooks ↦ ?_
  refine hlog.bind fun logError ↦ ?_
  refine (Structure.upholds_new _).bind fun start ↦ ?_
  refine (GoType.upholds_declared hs).bind fun service ↦ ?_
  refine (Structure.upholds_addField ..).bind fun withHooks ↦ ?_
  refine (withHooks.upholds_addField ..).bind fun fields ↦ ?_
  refine (upholds_newServer h hs ..).bind fun constructor ↦ ?_
  exact (upholds_methods ..).bind fun methods ↦ failsOnly_pure _

theorem upholds_build (hs : isWord s.name.toList = true) (h : isWord s.serverName.toList = true)
    (f : Framework) (cts : List Wire.ContentType) (data : ServerMetadata) :
    Upholds (ServerStub.build s f cts data).result := by
  rw [ServerStub.build, Traced.result_bind]
  refine (upholds_declarations hs h f cts data).bind fun d ↦ ?_
  rw [Traced.result_bind]
  refine FailsOnly.bind (failsOnly_ok _) fun _ ↦ ?_
  rw [Traced.result_bind]
  exact (upholds_pathPrefixConst s).bind fun _ ↦ failsOnly_pure _

/-- The server refers to its structure before it makes it. -/
theorem exists_violation_of_build (h : isWord s.serverName.toList = false) (f : Framework)
    (cts : List Wire.ContentType) (data : ServerMetadata) : ∃ failure,
    (ServerStub.build s f cts data).result = .error failure ∧ failure.isViolation = true := by
  obtain ⟨failure, hfailure, hviolation⟩ := GoType.exists_violation_of_declared h
  refine ⟨failure, ?_, hviolation⟩
  rw [ServerStub.build, Traced.result_bind, declarations]
  dsimp only
  rw [hfailure]
  rfl

end ServerStub

end Parts

open Schema (Context File Registry)

def Unspellable (ctx : Context) (name : String) : Prop :=
  ∃ d package, ctx.registry.message name = .ok d ∧ ctx.packageOf? d.fileIndex = some package ∧
    (isWord d.goName.toList = false ∨ package ≠ ctx.package ∧ isWord package.toList = false)

section Types

variable {ctx : Context} {name : String}

theorem type_eq {d : Schema.Definition} (hd : ctx.registry.message name = .ok d) {f : File}
    (hf : ctx.files[d.fileIndex]? = some f) {package : String}
    (hp : ctx.packageOf? d.fileIndex = some package) :
    ctx.type name = if package = ctx.package then GoType.declared d.goName
      else GoType.qualified package d.goName (Context.importOf? f package) := by
  unfold Context.type
  rw [hd]
  dsimp only [bind, Except.bind]
  rw [hf, hp]

theorem Unspellable.exists_violation (h : Unspellable ctx name) :
    ∃ failure, ctx.type name = .error failure ∧ failure.isViolation = true := by
  obtain ⟨d, package, hd, hp, hword⟩ := h
  obtain ⟨f, hf, -⟩ := Option.map_eq_some_iff.1 hp
  rw [type_eq hd hf hp]
  split_ifs with hown
  · refine GoType.exists_violation_of_declared (hword.resolve_right fun hother ↦ ?_)
    exact hother.1 hown
  · exact GoType.exists_violation_of_qualified (hword.imp_right And.right) _

/-- A registry knows only messages of files that are there. -/
theorem upholds_type (hctx : ctx.registry = .ofFiles ctx.files) (h : ¬Unspellable ctx name) :
    Upholds (ctx.type name) := by
  cases hd : ctx.registry.message name with
  | error failure =>
    have hfailure : failure = .unknownMessage name := by
      unfold Registry.message at hd
      split at hd <;> cases hd
      rfl
    rw [Context.type, hd, hfailure]
    exact upholds_fault rfl
  | ok d =>
    obtain ⟨f, -, hf, -⟩ := Registry.mem_ofFiles_iff_leads.1
      (Registry.last_of_message_eq_ok (hctx ▸ hd)).1
    obtain ⟨package, hp⟩ : ∃ package, ctx.packageOf? d.fileIndex = some package :=
      ⟨_, by rw [Context.packageOf?, hf]; rfl⟩
    have hword : isWord d.goName.toList = true ∧
        (package ≠ ctx.package → isWord package.toList = true) := by
      by_contra hne
      rw [not_and_or, Bool.not_eq_true, Classical.not_imp, Bool.not_eq_true] at hne
      exact h ⟨d, package, hd, hp, hne⟩
    rw [type_eq hd hf hp]
    split_ifs with hown
    · exact GoType.upholds_declared hword.1
    · exact GoType.upholds_qualified (hword.2 hown) hword.1 _

end Types

section Services

variable {c : Config} {ctx : Context} {file index : Nat} {f : File} {declared : Schema.Service}
  {root : String} {failure : Failure}

/-- A comment that cannot be had counts as none. -/
theorem exists_commentLines_comment (r : Registry) (file : Nat) (path : Schema.Path) :
    ∃ comment, commentLines (r.comment file path) = .ok comment := by
  have hempty : ∀ failure, r.comment file path = .error failure → failure = .emptyComment :=
    fun _ ↦ comment_eq_error
  obtain ⟨comment, hcomment, -⟩ := exists_commentLines hempty
  exact ⟨comment, hcomment⟩

/-- The first type that fails is the failure of the endpoints. -/
theorem mapM_endpoint_eq_error_iff (file index k : Nat) {methods : List Schema.Method} :
    ((methods.zipIdx k).mapM fun (m, i) ↦ Service.endpoint ctx file index m i) = .error failure ↔
      (methods.flatMap fun m ↦ [m.input, m.output]).mapM ctx.type = .error failure := by
  induction methods generalizing k with
  | nil => exact iff_of_false nofun nofun
  | cons m methods ih =>
    obtain ⟨comment, hcomment⟩ := exists_commentLines_comment ctx.registry file [6, index, 2, k]
    rw [List.zipIdx_cons, mapM_cons_eq_error_iff, ih, List.flatMap_cons, List.cons_append,
      List.cons_append, List.nil_append, mapM_cons_eq_error_iff, mapM_cons_eq_error_iff]
    simp only [Service.endpoint, Registry.methodComment, hcomment]
    cases ctx.type m.input <;> cases ctx.type m.output <;>
      simp [bind, Except.bind, pure, Except.pure]

theorem resolve_eq_error_iff (hf : ctx.file file = .ok f)
    (hs : f.services[index]? = some declared) :
    Service.resolve ctx file index root = .error failure ↔
      (messageNames declared).mapM ctx.type = .error failure := by
  obtain ⟨comment, hcomment⟩ := exists_commentLines_comment ctx.registry file [6, index]
  rw [messageNames, ← mapM_endpoint_eq_error_iff file index 0]
  unfold Service.resolve
  rw [hf]
  dsimp only [bind, Except.bind]
  rw [hs, Registry.serviceComment, hcomment]
  dsimp only
  split <;> simp_all [pure, Except.pure]

/-- All types that the methods of the service need can be written. -/
theorem exists_resolve_iff (hf : ctx.file file = .ok f)
    (hs : f.services[index]? = some declared) (root : String) :
    (∃ s, Service.resolve ctx file index root = .ok s) ↔
      ∀ name ∈ messageNames declared, ∃ t, ctx.type name = .ok t := by
  constructor
  · rintro ⟨s, h⟩
    have hnone (failure : Failure) : (messageNames declared).mapM ctx.type ≠ .error failure := by
      intro herror
      rw [(resolve_eq_error_iff hf hs).2 herror] at h
      cases h
    cases hall : (messageNames declared).mapM ctx.type with
    | error failure => exact absurd hall (hnone failure)
    | ok types => exact exists_of_mapM_eq_ok hall
  · intro hall
    cases h : Service.resolve ctx file index root with
    | ok s => exact ⟨s, rfl⟩
    | error failure =>
      obtain ⟨before, name, after, hsplit, -, hname⟩ :=
        mapM_eq_error_iff.1 ((resolve_eq_error_iff hf hs).1 h)
      obtain ⟨t, ht⟩ := hall name (by simp [hsplit])
      cases ht.symm.trans hname

inductive Violates (c : Config) (ctx : Context) (declared : Schema.Service) : Prop
  | type {before : List String} {name : String} {after : List String} :
      messageNames declared = before ++ name :: after → (∀ n ∈ before, ∃ t, ctx.type n = .ok t) →
      Unspellable ctx name → Violates c ctx declared
  | server : c.mode = .server → (∀ name ∈ messageNames declared, ∃ t, ctx.type name = .ok t) →
      (∀ name ∈ Name.camelCase declared.name :: goNames declared,
        identifierFault? (Name.exported name) = none) →
      isWord (Name.unexported (Name.camelCase declared.name) ++ "Server").toList = false →
      Violates c ctx declared

example (ctx : Context) : Violates { mode := .server } ctx ⟨"İx", []⟩ :=
  .server rfl (List.forall_mem_nil _) (by decide +kernel) (by decide +kernel)

theorem Service.Models.isOk_interface_iff {s : Service} (h : s.Models ctx declared) :
    s.interface.isOk = true ↔ ∀ name ∈ Name.camelCase declared.name :: goNames declared,
      identifierFault? (Name.exported name) = none := by
  rw [Service.isOk_interface_iff, List.forall_mem_cons, h.name, ← h.names_eq]
  simp only [List.forall_mem_map]

theorem Service.Models.serverName_eq {s : Service} (h : s.Models ctx declared) :
    s.serverName = Name.unexported (Name.camelCase declared.name) ++ "Server" := by
  rw [Service.serverName, h.name]

namespace Config

variable {data : ServerMetadata} {g : GoFile}

theorem exists_violation_of_addService (hf : ctx.file file = .ok f)
    (hs : f.services[index]? = some declared) (h : Violates c ctx declared)
    (data : ServerMetadata) (g : GoFile) : ∃ failure,
    (c.addService ctx file data g index).result = .error failure ∧ failure.isViolation = true := by
  cases h with
  | type hsplit hbefore hname =>
    obtain ⟨failure, hfailure, hviolation⟩ := hname.exists_violation
    have hresolve : Service.resolve ctx file index c.pathPrefix = .error failure :=
      (resolve_eq_error_iff hf hs).2 (mapM_eq_error_iff.2 ⟨_, _, _, hsplit, hbefore, hfailure⟩)
    exact ⟨failure, by rw [addService, hresolve]; rfl, hviolation⟩
  | server hmode htypes hexported hword =>
    obtain ⟨s, hresolve⟩ := (exists_resolve_iff hf hs c.pathPrefix).2 htypes
    obtain ⟨-, declared', hdeclared', hmodels⟩ := Service.models_of_resolve hf hresolve
    obtain rfl := Option.some_inj.1 (hs.symm.trans hdeclared')
    obtain ⟨i, hi⟩ := exists_of_isOk (hmodels.isOk_interface_iff.2 hexported)
    rw [← hmodels.serverName_eq] at hword
    obtain ⟨failure, hfailure, hviolation⟩ :=
      ServerStub.exists_violation_of_build hword c.runtime c.orderedContentTypes data
    refine ⟨failure, ?_, hviolation⟩
    have hclients : c.addClients s (g.addInterface i) = pure (g.addInterface i) := by
      rw [addClients, if_neg (by rw [hmode]; decide)]
    rw [result_addService hresolve, hi]
    change (c.addClients s (g.addInterface i)).result >>= _ = _
    rw [hclients]
    change (c.addServer s data (g.addInterface i)).result = _
    rw [addServer, Traced.result_bind, hfailure]
    rfl

theorem upholds_addClients {s : Service} (h : isWord s.name.toList = true) (c : Config)
    (g : GoFile) : Upholds (c.addClients s g).result := by
  unfold addClients
  split_ifs
  · rw [Traced.result_foldlM]
    refine failsOnly_foldlM (fun ct _ g ↦ ?_) _
    rw [addClient, Traced.result_bind, ClientStub.result_build]
    exact (ClientStub.upholds_buildQuietly h _ ct).bind fun _ ↦ failsOnly_pure _
  · exact failsOnly_ok _

/-- The first client has the start of its name in common with the server. -/
theorem isWord_serverName_of_addClients {s : Service} (hc : c.orderedContentTypes ≠ [])
    (hmode : c.mode.emitsClients = true) {g' : GoFile}
    (h : (c.addClients s g).result = .ok g') : isWord s.serverName.toList = true := by
  rw [addClients, if_pos hmode] at h
  obtain ⟨clients, hclients, -⟩ := eq_of_addClients_foldlM h
  obtain ⟨ct, cts, hcts⟩ := List.exists_cons_of_ne_nil hc
  rw [hcts] at hclients
  cases hclients with
  | cons hclient _ => exact ClientStub.isWord_serverName_of_build hclient

theorem upholds_addService (hctx : ctx.registry = .ofFiles ctx.files)
    (hc : c.orderedContentTypes ≠ []) (hf : ctx.file file = .ok f)
    (hs : f.services[index]? = some declared) (h : ¬Violates c ctx declared) :
    Upholds (c.addService ctx file data g index).result := by
  have hresolve : Upholds (Service.resolve ctx file index c.pathPrefix) := by
    refine ⟨fun failure hfailure ↦ ?_⟩
    obtain ⟨before, name, after, hsplit, hbefore, hname⟩ :=
      mapM_eq_error_iff.1 ((resolve_eq_error_iff hf hs).1 hfailure)
    exact (upholds_type hctx fun hn ↦ h (.type hsplit hbefore hn)).of_error failure hname
  cases hs' : Service.resolve ctx file index c.pathPrefix with
  | error failure =>
    rw [addService, hs']
    exact failsOnly_error_iff.2 (hresolve.of_error failure hs')
  | ok s =>
    obtain ⟨-, declared', hdeclared', hmodels⟩ := Service.models_of_resolve hf hs'
    obtain rfl := Option.some_inj.1 (hs.symm.trans hdeclared')
    rw [result_addService hs']
    refine s.upholds_interface.bind_of_ok fun i hi ↦ ?_
    have hi : s.interface.isOk = true := by rw [hi]; rfl
    have hname : isWord s.name.toList = true :=
      isWord_of_exported (isWord_of_legal (Service.isOk_interface_iff.1 hi).1)
    refine (upholds_addClients hname c _).bind_of_ok fun g' hg' ↦ ?_
    have hserver : isWord s.serverName.toList = true := by
      by_cases hmode : c.mode.emitsClients = true
      · exact isWord_serverName_of_addClients hc hmode hg'
      · by_contra hword
        rw [Bool.not_eq_true, hmodels.serverName_eq] at hword
        refine h (.server ?_ ((exists_resolve_iff hf hs _).1 ⟨s, hs'⟩)
          (hmodels.isOk_interface_iff.1 hi) hword)
        cases hm : c.mode with
        | api => exact absurd (by rw [hm]; rfl) hmode
        | server => rfl
    rw [addServer, Traced.result_bind]
    exact (ServerStub.upholds_build hname hserver ..).bind fun _ ↦ failsOnly_pure _

end Config

end Services

end Stub

namespace Schema

variable {files : List File} {names : List String} {ctx : Context}

theorem Context.getElem?_of_positions {positions : List Nat}
    (h : Context.positions files names = .ok positions) :
    positions.length = names.length ∧ ∀ i ∈ positions, ∃ f, files[i]? = some f := by
  have hall := Context.forall₂_of_positions h
  refine ⟨hall.length_eq.symm, ?_⟩
  clear h
  induction hall with
  | nil => exact List.forall_mem_nil _
  | cons hfile _ ih =>
    obtain ⟨f, -, hf⟩ := hfile
    exact List.forall_mem_cons.2 ⟨⟨f, hf⟩, ih⟩

theorem Context.upholds_positions (files : List File) (names : List String) :
    Upholds (Context.positions files names) := by
  induction names with
  | nil => exact failsOnly_ok _
  | cons name names ih =>
    rw [Context.positions]
    split
    · exact ih.bind fun _ ↦ failsOnly_pure _
    · exact upholds_fault rfl

theorem upholds_deducePackage (hne : files ≠ []) : Upholds (deducePackage files) := by
  have hagreed {setting : String} {names : List String} {failure : Failure}
      (h : agreed setting names = .error failure) : failure.isInputFault = true := by
    obtain ⟨_, -, _, -, -, rfl⟩ := agreed_eq_error h
    rfl
  refine ⟨fun failure hfailure ↦ ?_⟩
  rcases deducePackage_eq_error hne hfailure with h | ⟨-, h⟩
  · exact hagreed h
  · exact hagreed h

namespace Context

theorem upholds_resolve (hne : names ≠ []) : Upholds (resolve files names).result := by
  have hquiet : Upholds (resolveQuietly files names) := by
    refine (upholds_positions files names).bind_of_ok fun positions hpositions ↦ ?_
    obtain ⟨hlength, hfiles⟩ := getElem?_of_positions hpositions
    have hpositions : positions ≠ [] := by
      rintro rfl
      exact hne (List.length_eq_zero_iff.1 hlength.symm)
    refine (upholds_deducePackage ?_).bind fun _ ↦ failsOnly_pure _
    obtain ⟨i, hi⟩ := List.exists_mem_of_ne_nil _ hpositions
    obtain ⟨f, hf⟩ := hfiles i hi
    exact List.ne_nil_of_mem (List.mem_filterMap.2 ⟨i, hi, hf⟩)
  rw [resolve, Traced.result_bind]
  exact hquiet.bind fun _ ↦ failsOnly_ok _

theorem registry_of_resolve (h : (resolve files names).result = .ok ctx) :
    ctx.registry = .ofFiles ctx.files := by
  rw [resolve, Traced.result_bind] at h
  obtain ⟨ctx', hquiet, h⟩ := bind_eq_ok h
  cases h
  obtain ⟨toGenerate, -, hquiet⟩ := bind_eq_ok hquiet
  obtain ⟨package, -, hquiet⟩ := bind_eq_ok hquiet
  cases hquiet
  rfl

theorem exists_file_of_resolve (h : (resolve files names).result = .ok ctx) :
    ∀ i ∈ ctx.toGenerate, ∃ f, ctx.file i = .ok f := by
  obtain ⟨hfiles, hpositions⟩ := eq_of_resolve h
  intro i hi
  obtain ⟨f, hf⟩ := (getElem?_of_positions hpositions).2 i hi
  exact ⟨f, by rw [file, hfiles, hf]⟩

end Context

end Schema

namespace Stub

open Schema (Context File)

theorem upholds_packageLines {ctx : Context} (h : ∀ i ∈ ctx.toGenerate, ∃ f, ctx.file i = .ok f)
    (file : Nat) : Upholds (Header.packageLines ctx file) := by
  obtain ⟨comment, hcomment⟩ := exists_commentLines_comment ctx.registry file [2]
  refine FailsOnly.bind (failsOnly_of_eq_ok hcomment) fun _ ↦ ?_
  refine (failsOnly_mapM fun i hi ↦ ?_).bind fun _ ↦ failsOnly_pure _
  obtain ⟨f, hf⟩ := h i hi
  exact failsOnly_of_eq_ok hf

namespace Config

variable {c : Config} {r : Request} {ctx : Context} {made : List GeneratedFile} {file : Nat}
  {f : File} {failure : Failure}

theorem upholds_framed (h : ∀ i ∈ ctx.toGenerate, ∃ f, ctx.file i = .ok f)
    (hf : ctx.file file = .ok f) (position : Nat) : Upholds (c.framed ctx f file position) := by
  have hheader : Upholds (fileHeader ctx file (position = 0)) := by
    refine FailsOnly.bind (failsOnly_of_eq_ok hf) fun _ ↦ ?_
    dsimp only
    split_ifs
    · exact (upholds_packageLines h file).bind fun _ ↦ failsOnly_pure _
    · exact failsOnly_pure _
  exact (GoFile.upholds_new ..).bind fun _ ↦ hheader.bind fun _ ↦ failsOnly_pure _

structure ReachesService [Compressor] (c : Config) (r : Request) (ctx : Context)
    (made : List GeneratedFile) (file : Nat) (f : File) (index : Nat) :
    Prop extends Reaches c r ctx made file where
  file_eq : ctx.file file = .ok f
  before : ∃ start g, c.framed ctx f file made.length = .ok start ∧
    ((List.range index).foldlM (c.addService ctx file ⟨descriptorName made.length, version⟩)
      start).result = .ok g

/-- The declarations fail before the first service, or at a service. -/
theorem served_eq_error_iff {position : Nat} :
    (c.served ctx f file position).result = .error failure ↔
      c.framed ctx f file position = .error failure ∨
        ∃ start index g, c.framed ctx f file position = .ok start ∧ index < f.services.length ∧
          ((List.range index).foldlM (c.addService ctx file ⟨descriptorName position, version⟩)
            start).result = .ok g ∧
          (c.addService ctx file ⟨descriptorName position, version⟩ g index).result =
            .error failure := by
  rw [result_served]
  refine bind_eq_error_iff.trans (or_congr_right ⟨?_, ?_⟩)
  · rintro ⟨start, hstart, hfold⟩
    rw [Traced.result_foldlM, foldlM_eq_error_iff] at hfold
    obtain ⟨before, index, after, g, hrange, hbefore, hindex⟩ := hfold
    obtain ⟨hlt, rfl, -⟩ := range_eq_append_cons_iff.1 hrange
    rw [← Traced.result_foldlM] at hbefore
    exact ⟨start, index, g, hstart, hlt, hbefore, hindex⟩
  · rintro ⟨start, index, g, hstart, hlt, hbefore, hindex⟩
    refine ⟨start, hstart, ?_⟩
    rw [Traced.result_foldlM] at hbefore
    rw [Traced.result_foldlM, foldlM_eq_error_iff]
    exact ⟨_, index, _, g, range_eq_append_cons_iff.2 ⟨hlt, rfl, rfl⟩, hbefore, hindex⟩

theorem draft_eq_error_iff [Compressor] {position : Nat} :
    (c.draft ctx f file position).result = .error failure ↔
      (c.served ctx f file position).result = .error failure := by
  cases h : (c.served ctx f file position).result with
  | error other =>
    rw [draft, Traced.result_bind, h]
    simp [Except.bind]
  | ok g =>
    obtain ⟨g', hg'⟩ := exists_draft h (legal_descriptorName position)
    simp [hg']

section AddFile

variable (hf : ctx.file file = .ok f) (hs : ¬f.services.isEmpty = true)
include hf hs

theorem addFile_eq_error_of_served [Compressor]
    (h : (c.served ctx f file made.length).result = .error failure) :
    (c.addFile ctx made file).result = .error failure := by
  rw [result_addFile hf hs, result_generateFile_eq_bind hf, draft_eq_error_iff.2 h]
  rfl

/-- With its declarations there, a file can only fail in the layout. -/
theorem served_or_isFormat_of_addFile [Compressor]
    (h : (c.addFile ctx made file).result = .error failure) :
    (c.served ctx f file made.length).result = .error failure ∨ failure.isFormat = true := by
  cases hdraft : (c.draft ctx f file made.length).result with
  | error other =>
    have hserved := draft_eq_error_iff.1 hdraft
    rw [addFile_eq_error_of_served hf hs hserved] at h
    cases h
    exact .inl hserved
  | ok g =>
    rw [result_addFile hf hs, result_generateFile hf hdraft] at h
    have hlayout := g.laysOut_finish
    cases hfinish : g.finish.result with
    | error other =>
      rw [hfinish] at h hlayout
      cases h
      exact .inr (failsOnly_error_iff.1 hlayout)
    | ok text =>
      rw [hfinish] at h
      cases h

end AddFile

theorem Reaches.mem_toGenerate [Compressor] (h : Reaches c r ctx made file) :
    file ∈ ctx.toGenerate := by
  obtain ⟨before, after, hsplit, -⟩ := h.earlier
  simp [hsplit]

/-- A service that breaks an invariant makes the run fail over it. -/
theorem ReachesService.exists_violation [Compressor] (hv : c.validate = .ok ()) {index : Nat}
    (h : ReachesService c r ctx made file f index) {declared : Schema.Service}
    (hs : f.services[index]? = some declared) (hviolates : Violates c ctx declared) :
    ∃ failure, (c.generate r).result = .error failure ∧ failure.isViolation = true := by
  obtain ⟨start, g, hstart, hbefore⟩ := h.before
  obtain ⟨failure, hfailure, hviolation⟩ := exists_violation_of_addService h.file_eq hs hviolates
    ⟨descriptorName made.length, version⟩ g
  have hindex : index < f.services.length := (List.getElem?_eq_some_iff.1 hs).1
  have hserved : (c.served ctx f file made.length).result = .error failure :=
    served_eq_error_iff.2 (.inr ⟨start, index, g, hstart, hindex, hbefore, hfailure⟩)
  have hne : ¬f.services.isEmpty = true := fun hempty ↦ by
    rw [List.isEmpty_iff.1 hempty] at hindex
    exact Nat.not_lt_zero _ hindex
  exact ⟨failure, (result_generate_eq_error_iff hv).2 (.inr ⟨ctx, made, file, h.toReaches,
    addFile_eq_error_of_served h.file_eq hne hserved⟩), hviolation⟩

/-- Beside that there are only faults of the input and of the layout. -/
theorem Reaches.exists_service [Compressor] (h : Reaches c r ctx made file)
    (hv : c.validate = .ok ()) (hfailure : (c.addFile ctx made file).result = .error failure) :
    (failure.isInputFault = true ∨ failure.isFormat = true) ∨
      ∃ f index declared, ReachesService c r ctx made file f index ∧
        f.services[index]? = some declared ∧ Violates c ctx declared := by
  have hfiles := Context.exists_file_of_resolve h.resolved
  obtain ⟨f, hf⟩ := hfiles file h.mem_toGenerate
  by_cases hs : f.services.isEmpty = true
  · rw [result_addFile_of_isEmpty hf hs] at hfailure
    cases hfailure
  rcases served_or_isFormat_of_addFile hf hs hfailure with hserved | hformat
  · rcases served_eq_error_iff.1 hserved with hframed | ⟨start, index, g, hstart, hlt, hg, hindex⟩
    · exact .inl (.inl ((upholds_framed hfiles hf _).of_error failure hframed))
    · by_cases hviolates : Violates c ctx f.services[index]
      · exact .inr ⟨f, index, _, ⟨h, hf, start, g, hstart, hg⟩, List.getElem?_eq_getElem hlt,
          hviolates⟩
      · exact .inl (.inl ((upholds_addService (Context.registry_of_resolve h.resolved)
          (orderedContentTypes_ne_nil hv) hf (List.getElem?_eq_getElem hlt) hviolates).of_error
          failure hindex))
  · exact .inl (.inr hformat)

/-- Every failure of a run is one of construction, of resolution or of the layout, unless the run
comes to a service that breaks an invariant. -/
theorem generate_violation_iff [Compressor] (hv : c.validate = .ok ())
    (hne : r.filesToGenerate ≠ []) :
    (∀ failure, (c.generate r).result = .error failure →
      failure.isConstruction = true ∨ failure.isResolution = true ∨ failure.isFormat = true ∨
        failure.isViolation = true) ∧
    ((∃ failure, (c.generate r).result = .error failure ∧ failure.isViolation = true) ↔
      ∃ ctx made file f index declared, ReachesService c r ctx made file f index ∧
        f.services[index]? = some declared ∧ Violates c ctx declared) := by
  have hcases : ∀ failure, (c.generate r).result = .error failure →
      (failure.isInputFault = true ∨ failure.isFormat = true) ∨
        ∃ ctx made file f index declared, ReachesService c r ctx made file f index ∧
          f.services[index]? = some declared ∧ Violates c ctx declared := by
    intro failure hfailure
    rcases (result_generate_eq_error_iff hv).1 hfailure with hresolve | ⟨ctx, made, file, hr, hadd⟩
    · exact .inl (.inl ((Context.upholds_resolve hne).of_error failure hresolve))
    · exact (hr.exists_service hv hadd).imp_right fun hservice ↦ ⟨ctx, made, file, hservice⟩
  refine ⟨fun failure hfailure ↦ ?_, ?_, ?_⟩
  · rcases hcases failure hfailure with (hinput | hformat) |
      ⟨ctx, made, file, f, index, declared, hreaches, hs, hviolates⟩
    · rw [Failure.isInputFault, Bool.or_eq_true] at hinput
      exact hinput.imp_right .inl
    · exact .inr (.inr (.inl hformat))
    · obtain ⟨other, hother, hviolation⟩ := hreaches.exists_violation hv hs hviolates
      obtain rfl := Except.error.inj (hfailure.symm.trans hother)
      exact .inr (.inr (.inr hviolation))
  · rintro ⟨failure, hfailure, hviolation⟩
    refine (hcases failure hfailure).resolve_left fun h ↦ ?_
    rw [Failure.isViolation_eq_false h] at hviolation
    cases hviolation
  · rintro ⟨ctx, made, file, f, index, declared, hreaches, hs, hviolates⟩
    exact hreaches.exists_violation hv hs hviolates

def digitFile : File := .ofDescriptor [
  (1, .text "b.proto"), (2, .text "q"), (4, .message [(1, .text "R")]),
  (8, .message [(11, .text "github.com/acme/2fa")])]

def digitRequest : Request where
  files := [servingFile, digitFile]
  filesToGenerate := ["a.proto"]

def digitContext : Context where
  files := digitRequest.files
  toGenerate := [0]
  package := "p"
  registry := .ofFiles digitRequest.files

theorem unspellable_digitContext : Unspellable digitContext ".q.R" :=
  ⟨⟨1, "R", [], [4, 0]⟩, "2fa", rfl, by decide +kernel, .inr ⟨by decide, by decide⟩⟩

theorem reachesService_digitContext [Compressor] :
    ReachesService {} digitRequest digitContext [] 0 servingFile 0 where
  resolved := rfl
  earlier := ⟨[], [], rfl, rfl⟩
  file_eq := rfl
  before := ⟨_, _, rfl, rfl⟩

theorem violates_digitContext : ∃ declared, servingFile.services[0]? = some declared ∧
    Violates {} digitContext declared := by
  have hnames : messageNames ⟨"S", [⟨"M", ".p.Q", ".q.R"⟩]⟩ = [".p.Q"] ++ ".q.R" :: [] := rfl
  refine ⟨_, rfl, .type hnames ?_ unspellable_digitContext⟩
  exact List.forall_mem_singleton.2 ⟨.named "Q" none none, rfl⟩

theorem generate_digitRequest [Compressor] : (generate {} digitRequest).result =
    .error (.invariantViolation "cannot build a type reference from \"2fa\"") := rfl

theorem not_forall_isViolation_eq_false :
    ¬∀ (c : Config) (r : Request), c.validate = .ok () → r.filesToGenerate ≠ [] →
      ∀ failure, (c.generate r).result = .error failure → failure.isViolation = false := by
  intro h
  cases h {} digitRequest rfl (by decide) _ generate_digitRequest

theorem generate_violation_iff_digitRequest :
    validate {} = .ok () ∧ digitRequest.filesToGenerate ≠ [] ∧
      ∃ failure, (generate {} digitRequest).result = .error failure ∧
        failure.isViolation = true := by
  obtain ⟨declared, hdeclared, hviolates⟩ := violates_digitContext
  exact ⟨rfl, by decide, (generate_violation_iff rfl (by decide)).2.2
    ⟨digitContext, [], 0, servingFile, 0, declared, reachesService_digitContext, hdeclared,
      hviolates⟩⟩

end Config

end Stub

end RpcStubs
