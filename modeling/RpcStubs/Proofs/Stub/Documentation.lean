import RpcStubs.Proofs.Code.Documented
import RpcStubs.Proofs.Schema.Undocumented
import RpcStubs.Proofs.Stub.Stubs

namespace RpcStubs

theorem Tracks.with_eq {α β : Type} {strict : Prop} {R : α → β → Prop} {x : Build α} {y : Build β}
    (h : Tracks strict R x y) :
    Tracks strict (fun a b ↦ R a b ∧ x = .ok a ∧ y = .ok b) x y := by
  cases h with
  | ok h => exact .ok ⟨h, rfl, rfl⟩
  | error failure => exact .error failure
  | lax h => exact .lax h

theorem Tracks.agree {α β : Type} {R : α → β → Prop} {x : Build α} {y : Build β}
    (h : Tracks True R x y) : Agree R x y := by
  cases h with
  | ok h => exact .ok h
  | error failure => exact .error (.refl failure)
  | lax h => exact absurd trivial h

theorem Tracks.exists_ok {α β : Type} {R : α → β → Prop} {x : Build α} {y : Build β}
    (h : Tracks True R x y) {a : α} (hx : x = .ok a) : ∃ b, y = .ok b ∧ R a b := by
  subst hx
  cases h with
  | ok h => exact ⟨_, rfl, h⟩

abbrev AlikeIn {α β : Type} (f : α → β) (a b : α) : Prop := f b = f a

theorem tracks_of_map_eq {α β : Type} {strict : Prop} {f : α → β} {x y : Build α}
    (h : y.map f = x.map f) : Tracks strict (AlikeIn f) x y := by
  cases x with
  | error failure =>
    cases y with
    | error failure' =>
      cases h
      exact .error failure
    | ok b => cases h
  | ok a =>
    cases y with
    | error failure' => cases h
    | ok b => exact .ok (Except.ok.inj h)

theorem Tracks.inBuilder {α β : Type} {strict : Prop} {R : α → β → Prop} {x : Build α}
    {y : Build β} (h : Tracks strict R x y) (builder : String) :
    Tracks strict R (Build.inBuilder builder x) (Build.inBuilder builder y) := by
  cases h with
  | ok h => exact .ok h
  | error failure => exact .error _
  | lax h => exact .lax h

theorem forall₂_iff_map_eq {α β : Type} {f : α → β} {l l' : List α} :
    List.Forall₂ (AlikeIn f) l l' ↔ l'.map f = l.map f := by
  rw [eq_comm, ← List.forall₂_eq_eq_eq, List.forall₂_map_left_iff, List.forall₂_map_right_iff]
  exact ⟨fun h ↦ h.imp fun _ _ ↦ Eq.symm, fun h ↦ h.imp fun _ _ ↦ Eq.symm⟩

namespace Schema

theorem Context.tracks_file {ctx ctx' : Context} (h : ctx'.undocumented = ctx.undocumented)
    (i : Nat) :
    Tracks True (AlikeIn File.undocumented) (ctx.file i) (ctx'.file i) := by
  refine tracks_of_map_eq ?_
  rw [← file_undocumented, h, file_undocumented]

theorem tracks_resolve_undocumented {files files' : List File}
    (h : files'.map File.undocumented = files.map File.undocumented) (names : List String) :
    Tracks True (AlikeIn Context.undocumented)
      (Context.resolve files names).result (Context.resolve files' names).result := by
  have hpositions : Context.positions files' names = Context.positions files names := by
    rw [← positions_undocumented files', h, positions_undocumented]
  have hsources (is : List Nat) :
      deducePackage (is.filterMap (files'[·]?)) = deducePackage (is.filterMap (files[·]?)) := by
    rw [← deducePackage_undocumented, ← deducePackage_undocumented (is.filterMap (files[·]?)),
      List.map_filterMap, List.map_filterMap]
    simp only [← getElem?_undocumented, h]
  have hdefinitions : (Registry.ofFiles files').definitions =
      (Registry.ofFiles files).definitions := by
    rw [← definitions_undocumented files', h, definitions_undocumented]
  have hquiet : Tracks True (AlikeIn Context.undocumented)
      (Context.resolveQuietly files names) (Context.resolveQuietly files' names) := by
    refine (tracks_of_eq hpositions.symm).bind fun is _ his ↦ ?_
    subst his
    refine (tracks_of_eq (hsources is).symm).bind fun package _ hpackage ↦ .ok ?_
    subst hpackage
    simp only [AlikeIn, Context.undocumented, h, hdefinitions]
  exact tracks_result_bind hquiet fun ctx ctx' hctx ↦ .ok hctx

end Schema

namespace Stub

open Schema (Context File)

def Endpoint.undocumented (e : Endpoint) : Endpoint := { e with comment := none }

def Service.undocumented (s : Service) : Service :=
  { s with comment := none, endpoints := s.endpoints.map Endpoint.undocumented }

theorem ClientStub.build_undocumented (s : Service) (f : Framework) (ct : Wire.ContentType) :
    ClientStub.build s.undocumented f ct = ClientStub.build s f ct := by
  have hurls : urlLiteral s.undocumented = urlLiteral s := by
    simp only [urlLiteral, Service.undocumented, List.map_map]
    rfl
  have hbase : urlBase s.undocumented = urlBase s := by
    simp only [urlBase, Service.undocumented, List.isEmpty_map]
    rfl
  have hnew (structName suffix : String) (httpClient : GoType) :
      newClient s.undocumented structName suffix httpClient =
        newClient s structName suffix httpClient := by
    simp only [newClient, hurls, hbase]
    rfl
  have hquiet : buildQuietly s.undocumented f ct = buildQuietly s f ct := by
    simp only [buildQuietly, hnew]
    simp only [Service.undocumented, List.length_map, List.zipIdx_map, List.mapM_map]
    rfl
  simp only [build, hquiet, event]
  simp only [Service.undocumented, List.length_map]
  rfl

theorem ServerStub.build_undocumented (s : Service) (f : Framework) (cts : List Wire.ContentType)
    (data : ServerMetadata) :
    ServerStub.build s.undocumented f cts data = ServerStub.build s f cts data := by
  have hroutes : routes s.undocumented = routes s := by
    simp only [routes, Service.undocumented, List.foldlM_map]
    rfl
  have hmethods (receiver : GoType) :
      methods s.undocumented receiver f cts data = methods s receiver f cts data := by
    simp only [methods, handler, hroutes]
    simp only [Service.undocumented, List.mapM_map]
    rfl
  have hdeclarations : declarations s.undocumented f cts data = declarations s f cts data := by
    simp only [declarations, hmethods]
    rfl
  simp only [build, hdeclarations, event]
  simp only [Service.undocumented, List.length_map]
  rfl

/-- Looking for a comment never fails. -/
theorem tracks_commentLines (r r' : Schema.Registry) (file : Nat) (path : Schema.Path) :
    Tracks True (fun _ _ ↦ True) (commentLines (r.comment file path))
      (commentLines (r'.comment file path)) := by
  have hexists (r : Schema.Registry) :
      ∃ comment, commentLines (r.comment file path) = .ok comment := by
    obtain ⟨comment, hcomment, -⟩ := exists_commentLines fun _ ↦ comment_eq_error (r := r)
    exact ⟨comment, hcomment⟩
  obtain ⟨comment, hcomment⟩ := hexists r
  obtain ⟨comment', hcomment'⟩ := hexists r'
  rw [hcomment, hcomment']
  exact .ok trivial

section Pair

variable {ctx ctx' : Context} (h : ctx'.undocumented = ctx.undocumented)
include h

theorem tracks_endpoint_undocumented (file service : Nat) (m : Schema.Method) (index : Nat) :
    Tracks True (AlikeIn Endpoint.undocumented)
      (Service.endpoint ctx file service m index)
      (Service.endpoint ctx' file service m index) := by
  unfold Service.endpoint
  rw [Context.type_eq_of_undocumented h, Context.type_eq_of_undocumented h]
  refine (tracks_of_eq rfl).bind fun input _ hinput ↦ ?_
  refine (tracks_of_eq rfl).bind fun output _ houtput ↦ ?_
  subst hinput houtput
  exact (tracks_commentLines ctx.registry ctx'.registry file _).bind fun _ _ _ ↦ .ok rfl

theorem tracks_service_undocumented (file index : Nat) (root : String) :
    Tracks True (AlikeIn Service.undocumented)
      (Service.resolve ctx file index root) (Service.resolve ctx' file index root) := by
  unfold Service.resolve
  refine (Context.tracks_file h file).bind fun f f' hf ↦ ?_
  have hservices : f'.services = f.services := (congrArg File.services hf :)
  have hpackage : f'.package = f.package := (congrArg File.package hf :)
  have hname : f'.name = f.name := (congrArg File.name hf :)
  rw [hservices, hpackage, hname]
  cases f.services[index]? with
  | none => exact .error _
  | some s =>
    refine (tracks_mapM fun p _ ↦ tracks_endpoint_undocumented h file index p.1 p.2).bind
      fun es es' hes ↦ ?_
    have hendpoints : es'.map Endpoint.undocumented = es.map Endpoint.undocumented :=
      forall₂_iff_map_eq.1 hes
    refine (tracks_commentLines ctx.registry ctx'.registry file _).bind fun _ _ _ ↦ .ok ?_
    simp only [AlikeIn, Service.undocumented, hendpoints]

/-- A header is made whatever it says. -/
theorem tracks_fileHeader_undocumented (file : Nat) (first : Bool) :
    Tracks True (fun _ _ ↦ True) (fileHeader ctx file first) (fileHeader ctx' file first) := by
  have hlines : Tracks True (fun _ _ ↦ True) (Header.packageLines ctx file)
      (Header.packageLines ctx' file) := by
    have hpositions : ctx'.toGenerate = ctx.toGenerate := (congrArg Context.toGenerate h :)
    refine (tracks_commentLines ctx.registry ctx'.registry file _).bind fun _ _ _ ↦ ?_
    rw [hpositions]
    exact (tracks_mapM fun i _ ↦ Context.tracks_file h i).bind fun _ _ _ ↦ .ok trivial
  refine (Context.tracks_file h file).bind fun f f' _ ↦ ?_
  cases first with
  | false => exact .ok trivial
  | true => exact hlines.bind fun _ _ _ ↦ .ok trivial

theorem CaseImport.of_undocumented {f f' : File} (hf : f'.undocumented = f.undocumented)
    (hc : CaseImport ctx f) : CaseImport ctx' f' := by
  obtain ⟨s, hs, m, hm, name, hname, t, ht, hcase⟩ := hc
  have hservices : f'.services = f.services := (congrArg File.services hf :)
  exact ⟨s, hservices ▸ hs, m, hm, name, hname, t,
    (Context.type_eq_of_undocumented h name).trans ht,
    hcase⟩

end Pair

theorem tracks_addMethod {i i' : Interface} (h : i'.undocumented = i.undocumented) (name : String)
    (params : List Parameter) (results : List GoType) (comment comment' : String) :
    Tracks True (AlikeIn Interface.undocumented)
      (i.addMethod name params results comment) (i'.addMethod name params results comment') := by
  refine Tracks.inBuilder ?_ _
  refine (tracks_of_eq rfl).bind fun _ _ _ ↦ (tracks_of_eq rfl).bind fun n _ hn ↦ .ok ?_
  subst hn
  obtain ⟨hname, hmethods⟩ : i'.name = i.name ∧
      i'.methods.map InterfaceMethod.undocumented = i.methods.map InterfaceMethod.undocumented :=
    ⟨(congrArg Interface.name h :), (congrArg Interface.methods h :)⟩
  simp only [AlikeIn, Interface.undocumented, List.map_append, hname, hmethods]
  rfl

theorem tracks_interface_undocumented {s s' : Service} (h : s'.undocumented = s.undocumented) :
    Tracks True (AlikeIn Interface.undocumented) s.interface
      s'.interface := by
  have hname : s'.name = s.name := (congrArg Service.name h :)
  have hendpoints : List.Forall₂ (AlikeIn Endpoint.undocumented)
      s.endpoints s'.endpoints := forall₂_iff_map_eq.2 (congrArg Service.endpoints h :)
  unfold Service.interface
  rw [hname]
  refine (tracks_of_eq rfl).bind fun i _ hi ↦ ?_
  subst hi
  refine tracks_foldlM hendpoints (fun i i' e e' hi he ↦ ?_) rfl
  obtain ⟨hname, hinput, houtput⟩ : e'.name = e.name ∧ e'.input = e.input ∧ e'.output = e.output :=
    ⟨(congrArg Endpoint.name he :), (congrArg Endpoint.input he :), (congrArg Endpoint.output he :)⟩
  unfold Service.addEndpoint
  rw [hname, hinput, houtput]
  refine (tracks_of_eq rfl).bind fun t _ ht ↦ ?_
  subst ht
  exact tracks_addMethod hi ..

end Stub

theorem GoFile.undocumented_addInterface (g : GoFile) (d : Interface) :
    (g.addInterface d).undocumented = g.undocumented.addInterface d.undocumented := by
  simp [undocumented, addInterface]

theorem GoFile.undocumented_addImports (l : List Import) (g : GoFile) :
    (l.foldl addImport g).undocumented = l.foldl addImport g.undocumented := by
  induction l generalizing g with
  | nil => rfl
  | cons i l ih => exact ih (g.addImport i)

namespace Stub

open Schema (Context File)

namespace Config

variable {c : Config}

theorem tracks_addClients {s s' : Service} (hs : s'.undocumented = s.undocumented) {g g' : GoFile}
    (hg : g'.undocumented = g.undocumented) :
    Tracks True (AlikeIn GoFile.undocumented) (c.addClients s g).result
      (c.addClients s' g').result := by
  have hbuild (ct : Wire.ContentType) :
      ClientStub.build s' c.runtime ct = ClientStub.build s c.runtime ct := by
    rw [← ClientStub.build_undocumented s', hs, ClientStub.build_undocumented]
  unfold addClients
  split_ifs
  · refine tracks_result_foldlM (R := Eq) (List.forall₂_refl _) (fun g g' ct _ hg hct ↦ ?_) hg
    subst hct
    unfold addClient
    rw [hbuild]
    refine tracks_result_bind (tracks_of_eq rfl) fun client _ hclient ↦ .ok ?_
    subst hclient
    exact congrArg (fun g ↦ (g.addFunc client.constructor).addTypeWithMethods client.type) hg
  · exact .ok hg

theorem tracks_addServer {s s' : Service} (hs : s'.undocumented = s.undocumented)
    (data : ServerMetadata) {g g' : GoFile} (hg : g'.undocumented = g.undocumented) :
    Tracks True (AlikeIn GoFile.undocumented)
      (c.addServer s data g).result (c.addServer s' data g').result := by
  have hbuild : ServerStub.build s' c.runtime c.orderedContentTypes data =
      ServerStub.build s c.runtime c.orderedContentTypes data := by
    rw [← ServerStub.build_undocumented s', hs, ServerStub.build_undocumented]
  unfold addServer
  rw [hbuild]
  refine tracks_result_bind (tracks_of_eq rfl) fun server _ hserver ↦ .ok ?_
  subst hserver
  exact congrArg (fun g ↦ ((g.addConst server.pathPrefix).addFunc
    server.constructor).addTypeWithMethods server.type) hg

section Draft

variable {ctx ctx' : Context} (h : ctx'.undocumented = ctx.undocumented)
include h

theorem tracks_addService_undocumented (file : Nat) (data : ServerMetadata) {g g' : GoFile}
    (hg : g'.undocumented = g.undocumented) (index : Nat) :
    Tracks True (AlikeIn GoFile.undocumented)
      (c.addService ctx file data g index).result
      (c.addService ctx' file data g' index).result := by
  refine tracks_result_bind (tracks_service_undocumented h file index c.pathPrefix)
    fun s s' hs ↦ ?_
  refine tracks_result_bind (R := fun _ _ ↦ True) (.ok trivial) fun _ _ _ ↦ ?_
  refine tracks_result_bind (tracks_interface_undocumented hs) fun i i' hi ↦ ?_
  have hadded : (g'.addInterface i').undocumented = (g.addInterface i).undocumented := by
    rw [GoFile.undocumented_addInterface, GoFile.undocumented_addInterface, hg, hi]
  refine tracks_result_bind (tracks_addClients hs hadded) fun g₁ g₁' hg₁ ↦ ?_
  exact tracks_addServer hs data hg₁

theorem tracks_served {f f' : File} (hf : f'.undocumented = f.undocumented)
    (file position : Nat) :
    Tracks True (AlikeIn GoFile.undocumented) (c.served ctx f file position).result
      (c.served ctx' f' file position).result := by
  have hpackage : ctx'.package = ctx.package := (congrArg Context.package h :)
  have hname : f'.name = f.name := (congrArg File.name hf :)
  have hservices : f'.services = f.services := (congrArg File.services hf :)
  unfold served
  rw [hpackage, hname, hservices]
  refine tracks_result_bind (tracks_of_eq rfl) fun start _ hstart ↦ ?_
  subst hstart
  refine tracks_result_bind (tracks_fileHeader_undocumented h file _) fun header header' _ ↦ ?_
  refine tracks_result_foldlM (R := Eq) (List.forall₂_refl _) (fun g g' index _ hg hindex ↦ ?_) ?_
  · subst hindex
    exact tracks_addService_undocumented h file _ hg index
  · rw [AlikeIn, GoFile.undocumented_addImports, GoFile.undocumented_addImports]
    rfl

theorem tracks_draft [Compressor] {f f' : File} (hf : f'.undocumented = f.undocumented)
    (file position : Nat) :
    Tracks True (AlikeIn GoFile.undocumented) (c.draft ctx f file position).result
      (c.draft ctx' f' file position).result := by
  have hvar : descriptorVar f' position = descriptorVar f position := by
    have hdescriptor : f'.descriptor = f.descriptor := (congrArg File.descriptor hf :)
    rw [descriptorVar, descriptorVar, compressedDescriptor, compressedDescriptor, hdescriptor]
  unfold draft
  rw [hvar]
  refine tracks_result_bind (tracks_served h hf file position) fun g g' hg ↦ ?_
  refine tracks_result_bind (tracks_of_eq rfl) fun d _ hd ↦ .ok ?_
  subst hd
  exact congrArg (·.addVar d) hg

end Draft

theorem Clashes.of_undocumented [Compressor] {ctx ctx' : Context}
    (h : ctx'.undocumented = ctx.undocumented) {made : List GeneratedFile} {file : Nat}
    (hc : Clashes c ctx made file) :
    Clashes c ctx' made file := by
  obtain ⟨f, g, hf, hg, hcase⟩ := hc
  obtain ⟨f', hf', hff⟩ := (Context.tracks_file h file).exists_ok hf
  obtain ⟨g', hg', -⟩ := (tracks_draft h hff file made.length).exists_ok hg
  exact ⟨f', g', hf', hg', hcase.of_undocumented h hff⟩

/-- Files of one name, with the same code. -/
structure SameOutput (out out' : GeneratedFile) : Prop where
  name : out'.name = out.name
  content : Layout.SameCode out.content.toList out'.content.toList

section Step

variable {ctx ctx' : Context} (h : ctx'.undocumented = ctx.undocumented)
  (hv : c.validate = .ok ()) (hroot : Layout.Clean c.framework.toList)
  (hclean : ∀ f ∈ ctx.files, Layout.Clean f.goPackage.toList) (hnames : SingleNames ctx)
  (hclean' : ∀ f ∈ ctx'.files, Layout.Clean f.goPackage.toList) (hnames' : SingleNames ctx')
include h hv hroot hclean hnames hclean' hnames'

theorem agree_generateFile [Compressor] (file position : Nat) :
    Agree SameOutput (c.generateFile ctx file position).result
      (c.generateFile ctx' file position).result := by
  rw [generateFile_eq, generateFile_eq, Traced.result_bind, Traced.result_bind]
  refine (Context.tracks_file h file).with_eq.agree.bind fun f f' hf ↦ ?_
  obtain ⟨hff, hf, hf'⟩ := hf
  rw [Traced.result_bind, Traced.result_bind]
  refine (tracks_draft h hff file position).with_eq.agree.bind fun g g' hg ↦ ?_
  obtain ⟨hgg, hg, hg'⟩ := hg
  have hserving := serving_of_draft hv hf hg
  have hserving' := serving_of_draft hv hf' hg'
  have hfinish := hserving.sound.agree_finish hserving'.sound hgg
    (hserving.header hnames) (hserving'.header hnames')
    (fun _ hi ↦ hi.importable hroot hclean) (fun _ hi ↦ hi.importable hroot hclean')
  rw [Traced.result_bind, Traced.result_bind]
  refine hfinish.bind fun text text' htext ↦ .ok ⟨?_, htext⟩
  have hpath : f'.importPath? = f.importPath? := (congrArg File.importPath? hff :)
  have hschema : f'.name = f.name := (congrArg File.name hff :)
  have hfile : g'.fileName = g.fileName := (congrArg GoFile.fileName hgg :)
  change c.outputName f' g'.fileName = c.outputName f g.fileName
  rw [outputName, outputName, hpath, hschema, hfile]

theorem agree_addFile [Compressor] {made made' : List GeneratedFile}
    (hmade : List.Forall₂ SameOutput made made') (file : Nat) :
    Agree (List.Forall₂ SameOutput) (c.addFile ctx made file).result
      (c.addFile ctx' made' file).result := by
  unfold addFile
  rw [Traced.result_bind, Traced.result_bind]
  refine (Context.tracks_file h file).agree.bind fun f f' hf ↦ ?_
  have hservices : f'.services = f.services := (congrArg File.services hf :)
  rw [hservices]
  split_ifs
  · exact .ok hmade
  · rw [Traced.result_bind, Traced.result_bind, ← hmade.length_eq]
    refine (agree_generateFile h hv hroot hclean hnames hclean' hnames' file made.length).bind
      fun out out' hout ↦ .ok ?_
    exact List.rel_append hmade (.cons hout .nil)

end Step

end Config

def Request.undocumented (r : Request) : Request :=
  { r with files := r.files.map File.undocumented }

namespace Config

theorem Quotable.of_undocumented {c : Config} {r r' : Request} (h : Quotable c r)
    (hr : r'.undocumented = r.undocumented) : Quotable c r' := by
  have hfiles : r'.files.map File.undocumented = r.files.map File.undocumented :=
    (congrArg Request.files hr :)
  have hexists (f' : File) (hf' : f' ∈ r'.files) :
      ∃ f ∈ r.files, f.undocumented = f'.undocumented := by
    have hmem := List.mem_map_of_mem (f := File.undocumented) hf'
    rw [hfiles] at hmem
    exact List.mem_map.1 hmem
  refine ⟨h.framework, fun f' hf' ↦ ?_, fun f' hf' ↦ ?_⟩
  · obtain ⟨f, hf, hff⟩ := hexists f' hf'
    have hgoPackage : f.goPackage = f'.goPackage := (congrArg File.goPackage hff :)
    exact hgoPackage ▸ h.goPackage f hf
  · obtain ⟨f, hf, hff⟩ := hexists f' hf'
    have hname : f.name = f'.name := (congrArg File.name hff :)
    exact hname ▸ h.name f hf

/-- Runs over schemas that differ in comments only end alike: both succeed, with the same code in
files of the same names, or both fail, with one failure but for the source that it carries. -/
theorem agree_generate_of_undocumented_eq [Compressor] (c : Config) (r r' : Request)
    (h : Quotable c r) (hr : r'.undocumented = r.undocumented) :
    Agree (List.Forall₂ SameOutput) (c.generate r).result (c.generate r').result := by
  have h' : Quotable c r' := h.of_undocumented hr
  have hfiles : r'.files.map File.undocumented = r.files.map File.undocumented :=
    (congrArg Request.files hr :)
  have hwanted : r'.filesToGenerate = r.filesToGenerate := (congrArg Request.filesToGenerate hr :)
  cases hv : c.validate with
  | error failure =>
    rw [generate, generate, hv]
    exact .error (.refl failure)
  | ok =>
    rw [result_generate hv, result_generate hv, hwanted]
    refine (Schema.tracks_resolve_undocumented hfiles r.filesToGenerate).with_eq.agree.bind
      fun ctx ctx' hctx ↦ ?_
    obtain ⟨hctx, hresolve, hresolve'⟩ := hctx
    have hlisted (r : Request) (ctx : Context)
        (hr : (Context.resolve r.files r.filesToGenerate).result = .ok ctx) :
        ctx.files = r.files := by
      have hcontext := yields_context r.files r.filesToGenerate
      rw [hr] at hcontext
      exact hcontext.of_ok
    have hlists : ctx.files = r.files := hlisted r ctx hresolve
    have hlists' : ctx'.files = r'.files := hlisted r' ctx' (hwanted ▸ hresolve')
    have hpositions : ctx'.toGenerate = ctx.toGenerate := (congrArg Context.toGenerate hctx :)
    rw [Traced.result_foldlM, Traced.result_foldlM, hpositions]
    refine agree_foldlM (fun file _ made made' hmade ↦ ?_) .nil
    refine agree_addFile hctx hv h.framework (hlists ▸ h.goPackage) ?_ (hlists' ▸ h'.goPackage) ?_
      hmade file
    · rw [SingleNames, hlists]
      exact h.name
    · rw [SingleNames, hlists']
      exact h'.name

def documented (comments : List (List Nat × String)) (f : File) : File :=
  .ofDescriptor (f.descriptor ++ [(9, .message (comments.map fun (path, text) ↦
    (1, .message [(1, .packed path), (3, .text text)])))])

def packageComment : List Nat × String := ([2], " Stubs for tests.\n")

def documentedRequest : Request where
  files := documented [packageComment, ([6, 0], " Calls other packages.\n"),
    ([6, 0, 2, 0], " Sends a message.\n\n It is answered.\n")] callingFile :: calledFiles
  filesToGenerate := ["c.proto"]

theorem undocumented_documentedRequest :
    documentedRequest.undocumented = (callRequest []).undocumented := by
  have hfile (comments : List (List Nat × String)) :
      (documented comments callingFile).undocumented = callingFile.undocumented :=
    Schema.undocumented_ofDescriptor_congr rfl
  rw [Request.undocumented, documentedRequest, List.map_cons, hfile]
  rfl

theorem agree_generate_documentedRequest :
    Quotable {} (callRequest []) ∧
    documentedRequest.undocumented = (callRequest []).undocumented ∧
    documentedRequest.files.map File.comments = [[([2], " Stubs for tests.\n"),
      ([6, 0], " Calls other packages.\n"),
      ([6, 0, 2, 0], " Sends a message.\n\n It is answered.\n")], [], []] ∧
    ∃ out out', (generate {} (callRequest [])).result = .ok [out] ∧
      (generate {} documentedRequest).result = .ok [out'] ∧ SameOutput out out' := by
  refine ⟨quotable_callRequest, undocumented_documentedRequest, by decide +kernel, ?_⟩
  obtain ⟨out, hout⟩ := exists_generate_callRequest
  have hagree := agree_generate_of_undocumented_eq {} (callRequest []) documentedRequest
    quotable_callRequest undocumented_documentedRequest
  rw [hout] at hagree
  generalize hmade : (generate {} documentedRequest).result = made at hagree
  cases hagree with
  | ok h =>
    cases h with
    | cons h hrest =>
      cases hrest
      exact ⟨out, _, hout, rfl, h⟩

theorem Quotable.exists_source [Compressor] {c : Config} {r : Request} {ctx : Context}
    {made : List GeneratedFile} {file : Nat} (h : Quotable c r) (hv : c.validate = .ok ())
    (hr : Reaches c r ctx made file) (hc : Clashes c ctx made file) :
    ∃ header line source, fileHeader ctx file (made.length = 0) = .ok header ∧
      (c.generate r).result = .error (misplacedCase line source) ∧
      header.render.toList <+: source.toList := by
  obtain ⟨f, g, hf, hg, hcase⟩ := hc
  obtain ⟨-, -, hheader⟩ := header_of_draft hf hg
  obtain ⟨line, body, hfailure, -⟩ := h.exists_misplacedCase hv hr hf hg hcase
  exact ⟨g.header, line, _, hheader, hfailure, Layout.header_isPrefix_source g body⟩

def documentedCaseRequest : Request where
  files := [documented [packageComment] servingFile, caseFile]
  filesToGenerate := ["a.proto"]

def documentedCaseContext : Context where
  files := documentedCaseRequest.files
  toGenerate := [0]
  package := "p"
  registry := .ofFiles documentedCaseRequest.files

theorem undocumented_documentedCaseRequest :
    documentedCaseRequest.undocumented = caseRequest.undocumented := by
  have hfile : (documented [packageComment] servingFile).undocumented = servingFile.undocumented :=
    Schema.undocumented_ofDescriptor_congr rfl
  rw [Request.undocumented, documentedCaseRequest, List.map_cons, hfile]
  rfl

theorem toList_render_ofLines_append {a b : List String} (ha : a ≠ []) (hb : b ≠ []) :
    (Comment.ofLines (a ++ b)).render.toList =
      (Comment.ofLines a).render.toList ++ '\n' :: (Comment.ofLines b).render.toList := by
  simp only [Comment.render, Comment.ofLines, List.map_append, String.toList_intercalate]
  rw [Text.intercalate_append _ (by simpa using ha) (by simpa using hb)]
  rfl

def sharedLines : List String := Header.banner "a.proto" ++ Header.packageIntroduction "p"

def bareLines : List String := Header.packageComment none ++ Header.sourceList ["a.proto"]

def documentedLines : List String :=
  Header.packageComment (some ["Stubs for tests."]) ++ Header.sourceList ["a.proto"]

theorem not_isPrefix_of_documented {source : List Char}
    (h : (Comment.ofLines (sharedLines ++ bareLines)).render.toList <+: source) :
    ¬(Comment.ofLines (sharedLines ++ documentedLines)).render.toList <+: source := by
  intro h'
  rw [toList_render_ofLines_append (by decide) (by decide)] at h h'
  obtain ⟨rest, hrest⟩ := h
  obtain ⟨rest', hrest'⟩ := h'
  have hcommon := hrest.trans hrest'.symm
  rw [List.append_assoc, List.append_assoc, List.append_cancel_left_eq, List.cons_append,
    List.cons_append] at hcommon
  obtain ⟨text, htext⟩ : "//\n// I".toList <+: (Comment.ofLines bareLines).render.toList :=
    List.isPrefixOf_iff_prefix.1 (by decide +kernel)
  obtain ⟨text', htext'⟩ : "//\n// S".toList <+: (Comment.ofLines documentedLines).render.toList :=
    List.isPrefixOf_iff_prefix.1 (by decide +kernel)
  rw [← htext, ← htext'] at hcommon
  exact absurd (congrArg (·[7]?) hcommon) (by simp)

theorem not_forall_generate_eq :
    ¬∀ (c : Config) (r r' : Request), Quotable c r → r'.undocumented = r.undocumented →
      (∃ failure, (c.generate r).result = .error failure ∧
        (c.generate r').result = .error failure) ∨
      ∃ made made', (c.generate r).result = .ok made ∧ (c.generate r').result = .ok made' ∧
        List.Forall₂ SameOutput made made' := by
  intro h
  have hctx : documentedCaseContext.undocumented = caseContext.undocumented := rfl
  obtain ⟨header, line, source, hheader, hfailure, hprefix⟩ :=
    quotable_caseRequest.exists_source rfl reaches_caseRequest clashes_caseContext
  obtain ⟨header', line', source', hheader', hfailure', hprefix'⟩ :=
    (quotable_caseRequest.of_undocumented undocumented_documentedCaseRequest).exists_source rfl
      ⟨rfl, [], [], rfl, rfl⟩ (clashes_caseContext.of_undocumented hctx)
  have hlines : fileHeader caseContext 0 true = .ok (.ofLines (sharedLines ++ bareLines)) := rfl
  have hlines' : fileHeader documentedCaseContext 0 true =
    .ok (.ofLines (sharedLines ++ documentedLines)) := rfl
  obtain rfl := Except.ok.inj (hlines.symm.trans hheader)
  obtain rfl := Except.ok.inj (hlines'.symm.trans hheader')
  rcases h {} caseRequest documentedCaseRequest quotable_caseRequest
    undocumented_documentedCaseRequest with ⟨failure, hf, hf'⟩ | ⟨made, made', hmade, -⟩
  · obtain rfl := Except.error.inj (hf.symm.trans hfailure)
    have hsame := Except.error.inj (hf'.symm.trans hfailure')
    obtain rfl : source = source' := (Failure.format.inj (Failure.within.inj hsame).2).2
    exact not_isPrefix_of_documented hprefix hprefix'
  · cases hmade.symm.trans hfailure

end Config

end Stub

end RpcStubs
