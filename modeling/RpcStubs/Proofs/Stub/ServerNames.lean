import Mathlib.Data.List.Pairwise
import RpcStubs.Proofs.Stub.Routes
import RpcStubs.Proofs.Stub.Stubs

namespace RpcStubs.Stub

open Schema (Context File)

def handlerNames (names : List String) : List String :=
  names.flatMap fun name ↦ ["serve" ++ name, "serve" ++ name ++ "Content"]

def fixedNames : List String := ["writeError", "ServeHTTP"]

def accessorNames : List String := ["ServiceDescriptor", "ProtocGenXServiceVersion"]

def serverNames (names : List String) : List String :=
  fixedNames ++ handlerNames names ++ accessorNames

def Apart (a b : String) : Prop := a ≠ b ∧ b ≠ a ++ "Content" ∧ a ≠ b ++ "Content"

theorem Apart.symm {a b : String} (h : Apart a b) : Apart b a := ⟨h.1.symm, h.2.2, h.2.1⟩

theorem ne_append_content (a : String) : a ≠ a ++ "Content" := by
  intro h
  have hlength := congrArg String.length h
  rw [String.length_append] at hlength
  have hcontent : "Content".length = 7 := by decide
  omega

theorem nodup_handlerNames_iff (names : List String) :
    (handlerNames names).Nodup ↔ names.Pairwise Apart := by
  have hself (name : String) : ["serve" ++ name, "serve" ++ name ++ "Content"].Nodup := by
    simpa using ne_append_content ("serve" ++ name)
  have hdisjoint (a b : String) : List.Disjoint ["serve" ++ a, "serve" ++ a ++ "Content"]
      ["serve" ++ b, "serve" ++ b ++ "Content"] ↔ Apart a b := by
    simp only [List.disjoint_left, List.mem_cons, List.not_mem_nil, or_false, forall_eq_or_imp,
      forall_eq, not_or, String.append_assoc, String.append_right_inj, String.append_left_inj,
      Apart]
    constructor
    · rintro ⟨⟨hab, hac⟩, hca, -⟩
      exact ⟨hab, Ne.symm hca, hac⟩
    · rintro ⟨hab, hca, hac⟩
      exact ⟨⟨hab, hac⟩, Ne.symm hca, hab⟩
  rw [handlerNames, List.nodup_flatMap, and_iff_right fun name _ ↦ hself name]
  constructor
  · intro h
    exact h.imp fun {a b} hab ↦ (hdisjoint a b).1 hab
  · intro h
    exact h.imp fun {a b} hab ↦ (hdisjoint a b).2 hab

/-- No other method of a server is named like a handler. -/
theorem ne_of_mem_handlerNames {names : List String} {a b : String}
    (ha : a ∈ fixedNames ++ accessorNames) (hb : b ∈ handlerNames names) : a ≠ b := by
  have hfirst : ∀ name ∈ fixedNames ++ accessorNames, name.toList.head? ≠ some 's' := by decide
  rintro rfl
  obtain ⟨name, -, hname⟩ := List.mem_flatMap.1 hb
  refine hfirst a ha ?_
  rcases List.mem_pair.1 hname with rfl | rfl
  · simp
  · simp

theorem nodup_serverNames_iff (names : List String) :
    (serverNames names).Nodup ↔ names.Pairwise Apart := by
  have hfixed : (fixedNames ++ accessorNames).Nodup := by decide
  have hperm : (serverNames names).Perm (handlerNames names ++ (fixedNames ++ accessorNames)) := by
    rw [serverNames, ← List.append_assoc]
    exact (List.perm_append_comm).append_right accessorNames
  rw [hperm.nodup_iff, List.nodup_append, nodup_handlerNames_iff]
  constructor
  · intro h
    exact h.1
  · intro h
    exact ⟨h, hfixed, fun b hb a ha ↦ (ne_of_mem_handlerNames ha hb).symm⟩

/-- Two methods of a service have one Go name, or one is named like the content handler of the
other. -/
def Collides (s : Schema.Service) : Prop :=
  ∃ a ∈ s.methods, ∃ b ∈ s.methods, a.name ≠ b.name ∧
    (Name.camelCase a.name = Name.camelCase b.name ∨
      Name.camelCase b.name = Name.camelCase a.name ++ "Content")

instance (s : Schema.Service) : Decidable (Collides s) :=
  inferInstanceAs (Decidable (∃ a ∈ s.methods, ∃ b ∈ s.methods, a.name ≠ b.name ∧
    (Name.camelCase a.name = Name.camelCase b.name ∨
      Name.camelCase b.name = Name.camelCase a.name ++ "Content")))

theorem pairwise_goNames_iff {s : Schema.Service} (h : (s.methods.map (·.name)).Nodup) :
    (goNames s).Pairwise Apart ↔ ¬Collides s := by
  constructor
  · rintro hpairwise ⟨a, ha, b, hb, hne, hclash⟩
    have hmethods : s.methods.Pairwise fun a b ↦
        Apart (Name.camelCase a.name) (Name.camelCase b.name) := List.pairwise_map.1 hpairwise
    have hsymm : Std.Symm fun a b : Schema.Method ↦
        Apart (Name.camelCase a.name) (Name.camelCase b.name) := ⟨fun _ _ hab ↦ hab.symm⟩
    have hapart := hmethods.forall ha hb fun hab ↦ hne (hab ▸ rfl)
    rcases hclash with hsame | hcontent
    · exact hapart.1 hsame
    · exact hapart.2.1 hcontent
  · intro hnone
    rw [goNames, List.pairwise_map]
    have hdistinct : s.methods.Pairwise fun a b ↦ a.name ≠ b.name := List.pairwise_map.1 h
    refine hdistinct.imp_of_mem fun {a b} ha hb hne ↦ ⟨fun hsame ↦ ?_, fun hcontent ↦ ?_,
      fun hcontent ↦ ?_⟩
    · exact hnone ⟨a, ha, b, hb, hne, .inl hsame⟩
    · exact hnone ⟨a, ha, b, hb, hne, .inr hcontent⟩
    · exact hnone ⟨b, hb, a, ha, hne.symm, .inr hcontent⟩

namespace ServerStub

variable {s : Service} {f : Framework} {cts : List Wire.ContentType} {data : ServerMetadata}
  {server : ServerStub} {receiver : GoType}

theorem name_of_errorWriter {m : Method} (h : errorWriter receiver = .ok m) :
    m.name = "writeError" := by
  obtain ⟨body, -, h⟩ := bind_eq_ok h
  obtain ⟨context, -, h⟩ := bind_eq_ok h
  obtain ⟨writer, -, h⟩ := bind_eq_ok h
  obtain ⟨start, hstart, h⟩ := bind_eq_ok h
  cases h
  rw [Method.name_withBody, Method.name_of_new hstart]

theorem name_of_descriptorAccessor {m : Method}
    (h : descriptorAccessor s receiver data = .ok m) : m.name = "ServiceDescriptor" := by
  obtain ⟨body, -, h⟩ := bind_eq_ok h
  obtain ⟨start, hstart, h⟩ := bind_eq_ok h
  cases h
  rw [Method.name_withBody, Method.name_withComment, Method.name_of_new hstart]

theorem name_of_versionAccessor {m : Method} (h : versionAccessor receiver data = .ok m) :
    m.name = "ProtocGenXServiceVersion" := by
  obtain ⟨body, -, h⟩ := bind_eq_ok h
  obtain ⟨start, hstart, h⟩ := bind_eq_ok h
  cases h
  rw [Method.name_withBody, Method.name_withComment, Method.name_of_new hstart]

theorem names_of_endpointMethods {es : List Endpoint} {served : List (List Method)}
    (h : es.mapM (endpointMethods receiver f cts) = .ok served) :
    served.flatten.map Method.name = handlerNames (es.map Endpoint.name) := by
  have hall := forall₂_of_mapM_eq_ok h
  clear h
  induction hall with
  | nil => rfl
  | @cons e pair es served hpair _ ih =>
    obtain ⟨d, hd, hpair⟩ := bind_eq_ok hpair
    obtain ⟨c, hc, hpair⟩ := bind_eq_ok hpair
    cases hpair
    obtain ⟨hdispatcher, -⟩ := spells_dispatcher hd
    obtain ⟨hcontent, -⟩ := spells_contentHandler hc
    rw [List.flatten_cons, List.map_append, ih, List.map_cons, List.map_cons, List.map_cons,
      hdispatcher, hcontent]
    rfl

theorem names_of_build (h : (build s f cts data).result = .ok server) :
    server.type.methods.map Method.name = serverNames (s.endpoints.map Endpoint.name) := by
  obtain ⟨-, receiver, hmethods⟩ := methods_of_build h
  obtain ⟨writer, handler, served, descriptor, version, hms, hwriter, hhandler, hserved,
    hdescriptor, hversion⟩ := methods_eq_ok hmethods
  obtain ⟨hserve, -⟩ := spells_handler hhandler
  rw [hms, List.map_append, List.map_append, names_of_endpointMethods hserved]
  simp [serverNames, fixedNames, accessorNames, hserve, name_of_errorWriter hwriter,
    name_of_descriptorAccessor hdescriptor, name_of_versionAccessor hversion]

def literals (routes : Switch) : List String := routes.cases.flatMap Case.values

theorem exists_routes_of_build (h : (build s f cts data).result = .ok server) :
    ∃ routes, server.Routes routes s.endpoints.length ∧
      literals routes = s.endpoints.map fun e ↦ goQuoted (s.route e) := by
  obtain ⟨-, -, routes, hroutes, hall⟩ := routes_build h
  refine ⟨routes, hroutes, ?_⟩
  have hvalues : routes.cases.map Case.values = s.endpoints.map fun e ↦ [goQuoted (s.route e)] := by
    refine List.ext_getElem (by simpa using hroutes.length) fun i hi hi' ↦ ?_
    rw [List.length_map] at hi hi'
    obtain ⟨⟨body, hcase, -⟩, -⟩ := hall i _ (List.getElem?_eq_getElem hi')
    obtain ⟨_, hget⟩ := List.getElem?_eq_some_iff.1 hcase
    simp [hget]
  rw [literals, List.flatMap_def, hvalues, ← List.flatMap_def, ← List.map_eq_flatMap]

theorem goQuoted_inj {a b : String} (h : goQuoted a = goQuoted b) : a = b := by
  have hread := congrArg goUnquoted? h
  rw [goUnquoted?_goQuoted, goUnquoted?_goQuoted] at hread
  exact Option.some_inj.1 hread

theorem nodup_routes_iff (s : Service) :
    (s.endpoints.map fun e ↦ goQuoted (s.route e)).Nodup ↔
      (s.endpoints.map Endpoint.name).Nodup := by
  have hinjective : Function.Injective fun name ↦
      goQuoted (Wire.methodPath s.root s.fullName name) := by
    intro a b h
    exact String.append_right_inj _ |>.1 (goQuoted_inj h)
  have hmap : (s.endpoints.map fun e ↦ goQuoted (s.route e)) = (s.endpoints.map Endpoint.name).map
      fun name ↦ goQuoted (Wire.methodPath s.root s.fullName name) := by
    rw [List.map_map]
    rfl
  rw [hmap, List.nodup_map_iff hinjective]

end ServerStub

/-- What the server of a service declares, and when it declares nothing twice. -/
theorem Stubs.Implements.nodup_iff {c : Config} {ctx : Context} {data : ServerMetadata}
    {declared : Schema.Service} {x : Stubs} (h : x.Implements c ctx data declared) :
    x.server.type.methods.map Method.name = serverNames (goNames declared) ∧
      ∃ routes, x.server.Routes routes declared.methods.length ∧
        ((declared.methods.map (·.name)).Nodup →
          ((x.server.type.methods.map Method.name).Nodup ∧
            (ServerStub.literals routes).Nodup ↔ ¬Collides declared)) := by
  have hnames := h.service.names_eq
  have hmethods := ServerStub.names_of_build h.server
  obtain ⟨routes, hroutes, hliterals⟩ := ServerStub.exists_routes_of_build h.server
  rw [hnames] at hmethods
  rw [← h.service.endpoints.length_eq] at hroutes
  refine ⟨hmethods, routes, hroutes, fun hdistinct ↦ ?_⟩
  rw [hmethods, hliterals, nodup_serverNames_iff, ServerStub.nodup_routes_iff, hnames,
    ← pairwise_goNames_iff hdistinct, and_iff_left_iff_imp]
  -- names that are apart are different in the first place
  intro hapart
  exact hapart.imp fun hab ↦ hab.1

namespace Config

/-- In every file of a run, the server of a service declares two methods for each method of the
service beside its four fixed ones. If the schema names are different, then so are all of these
names and the literals of the routes, unless two of the names collide. -/
theorem generate_serverNames_iff [Compressor] {c : Config} {r : Request} {made : List GeneratedFile}
    (h : (c.generate r).result = .ok made) :
    ∃ ctx, (Context.resolve r.files r.filesToGenerate).result = .ok ctx ∧
      (∀ out ∈ made, ∃ f g body, Produces c ctx out f g body) ∧
      ∀ out f g body, Produces c ctx out f g body →
        ∃ xs, Stubs.DeclaredIn xs g ∧ List.Forall₂ (fun declared x ↦
          x.server.type.methods.map Method.name = serverNames (goNames declared) ∧
            ∃ routes, x.server.Routes routes declared.methods.length ∧
              ((declared.methods.map (·.name)).Nodup →
                ((x.server.type.methods.map Method.name).Nodup ∧
                  (ServerStub.literals routes).Nodup ↔ ¬Collides declared))) f.services xs := by
  obtain ⟨ctx, hctx, hproduces⟩ := exists_produces_of_generate h
  refine ⟨ctx, hctx, hproduces, fun out f g body hout ↦ ?_⟩
  obtain ⟨data, xs, hxs, hdeclared⟩ := hout.exists_stubs
  exact ⟨xs, hdeclared, hxs.imp fun declared x hx ↦ hx.nodup_iff⟩

theorem generate_serverNames_betweenRequest :
    ∃ out f g body x routes, (bareConfig.generate betweenRequest).result = .ok [out] ∧
      Produces bareConfig betweenContext out f g body ∧ Stubs.DeclaredIn [x] g ∧
      x.server.Routes routes 1 ∧ (x.server.type.methods.map Method.name).Nodup ∧
      (ServerStub.literals routes).Nodup := by
  obtain ⟨out, hout⟩ := exists_generate_betweenRequest
  obtain ⟨ctx, hctx, hproduces, hnames⟩ := generate_serverNames_iff hout
  obtain rfl := Except.ok.inj (resolve_betweenRequest.symm.trans hctx)
  obtain ⟨f, g, body, h⟩ := hproduces out List.mem_cons_self
  obtain ⟨xs, hdeclared, hxs⟩ := hnames out f g body h
  obtain rfl := h.eq_of_single single_betweenContext
  have hservices : betweenFile.services = [⟨"S", [⟨"M", ".q.Q", ".r.R"⟩]⟩] := rfl
  rw [hservices] at hxs
  obtain ⟨x, rest, ⟨-, routes, hroutes, hnodup⟩, hrest, rfl⟩ := List.forall₂_cons_left_iff.1 hxs
  cases hrest
  obtain ⟨hmethods, hliterals⟩ := (hnodup (by decide)).2 (by decide)
  exact ⟨out, _, g, body, x, routes, hout, h, hdeclared, hroutes, hmethods, hliterals⟩

/-- A method that is named like the content handler of another one. -/
theorem not_nodup_pairRequest :
    (pairDeclared.methods.map (·.name)).Nodup ∧
    ∃ out f g body x, (pairConfig.generate pairRequest).result = .ok [out] ∧
      Produces pairConfig pairContext out f g body ∧ f.services = [pairDeclared] ∧
      Stubs.DeclaredIn [x] g ∧ ¬(x.server.type.methods.map Method.name).Nodup := by
  refine ⟨by decide, ?_⟩
  obtain ⟨out, hout⟩ := exists_generate_pairRequest
  obtain ⟨f, g, body, h⟩ := exists_produces_pairRequest hout
  obtain ⟨data, xs, hxs, hdeclared⟩ := h.exists_stubs
  rw [h.services_pair] at hxs
  obtain ⟨x, rest, hx, hrest, rfl⟩ := List.forall₂_cons_left_iff.1 hxs
  cases hrest
  refine ⟨out, f, g, body, x, hout, h, h.services_pair, hdeclared, ?_⟩
  rw [hx.nodup_iff.1]
  decide

end Config

end RpcStubs.Stub
