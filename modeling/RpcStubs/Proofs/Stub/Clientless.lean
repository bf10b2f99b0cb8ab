import RpcStubs.Proofs.Code.Scanning
import RpcStubs.Proofs.Stub.Naming
import RpcStubs.Proofs.Stub.Runs

namespace RpcStubs

/-- Both computations succeed, with related results, or both fail. -/
inductive EndAlike {α β : Type} (R : α → β → Prop) : Build α → Build β → Prop
  | ok {a : α} {b : β} : R a b → EndAlike R (.ok a) (.ok b)
  | error (failure failure' : Failure) : EndAlike R (.error failure) (.error failure')

section Rules

variable {α β γ δ : Type} {R : α → β → Prop} {S : γ → δ → Prop} {x : Build α} {y : Build β}

theorem EndAlike.of_error (hx : ∃ failure, x = .error failure)
    (hy : ∃ failure, y = .error failure) : EndAlike R x y := by
  obtain ⟨failure, rfl⟩ := hx
  obtain ⟨failure', rfl⟩ := hy
  exact .error failure failure'

theorem EndAlike.mono {R' : α → β → Prop} (h : EndAlike R x y) (hR : ∀ a b, R a b → R' a b) :
    EndAlike R' x y := by
  cases h with
  | ok h => exact .ok (hR _ _ h)
  | error failure failure' => exact .error failure failure'

theorem EndAlike.bind {f : α → Build γ} {g : β → Build δ} (h : EndAlike R x y)
    (hf : ∀ a b, R a b → EndAlike S (f a) (g b)) : EndAlike S (x >>= f) (y >>= g) := by
  cases h with
  | ok h => exact hf _ _ h
  | error failure failure' => exact .error failure failure'

theorem endAlike_foldlM {ι : Type} {f : α → ι → Build α} {g : β → ι → Build β} {l : List ι}
    (h : ∀ i ∈ l, ∀ a b, R a b → EndAlike R (f a i) (g b i)) {a : α} {b : β} (hab : R a b) :
    EndAlike R (l.foldlM f a) (l.foldlM g b) := by
  induction l generalizing a b with
  | nil => exact .ok hab
  | cons i l ih =>
    rw [List.forall_mem_cons] at h
    rw [List.foldlM_cons, List.foldlM_cons]
    exact (h.1 a b hab).bind fun a' b' ↦ ih h.2

theorem EndAlike.with_eq (h : EndAlike R x y) :
    EndAlike (fun a b ↦ R a b ∧ x = .ok a ∧ y = .ok b) x y := by
  cases h with
  | ok h => exact .ok ⟨h, rfl, rfl⟩
  | error failure failure' => exact .error failure failure'

theorem EndAlike.exists_iff (h : EndAlike R x y) : (∃ a, x = .ok a) ↔ ∃ b, y = .ok b := by
  cases h with
  | ok _ => exact ⟨fun _ ↦ ⟨_, rfl⟩, fun _ ↦ ⟨_, rfl⟩⟩
  | error _ _ => exact iff_of_false nofun nofun

theorem EndAlike.of_eq_ok (h : EndAlike R x y) {a : α} {b : β} (hx : x = .ok a) (hy : y = .ok b) :
    R a b := by
  cases h with
  | ok h =>
    cases hx
    cases hy
    exact h
  | error _ _ => cases hx

end Rules

section Lists

variable {α β γ δ : Type} {f : α → Build β}

theorem mapM_append_eq_ok {l l' : List α} {bs cs : List β} (h : l.mapM f = .ok bs)
    (h' : l'.mapM f = .ok cs) : (l ++ l').mapM f = .ok (bs ++ cs) := by
  rw [List.mapM_append, h, h']
  rfl

theorem mapM_singleton_eq_ok {a : α} {b : β} (h : f a = .ok b) : [a].mapM f = .ok [b] := by
  rw [List.mapM_cons, h]
  rfl

theorem mapM_flatMap_eq_ok {R : γ → δ → Prop} {g : γ → List α} {k : δ → List β} {l : List γ}
    {l' : List δ} (h : List.Forall₂ R l l') (hR : ∀ c d, R c d → (g c).mapM f = .ok (k d)) :
    (l.flatMap g).mapM f = .ok (l'.flatMap k) := by
  induction h with
  | nil => rfl
  | cons hcd _ ih =>
    rw [List.flatMap_cons, List.flatMap_cons]
    exact mapM_append_eq_ok (hR _ _ hcd) ih

end Lists

namespace Layout

theorem SoundText.exists_scans {s : List Char} (h : SoundText [] s []) :
    ∃ found, Scans s found := by
  obtain ⟨gs, q, htext, hm, hq, -⟩ := Sound.exists_marked h (Text.pieces_ne_nil _ _)
  rw [Text.intercalate_pieces] at htext
  exact ⟨_, gs, mark_eq_ok_iff.2 ⟨htext, q, hm, hq⟩, rfl⟩

theorem exists_scans_blocks {texts : List String} (hne : texts ≠ [])
    (h : ∀ t ∈ texts, SoundText [] t.toList []) :
    ∃ found, Scans ("\n\n".intercalate texts).toList found ∧
      ∀ q, q ∈ found ↔ ∃ t ∈ texts, q ∈ usedQualifiers t := by
  induction texts with
  | nil => exact absurd rfl hne
  | cons t texts ih =>
    rw [List.forall_mem_cons] at h
    obtain ⟨found, hfound⟩ := h.1.exists_scans
    have hused (q : String) : q ∈ usedQualifiers t ↔ q ∈ found := by
      rw [hfound.usedQualifiers_eq, OrderedSet.mem_ofList]
    cases texts with
    | nil => exact ⟨found, by simpa using hfound, fun q ↦ by simp [hused]⟩
    | cons u texts =>
      obtain ⟨rest, hrest, hmem⟩ := ih (by simp) h.2
      refine ⟨found ++ ([] ++ rest), ?_, fun q ↦ ?_⟩
      · rw [String.toList_intercalate] at hrest ⊢
        rw [List.map_cons, List.map_cons, List.intercalate_cons_cons, List.append_assoc]
        exact hfound.append (scans_empty.append hrest)
      · simp [hmem, hused]

/-- Texts with blank lines between them use what each of them uses. -/
theorem mem_usedQualifiers_blocks_iff {texts : List String}
    (h : ∀ t ∈ texts, SoundText [] t.toList []) {q : String} :
    q ∈ usedQualifiers ("\n\n".intercalate texts) ↔ ∃ t ∈ texts, q ∈ usedQualifiers t := by
  by_cases hne : texts = []
  · have hempty : Scans ("\n\n".intercalate ([] : List String)).toList [] := scans_empty
    rw [hne, hempty.usedQualifiers_eq, OrderedSet.mem_ofList]
    simp
  · obtain ⟨found, hfound, hmem⟩ := exists_scans_blocks hne h
    rw [hfound.usedQualifiers_eq, OrderedSet.mem_ofList, hmem]

end Layout

namespace Stub

open Layout
open Schema (Context File)

namespace Stubs

def clientless (x : Stubs) : Stubs := { x with clients := [] }

structure Texts where
  clientTypes : List (List String)
  serverType : List String
  clientConstructors : List String
  serverConstructor : String

def texts (x : Stubs) : Build Texts := do
  let clientTypes ← (x.clients.map ClientStub.type).mapM GoFile.renderWithMethods
  let serverType ← GoFile.renderWithMethods x.server.type
  let clientConstructors ←
    ((x.clients.map ClientStub.constructor).map .function).mapM Declaration.render
  let serverConstructor ← (Declaration.function x.server.constructor).render
  return ⟨clientTypes, serverType, clientConstructors, serverConstructor⟩

namespace Texts

def clientless (t : Texts) : Texts := { t with clientTypes := [], clientConstructors := [] }

def sections (first : List String) (ts : List Texts) : List String :=
  first ++ ts.flatMap (fun t ↦ t.clientTypes.flatten ++ t.serverType) ++
    ts.flatMap fun t ↦ t.clientConstructors ++ [t.serverConstructor]

theorem subset_sections_clientless (first : List String) (ts : List Texts) :
    sections first (ts.map clientless) ⊆ sections first ts := by
  intro text htext
  simp only [sections, clientless, List.flatMap_map, List.mem_append, List.mem_flatMap] at htext ⊢
  rcases htext with (h | ⟨t, ht, h⟩) | ⟨t, ht, h⟩
  · exact .inl (.inl h)
  · exact .inl (.inr ⟨t, ht, .inr (by simpa using h)⟩)
  · exact .inr ⟨t, ht, .inr (by simpa using h)⟩

end Texts

variable {x : Stubs} {xs : List Stubs} {t : Texts} {ts : List Texts}

theorem mapM_of_texts_eq_ok (h : x.texts = .ok t) :
    x.structures.mapM GoFile.renderWithMethods = .ok (t.clientTypes ++ [t.serverType]) ∧
      x.constructors.mapM Declaration.render =
        .ok (t.clientConstructors ++ [t.serverConstructor]) := by
  obtain ⟨clientTypes, hclientTypes, h⟩ := bind_eq_ok h
  obtain ⟨serverType, hserverType, h⟩ := bind_eq_ok h
  obtain ⟨clientConstructors, hclientConstructors, h⟩ := bind_eq_ok h
  obtain ⟨serverConstructor, hserverConstructor, h⟩ := bind_eq_ok h
  cases h
  refine ⟨mapM_append_eq_ok hclientTypes (mapM_singleton_eq_ok hserverType), ?_⟩
  rw [constructors, List.map_append]
  exact mapM_append_eq_ok hclientConstructors (mapM_singleton_eq_ok hserverConstructor)

theorem texts_clientless (h : x.texts = .ok t) : x.clientless.texts = .ok t.clientless := by
  obtain ⟨clientTypes, -, h⟩ := bind_eq_ok h
  obtain ⟨serverType, hserverType, h⟩ := bind_eq_ok h
  obtain ⟨clientConstructors, -, h⟩ := bind_eq_ok h
  obtain ⟨serverConstructor, hserverConstructor, h⟩ := bind_eq_ok h
  cases h
  rw [texts, clientless]
  dsimp only
  rw [hserverType, hserverConstructor]
  rfl

theorem mapM_texts_clientless (h : xs.mapM texts = .ok ts) :
    (xs.map clientless).mapM texts = .ok (ts.map Texts.clientless) := by
  have hall := forall₂_of_mapM_eq_ok h
  rw [List.map_eq_flatMap, List.map_eq_flatMap]
  exact mapM_flatMap_eq_ok hall fun _ _ hx ↦ mapM_singleton_eq_ok (texts_clientless hx)

/-- The stubs that a sound file declares can be laid out. -/
theorem DeclaredIn.exists_texts {P : Import → Prop} {g : GoFile} (h : DeclaredIn xs g)
    (hg : SoundFile P g) : ∃ ts, xs.mapM texts = .ok ts := by
  have htexts : ∀ x ∈ xs, x.texts.isOk = true := by
    intro x hx
    have hstructure : ∀ d ∈ x.structures, (GoFile.renderWithMethods d).isOk = true := by
      intro d hd
      have hmem : d ∈ g.typesWithMethods := by
        rw [h.typesWithMethods]
        exact List.mem_flatMap.2 ⟨x, hx, hd⟩
      obtain ⟨texts, htexts, -⟩ := (hg.typesWithMethods d hmem).exists_renderWithMethods
      rw [htexts]
      rfl
    have hconstructor : ∀ d ∈ x.constructors, d.render.isOk = true := by
      intro d hd
      have hmem : d ∈ g.funcs := by
        rw [h.funcs]
        exact List.mem_flatMap.2 ⟨x, hx, hd⟩
      obtain ⟨f, rfl, hf⟩ := hg.funcs d hmem
      obtain ⟨text, htext, -⟩ := hf.renders
      change f.render.isOk = true
      rw [htext]
      rfl
    rw [structures, List.forall_mem_append] at hstructure
    rw [constructors, List.map_append, List.forall_mem_append] at hconstructor
    refine isOk_bind (isOk_mapM hstructure.1) fun clientTypes _ ↦ ?_
    refine isOk_bind (hstructure.2 _ List.mem_cons_self) fun serverType _ ↦ ?_
    refine isOk_bind (isOk_mapM hconstructor.1) fun clientFuncs _ ↦ ?_
    exact isOk_bind (hconstructor.2 _ List.mem_cons_self) fun serverFunc _ ↦ rfl
  exact exists_of_isOk (isOk_mapM htexts)

/-- Files that differ in nothing but structures with methods and functions have the same texts
before those of their stubs. -/
theorem exists_sections {P : Import → Prop} {g : GoFile} (hg : SoundFile P g) :
    ∃ first, ∀ (xs : List Stubs) ts, xs.mapM texts = .ok ts →
      { g with
        typesWithMethods := xs.flatMap structures
        funcs := xs.flatMap constructors }.sections = .ok (Texts.sections first ts) := by
  obtain ⟨consts, hconsts, -⟩ := exists_mapM fun d hd ↦ (hg.consts d hd).renders
  obtain ⟨vars, hvars, -⟩ := exists_mapM fun d hd ↦ (hg.vars d hd).renders
  obtain ⟨interfaces, hinterfaces, -⟩ := exists_mapM fun d hd ↦ (hg.interfaces d hd).renders
  refine ⟨consts ++ vars ++ interfaces, fun xs ts hts ↦ ?_⟩
  have hall := forall₂_of_mapM_eq_ok hts
  have htypes := mapM_flatMap_eq_ok hall fun _ _ h ↦ (mapM_of_texts_eq_ok h).1
  have hfuncs := mapM_flatMap_eq_ok hall fun _ _ h ↦ (mapM_of_texts_eq_ok h).2
  have hflatten : (ts.flatMap fun t ↦ t.clientTypes ++ [t.serverType]).flatten =
      ts.flatMap fun t ↦ t.clientTypes.flatten ++ t.serverType := by
    clear hts hall htypes hfuncs
    induction ts with
    | nil => rfl
    | cons t ts ih => simp [ih]
  have hgroup : { g with
      typesWithMethods := xs.flatMap structures
      funcs := xs.flatMap constructors }.groupSection = [] := by
    rw [GoFile.groupSection, hg.groupedTypes]
    rfl
  rw [GoFile.sections, hgroup, hconsts, hvars, hinterfaces, hg.prototypes, hg.types, htypes, hfuncs,
    Texts.sections, ← hflatten]
  change Except.ok _ = _
  simp

/-- The second file declares the stubs, the first one the same without clients, and they differ in
nothing else. -/
structure Clientless (xs : List Stubs) (g g' : GoFile) : Prop where
  declared : DeclaredIn xs g'
  eq : g = { g' with
    typesWithMethods := (xs.map clientless).flatMap structures
    funcs := (xs.map clientless).flatMap constructors }

namespace Clientless

variable {P P' : Import → Prop} {g g' : GoFile}

theorem start (h : DeclaredIn [] g) : Clientless [] g g where
  declared := h
  eq := by
    have hself {types : List Structure} {funcs : List Declaration}
        (htypes : g.typesWithMethods = types) (hfuncs : g.funcs = funcs) :
        g = { g with typesWithMethods := types, funcs := funcs } := by
      rw [← htypes, ← hfuncs]
    exact hself h.typesWithMethods h.funcs

theorem addTo (h : Clientless xs g g') (x : Stubs) :
    Clientless (xs ++ [x]) (x.clientless.addTo g) (x.addTo g') where
  declared := h.declared.addTo x
  eq := by
    rw [h.eq]
    simp [Stubs.addTo, clientless]

theorem addVar (h : Clientless xs g g') (d : Var) : Clientless xs (g.addVar d) (g'.addVar d) where
  declared := ⟨h.declared.consts, h.declared.interfaces, h.declared.typesWithMethods,
    h.declared.funcs⟩
  eq := by
    rw [h.eq]
    rfl

theorem exists_sections (h : Clientless xs g g') (hg : SoundFile P g') :
    ∃ first ts, xs.mapM texts = .ok ts ∧ g'.sections = .ok (Texts.sections first ts) ∧
      g.sections = .ok (Texts.sections first (ts.map Texts.clientless)) := by
  obtain ⟨ts, hts⟩ := h.declared.exists_texts hg
  obtain ⟨first, hsections⟩ := Stubs.exists_sections hg
  refine ⟨first, ts, hts, ?_, ?_⟩
  · have hall := hsections xs ts hts
    rwa [← h.declared.typesWithMethods, ← h.declared.funcs] at hall
  · rw [h.eq]
    exact hsections _ _ (mapM_texts_clientless hts)

/-- What the file without clients uses, the file with clients uses too. -/
theorem usedQualifiers_subset (h : Clientless xs g g') (hg : SoundFile P g)
    (hg' : SoundFile P' g') {body body' : String} (hb : g.body = .ok body)
    (hb' : g'.body = .ok body') : ∀ q ∈ usedQualifiers body, q ∈ usedQualifiers body' := by
  obtain ⟨first, ts, -, hsections', hsections⟩ := h.exists_sections hg'
  obtain ⟨texts, htexts, hsound, -⟩ := hg.exists_sections
  obtain ⟨texts', htexts', hsound', -⟩ := hg'.exists_sections
  rw [GoFile.body, htexts] at hb
  rw [GoFile.body, htexts'] at hb'
  cases hb
  cases hb'
  obtain rfl := Except.ok.inj (hsections.symm.trans htexts)
  obtain rfl := Except.ok.inj (hsections'.symm.trans htexts')
  intro q hq
  rw [mem_usedQualifiers_blocks_iff hsound] at hq
  obtain ⟨text, htext, hq⟩ := hq
  exact (mem_usedQualifiers_blocks_iff hsound').2
    ⟨text, Texts.subset_sections_clientless first ts htext, hq⟩

end Clientless

end Stubs

namespace Config

variable {c : Config} {r : Request} {ctx : Context} {file index : Nat} {f : File}
  {data : ServerMetadata} {s : Service} {g g' : GoFile}

abbrev inMode (c : Config) (mode : Mode) : Config := { c with mode }

theorem validate_inMode (hv : c.validate = .ok ()) (mode : Mode) :
    (c.inMode mode).validate = .ok () := hv

theorem exists_clients (hn : s.Named) (fw : Framework) (cts : List Wire.ContentType) :
    ∃ clients, List.Forall₂
      (fun ct client ↦ (ClientStub.build s fw ct).result = .ok client) cts clients := by
  induction cts with
  | nil => exact ⟨[], .nil⟩
  | cons ct cts ih =>
    have hbuild : (ClientStub.build s fw ct).result.isOk = true := ClientStub.isOk_build hn
    obtain ⟨client, hclient⟩ := exists_of_isOk hbuild
    obtain ⟨clients, hclients⟩ := ih
    exact ⟨client :: clients, .cons hclient hclients⟩

theorem addClients_foldlM_eq_ok {cts : List Wire.ContentType} {clients : List ClientStub}
    (h : List.Forall₂ (fun ct client ↦ (ClientStub.build s c.runtime ct).result = .ok client)
      cts clients) :
    (cts.foldlM (c.addClient s) g).result = .ok { g with
      typesWithMethods := g.typesWithMethods ++ clients.map ClientStub.type
      funcs := g.funcs ++ (clients.map ClientStub.constructor).map .function } := by
  induction h generalizing g with
  | nil => simp
  | cons hclient _ ih =>
    rw [List.foldlM_cons, Traced.result_bind, addClient, Traced.result_bind, hclient]
    change (List.foldlM _ _ _ : Traced GoFile).result = _
    rw [ih]
    simp [GoFile.addFunc, GoFile.addTypeWithMethods]

/-- A service for which everything can be made adds its stubs. -/
theorem addService_eq_ok {x : Stubs}
    (hs : Service.resolve ctx file index c.pathPrefix = .ok x.service)
    (hi : x.service.interface = .ok x.interface)
    (hclients : List.Forall₂
      (fun ct client ↦ (ClientStub.build x.service c.runtime ct).result = .ok client)
      (if c.mode.emitsClients then c.orderedContentTypes else []) x.clients)
    (hserver : (ServerStub.build x.service c.runtime c.orderedContentTypes data).result =
      .ok x.server) :
    (c.addService ctx file data g index).result = .ok (x.addTo g) := by
  have hadd : ∀ g, (c.addClients x.service g).result = .ok { g with
      typesWithMethods := g.typesWithMethods ++ x.clients.map ClientStub.type
      funcs := g.funcs ++ (x.clients.map ClientStub.constructor).map .function } := by
    intro g
    unfold addClients
    split_ifs with hmode
    · rw [if_pos hmode] at hclients
      exact addClients_foldlM_eq_ok hclients
    · rw [if_neg hmode] at hclients
      cases hx : x.clients with
      | nil => simp
      | cons => rw [hx] at hclients; cases hclients
  have hadded : x.addTo g = (({ g.addInterface x.interface with
      typesWithMethods := g.typesWithMethods ++ x.clients.map ClientStub.type
      funcs := g.funcs ++ (x.clients.map ClientStub.constructor).map Declaration.function }.addConst
        x.server.pathPrefix).addFunc x.server.constructor).addTypeWithMethods x.server.type := by
    simp [GoFile.addTypeWithMethods, GoFile.addFunc, GoFile.addConst, GoFile.addInterface,
      Stubs.addTo, Stubs.structures, Stubs.constructors]
  rw [result_addService hs, hi]
  change (c.addClients x.service (g.addInterface x.interface)).result >>= _ = _
  rw [hadd]
  change (c.addServer x.service data _).result = _
  rw [addServer, Traced.result_bind, hserver, hadded]
  rfl

/-- Where the server cannot be made the service fails, with clients or without. -/
theorem exists_addService_eq_error {i : Interface} {failure : Failure}
    (hs : Service.resolve ctx file index c.pathPrefix = .ok s) (hi : s.interface = .ok i)
    (hserver : (ServerStub.build s c.runtime c.orderedContentTypes data).result = .error failure) :
    ∃ failure, (c.addService ctx file data g index).result = .error failure := by
  rw [result_addService hs, hi]
  change ∃ failure, ((c.addClients s (g.addInterface i)).result >>= _) = .error failure
  cases (c.addClients s (g.addInterface i)).result with
  | error other => exact ⟨other, rfl⟩
  | ok g' =>
    refine ⟨failure, ?_⟩
    change (c.addServer s data g').result = _
    rw [addServer, Traced.result_bind, hserver]
    rfl

/-- What a service adds beside its clients can be made, or the service fails in every mode. -/
theorem exists_parts_or_addService_eq_error (c : Config) (ctx : Context) (file : Nat)
    (data : ServerMetadata) (index : Nat) :
    (∃ s i server, Service.resolve ctx file index c.pathPrefix = .ok s ∧ s.interface = .ok i ∧
      (ServerStub.build s c.runtime c.orderedContentTypes data).result = .ok server) ∨
    ∀ mode g, ∃ failure,
      ((c.inMode mode).addService ctx file data g index).result = .error failure := by
  cases hs : Service.resolve ctx file index c.pathPrefix with
  | error failure =>
    refine .inr fun mode g ↦ ⟨failure, ?_⟩
    rw [addService, hs]
    rfl
  | ok s =>
    cases hi : s.interface with
    | error failure =>
      refine .inr fun mode g ↦ ⟨failure, ?_⟩
      have hresolve : Service.resolve ctx file index (c.inMode mode).pathPrefix = .ok s := hs
      rw [result_addService hresolve, hi]
      rfl
    | ok i =>
      cases hserver : (ServerStub.build s c.runtime c.orderedContentTypes data).result with
      | error failure => exact .inr fun mode g ↦ exists_addService_eq_error hs hi hserver
      | ok server => exact .inl ⟨s, i, server, rfl, hi, hserver⟩

/-- A service whose server can be made has clients too. -/
theorem endAlike_addService (hf : ctx.file file = .ok f) (data : ServerMetadata)
    {xs : List Stubs} (h : Stubs.Clientless xs g g') (index : Nat) :
    EndAlike (fun g₁ g₁' ↦ ∃ x, (∃ declared, f.services[index]? = some declared ∧
        x.Implements (c.inMode .api) ctx data declared) ∧ Stubs.Clientless (xs ++ [x]) g₁ g₁')
      ((c.inMode .server).addService ctx file data g index).result
      ((c.inMode .api).addService ctx file data g' index).result := by
  rcases exists_parts_or_addService_eq_error c ctx file data index with hparts | hfails
  · obtain ⟨s, i, server, hs, hi, hserver⟩ := hparts
    have hok : s.interface.isOk = true := by rw [hi]; rfl
    have hnamed := Service.named_of_isOk hok hserver
    obtain ⟨clients, hclients⟩ := exists_clients hnamed c.runtime c.orderedContentTypes
    let x : Stubs := ⟨s, i, clients, server⟩
    have hserverRun : ((c.inMode .server).addService ctx file data g index).result =
        .ok (x.clientless.addTo g) := by
      refine addService_eq_ok hs hi ?_ hserver
      simp [Stubs.clientless, Mode.emitsClients]
    have hall : List.Forall₂
        (fun ct client ↦ (ClientStub.build s c.runtime ct).result = .ok client)
        (if (c.inMode .api).mode.emitsClients then c.orderedContentTypes else []) clients := by
      simpa [Mode.emitsClients] using hclients
    have hapiRun : ((c.inMode .api).addService ctx file data g' index).result =
        .ok (x.addTo g') := addService_eq_ok hs hi hall hserver
    rw [hserverRun, hapiRun]
    obtain ⟨-, declared, hdeclared, hmodels⟩ := Service.models_of_resolve hf hs
    have himplements : x.Implements (c.inMode .api) ctx data declared :=
      ⟨hmodels, hi, hall, hserver⟩
    exact .ok ⟨x, ⟨declared, hdeclared, himplements⟩, h.addTo x⟩
  · exact .of_error (hfails .server g) (hfails .api g')

theorem endAlike_services (hf : ctx.file file = .ok f) (data : ServerMetadata)
    {positions : List Nat} {xs : List Stubs} (h : Stubs.Clientless xs g g') :
    EndAlike (fun g₁ g₁' ↦ ∃ ys, List.Forall₂ (fun index y ↦ ∃ declared,
        f.services[index]? = some declared ∧ y.Implements (c.inMode .api) ctx data declared)
        positions ys ∧ Stubs.Clientless (xs ++ ys) g₁ g₁')
      (positions.foldlM ((c.inMode .server).addService ctx file data) g).result
      (positions.foldlM ((c.inMode .api).addService ctx file data) g').result := by
  induction positions generalizing g g' xs with
  | nil => exact .ok ⟨[], .nil, by simpa using h⟩
  | cons index positions ih =>
    rw [List.foldlM_cons, List.foldlM_cons, Traced.result_bind, Traced.result_bind]
    refine (endAlike_addService hf data h index).bind fun g₁ g₁' hstep ↦ ?_
    obtain ⟨x, hx, hxs⟩ := hstep
    refine (ih hxs).mono fun g₂ g₂' hrest ↦ ?_
    obtain ⟨ys, hys, hall⟩ := hrest
    exact ⟨x :: ys, .cons hx hys, by simpa using hall⟩

def Counterparts (c : Config) (ctx : Context) (f : File) (position : Nat) (g g' : GoFile) : Prop :=
  ∃ xs, List.Forall₂
    (Stubs.Implements (c.inMode .api) ctx ⟨descriptorName position, version⟩) f.services xs ∧
    Stubs.Clientless xs g g'

theorem endAlike_served (hf : ctx.file file = .ok f) (position : Nat) :
    EndAlike (Counterparts c ctx f position) ((c.inMode .server).served ctx f file position).result
      ((c.inMode .api).served ctx f file position).result := by
  rw [result_served, result_served]
  have hframed (mode : Mode) : (c.inMode mode).framed ctx f file position =
      c.framed ctx f file position := rfl
  rw [hframed .server, hframed .api]
  cases hstart : c.framed ctx f file position with
  | error failure => exact .error _ _
  | ok start =>
    refine (endAlike_services hf ⟨descriptorName position, version⟩
      (.start (declaredIn_framed hstart))).mono fun g g' h ↦ ?_
    obtain ⟨xs, hxs, hall⟩ := h
    refine ⟨xs, forall₂_of_range hxs ?_, hall⟩
    rintro index declared x hindex ⟨declared', hdeclared', himplements⟩
    obtain rfl := Option.some_inj.1 (hindex.symm.trans hdeclared')
    exact himplements

theorem endAlike_draft [Compressor] (hf : ctx.file file = .ok f) (position : Nat) :
    EndAlike (Counterparts c ctx f position) ((c.inMode .server).draft ctx f file position).result
      ((c.inMode .api).draft ctx f file position).result := by
  rw [draft, draft, Traced.result_bind, Traced.result_bind]
  refine (endAlike_served hf position).bind fun g g' h ↦ ?_
  rw [Traced.result_bind, Traced.result_bind]
  cases descriptorVar f position with
  | error failure => exact .error _ _
  | ok d =>
    obtain ⟨xs, hxs, hall⟩ := h
    exact .ok ⟨xs, hxs, hall.addVar d⟩

/-- A file that is drafted is laid out, unless it clashes with the layout. -/
theorem exists_producesAt_of_draft [Compressor] {position : Nat} (hroot : Clean c.framework.toList)
    (hv : c.validate = .ok ()) (hclean : ∀ f ∈ ctx.files, Clean f.goPackage.toList)
    (hnames : SingleNames ctx) (hfile : file ∈ ctx.toGenerate) (hf : ctx.file file = .ok f)
    (hs : f.services ≠ []) (hc : ¬CaseImport ctx f)
    (hg : (c.draft ctx f file position).result = .ok g) :
    ∃ text body, g.finish.result = .ok text ∧
      ProducesAt c ctx position ⟨c.outputName f g.fileName, text⟩ f g body := by
  obtain ⟨text, htext⟩ := (serving_of_draft hv hf hg).exists_finish hroot hclean hnames hc
  obtain ⟨body, hbody, hlayOut⟩ := eq_ok_of_finish htext
  exact ⟨text, body, htext, ⟨⟨file, hfile, position, hf, hg⟩, hs, hbody, hlayOut⟩,
    ⟨file, hf, hg⟩, rfl⟩

/-- Two outputs for one schema file, the first without clients and the second with them. -/
structure Twins [Compressor] (c : Config) (ctx : Context) (position : Nat)
    (out out' : GeneratedFile) (f : File) (g g' : GoFile) (body body' : String) : Prop where
  name : out.name = out'.name
  produces : ProducesAt (c.inMode .server) ctx position out f g body
  produces' : ProducesAt (c.inMode .api) ctx position out' f g' body'
  sections : ∃ xs first ts, List.Forall₂
      (Stubs.Implements (c.inMode .api) ctx ⟨descriptorName position, version⟩) f.services xs ∧
    Stubs.Clientless xs g g' ∧ xs.mapM Stubs.texts = .ok ts ∧
    g'.sections = .ok (Stubs.Texts.sections first ts) ∧
    g.sections = .ok (Stubs.Texts.sections first (ts.map Stubs.Texts.clientless))
  imports : ∀ i ∈ resolveImports body g.declaredImports, i ∈ resolveImports body' g'.declaredImports

def Paired [Compressor] (c : Config) (ctx : Context) (out out' : GeneratedFile) : Prop :=
  ∃ position f g g' body body', Twins c ctx position out out' f g g' body body'

theorem Counterparts.twins [Compressor] {position : Nat} (hv : c.validate = .ok ())
    {out out' : GeneratedFile} {body body' : String} (h : Counterparts c ctx f position g g')
    (hout : ProducesAt (c.inMode .server) ctx position out f g body)
    (hout' : ProducesAt (c.inMode .api) ctx position out' f g' body') :
    Twins c ctx position out out' f g g' body body' := by
  obtain ⟨xs, himplements, hclientless⟩ := h
  have hserving {mode : Mode} {g : GoFile} {out : GeneratedFile} {body : String}
      (h : ProducesAt (c.inMode mode) ctx position out f g body) :
      Serving c.runtime ctx f (List.range f.services.length) g := by
    obtain ⟨file, hf, hg⟩ := h.numbered
    exact serving_of_draft (validate_inMode hv mode) hf hg
  have hserver := hserving hout
  have hapi := hserving hout'
  obtain ⟨first, ts, hts, hsections', hsections⟩ := hclientless.exists_sections hapi.sound
  refine ⟨?_, hout, hout', ⟨xs, first, ts, himplements, hclientless, hts, hsections', hsections⟩,
    fun i hi ↦ ?_⟩
  · rw [hout.name, hout'.name, hclientless.eq]
    rfl
  · -- both files declare the same imports, and the second uses what the first uses
    have hdeclared {i : Import} : i ∈ g.declaredImports ↔ i ∈ g'.declaredImports := by
      rw [hserver.mem_declaredImports_iff hout.services, hapi.mem_declaredImports_iff hout.services]
    have hused := hclientless.usedQualifiers_subset hserver.sound hapi.sound hout.written
      hout'.written
    rw [mem_resolveImports_iff] at hi ⊢
    rcases hi with ⟨hi, hq⟩ | ⟨q, hq, hnone, hi⟩
    · exact .inl ⟨hdeclared.1 hi, hused _ hq⟩
    · refine .inr ⟨q, hused q hq, fun hqualifier ↦ hnone ?_, hi⟩
      obtain ⟨j, hj, hjq⟩ := hqualifier
      exact ⟨j, hdeclared.2 hj, hjq⟩

section Run

variable (hroot : Clean c.framework.toList) (hv : c.validate = .ok ())
  (hclean : ∀ f ∈ ctx.files, Clean f.goPackage.toList) (hnames : SingleNames ctx)
include hroot hv hclean hnames

theorem endAlike_generateFile [Compressor] (hfile : file ∈ ctx.toGenerate)
    (hf : ctx.file file = .ok f) (hs : f.services ≠ []) (position : Nat) :
    EndAlike (Paired c ctx) ((c.inMode .server).generateFile ctx file position).result
      ((c.inMode .api).generateFile ctx file position).result := by
  rw [result_generateFile_eq_bind hf, result_generateFile_eq_bind hf]
  refine (endAlike_draft hf position).with_eq.bind fun g g' h ↦ ?_
  obtain ⟨hcounterparts, hg, hg'⟩ := h
  by_cases hc : CaseImport ctx f
  · have hfails {mode : Mode} {g : GoFile}
        (hg : ((c.inMode mode).draft ctx f file position).result = .ok g) :
        ∃ failure, g.finish.result = .error failure := by
      obtain ⟨line, body, hfailure⟩ :=
        (serving_of_draft (validate_inMode hv mode) hf hg).finish_eq_error
        hroot hclean hnames hc
      exact ⟨_, hfailure⟩
    obtain ⟨failure, hfailure⟩ := hfails hg
    obtain ⟨failure', hfailure'⟩ := hfails hg'
    rw [hfailure, hfailure']
    exact .error _ _
  · obtain ⟨text, body, htext, hout⟩ := exists_producesAt_of_draft (c := c.inMode .server) hroot
      hv hclean hnames hfile hf hs hc hg
    obtain ⟨text', body', htext', hout'⟩ := exists_producesAt_of_draft (c := c.inMode .api) hroot
      hv hclean hnames hfile hf hs hc hg'
    rw [htext, htext']
    exact .ok ⟨position, f, g, g', body, body', hcounterparts.twins hv hout hout'⟩

theorem endAlike_addFile [Compressor] (hfile : file ∈ ctx.toGenerate)
    {made made' : List GeneratedFile} (h : List.Forall₂ (Paired c ctx) made made') :
    EndAlike (List.Forall₂ (Paired c ctx)) ((c.inMode .server).addFile ctx made file).result
      ((c.inMode .api).addFile ctx made' file).result := by
  cases hf : ctx.file file with
  | error failure =>
    have hfails (mode : Mode) (made : List GeneratedFile) :
        ((c.inMode mode).addFile ctx made file).result = .error failure := by
      rw [addFile, Traced.result_bind, hf]
      rfl
    rw [hfails, hfails]
    exact .error _ _
  | ok f =>
    by_cases hs : f.services.isEmpty = true
    · rw [result_addFile_of_isEmpty hf hs, result_addFile_of_isEmpty hf hs]
      exact .ok h
    · have hservices : f.services ≠ [] := fun hnil ↦ hs (List.isEmpty_iff.2 hnil)
      rw [result_addFile hf hs, result_addFile hf hs, h.length_eq]
      exact (endAlike_generateFile hroot hv hclean hnames hfile hf hservices _).bind
        fun out out' hout ↦ .ok (List.rel_append h (.cons hout .nil))

end Run

theorem endAlike_generate [Compressor] (hv : c.validate = .ok ()) (h : Quotable c r) :
    EndAlike (fun made made' ↦ ∃ ctx,
        (Context.resolve r.files r.filesToGenerate).result = .ok ctx ∧
          List.Forall₂ (Paired c ctx) made made')
      ((c.inMode .server).generate r).result ((c.inMode .api).generate r).result := by
  rw [result_generate (validate_inMode hv .server), result_generate (validate_inMode hv .api)]
  cases hctx : (Context.resolve r.files r.filesToGenerate).result with
  | error failure => exact .error _ _
  | ok ctx =>
    obtain ⟨hfiles, -⟩ := Context.eq_of_resolve hctx
    change EndAlike _ (ctx.toGenerate.foldlM ((c.inMode .server).addFile ctx) []).result
      (ctx.toGenerate.foldlM ((c.inMode .api).addFile ctx) []).result
    rw [Traced.result_foldlM, Traced.result_foldlM]
    refine (endAlike_foldlM (fun file hfile made made' hmade ↦ ?_) .nil).mono
      fun made made' hmade ↦ ⟨ctx, rfl, hmade⟩
    exact endAlike_addFile h.framework hv (hfiles ▸ h.goPackage) (h.singleNames hfiles)
      hfile hmade

/-- Without clients a run succeeds exactly if it succeeds with them, and the outputs are the same,
save for the texts of the clients and the imports that only these use. -/
theorem generate_clientless [Compressor] (hv : c.validate = .ok ()) (h : Quotable c r) :
    ((∃ made, ((c.inMode .server).generate r).result = .ok made) ↔
      ∃ made', ((c.inMode .api).generate r).result = .ok made') ∧
    ∀ made made', ((c.inMode .server).generate r).result = .ok made →
      ((c.inMode .api).generate r).result = .ok made' →
      ∃ ctx, (Context.resolve r.files r.filesToGenerate).result = .ok ctx ∧
        List.Forall₂ (Paired c ctx) made made' :=
  ⟨(endAlike_generate hv h).exists_iff, fun _ _ ↦ (endAlike_generate hv h).of_eq_ok⟩

theorem generate_clientless_pairRequest :
    ∃ out out', ((pairConfig.inMode .server).generate pairRequest).result = .ok [out] ∧
      ((pairConfig.inMode .api).generate pairRequest).result = .ok [out'] ∧
      Paired pairConfig pairContext out out' := by
  obtain ⟨out', hout'⟩ := exists_generate_pairRequest
  obtain ⟨hends, hpaired⟩ :=
    generate_clientless (c := pairConfig) (r := pairRequest) rfl (by decide)
  obtain ⟨made, hmade⟩ := hends.2 ⟨_, hout'⟩
  obtain ⟨ctx, hctx, hall⟩ := hpaired made [out'] hmade hout'
  obtain rfl := Except.ok.inj (resolve_pairRequest.symm.trans hctx)
  obtain ⟨out, made, hout, hnil, rfl⟩ := List.forall₂_cons_right_iff.1 hall
  obtain rfl := List.forall₂_nil_right_iff.1 hnil
  exact ⟨out, out', hmade, hout', hout⟩

end Config

end Stub

end RpcStubs
