import RpcStubs.Proofs.Stub.Stubs

namespace RpcStubs

namespace Schema.Context

theorem forall₂_of_positions {files : List File} {names : List String} {positions : List Nat}
    (h : Context.positions files names = .ok positions) :
    List.Forall₂ (fun name (i : Nat) ↦ ∃ f, files.find? (·.name == name) = some f ∧
      files[i]? = some f) names positions := by
  induction names generalizing positions with
  | nil =>
    cases h
    exact .nil
  | cons name names ih =>
    rw [Context.positions] at h
    split at h
    · next i hi =>
      obtain ⟨rest, hrest, h⟩ := bind_eq_ok h
      cases h
      obtain ⟨hlt, hname, hbefore⟩ := List.findIdx?_eq_some_iff_getElem.1 hi
      refine .cons ⟨files[i], ?_, List.getElem?_eq_getElem hlt⟩ (ih hrest)
      exact List.find?_eq_some_iff_getElem.2 ⟨hname, i, hlt, rfl, fun j hj ↦ by
        simpa using hbefore j hj⟩
    · cases h

theorem eq_of_resolve {files : List File} {names : List String} {ctx : Context}
    (h : (resolve files names).result = .ok ctx) :
    ctx.files = files ∧ positions files names = .ok ctx.toGenerate := by
  rw [resolve, Traced.result_bind] at h
  obtain ⟨ctx', hquiet, h⟩ := bind_eq_ok h
  cases h
  obtain ⟨toGenerate, hpositions, hquiet⟩ := bind_eq_ok hquiet
  obtain ⟨package, -, hquiet⟩ := bind_eq_ok hquiet
  cases hquiet
  exact ⟨rfl, hpositions⟩

end Schema.Context

namespace Stub

open Schema (Context File)

namespace Request

def file? (r : Request) (name : String) : Option File := r.files.find? (·.name == name)

/-- The files to generate that have services, in the order asked for. -/
def served (r : Request) : List File :=
  r.filesToGenerate.filterMap fun name ↦ (r.file? name).filter fun f ↦ !f.services.isEmpty

end Request

namespace Config

variable {c : Config} {ctx : Context} {r : Request} {f : File} {g : GoFile}
  {made made' : List GeneratedFile}

/-- The outputs are numbered from the length of what was made before them. -/
theorem exists_outputs_of_foldlM [Compressor] (hfiles : ctx.files = r.files) {names : List String}
    {positions : List Nat} (hpositions : List.Forall₂ (fun name (i : Nat) ↦ ∃ f,
      r.file? name = some f ∧ r.files[i]? = some f) names positions)
    (hmem : ∀ i ∈ positions, i ∈ ctx.toGenerate)
    (h : (positions.foldlM (c.addFile ctx) made).result = .ok made') :
    ∃ outs, made' = made ++ outs ∧ List.Forall₂
      (fun (entry : File × Nat) out ↦ ∃ g body, ProducesAt c ctx entry.2 out entry.1 g body)
      ((names.filterMap fun name ↦
        (r.file? name).filter fun f ↦ !f.services.isEmpty).zipIdx made.length) outs := by
  induction hpositions generalizing made with
  | nil =>
    cases h
    exact ⟨[], by simp, .nil⟩
  | @cons name i names positions hname _ ih =>
    rw [List.foldlM_cons, Traced.result_bind] at h
    obtain ⟨next, hnext, h⟩ := bind_eq_ok h
    obtain ⟨f, hfile?, hposition⟩ := hname
    obtain ⟨f', hf, hadded⟩ := addFile_eq_ok (hmem i List.mem_cons_self) hnext
    obtain rfl : f = f' := by
      rw [Context.file, hfiles, hposition] at hf
      exact Except.ok.inj hf
    have ih := ih (fun j hj ↦ hmem j (List.mem_cons_of_mem i hj)) h
    rw [List.filterMap_cons, hfile?, Option.filter_some]
    rcases hadded with ⟨hnone, rfl⟩ | ⟨out, g, body, rfl, hout⟩
    · rw [hnone]
      exact ih
    · obtain ⟨outs, rfl, houts⟩ := ih
      rw [List.length_append, List.length_singleton] at houts
      have hsome : (!f.services.isEmpty) = true := by
        simpa using hout.services
      rw [if_pos hsome]
      exact ⟨out :: outs, by simp, .cons ⟨g, body, hout⟩ houts⟩

/-- The outputs of a run are those of the files with services, one for one. -/
theorem exists_outputs_of_generate [Compressor] (h : (c.generate r).result = .ok made) :
    ∃ ctx, (Context.resolve r.files r.filesToGenerate).result = .ok ctx ∧ List.Forall₂
      (fun (entry : File × Nat) out ↦ ∃ g body, ProducesAt c ctx entry.2 out entry.1 g body)
      r.served.zipIdx made := by
  rw [result_generate (validate_of_generate h)] at h
  obtain ⟨ctx, hctx, hfold⟩ := bind_eq_ok h
  obtain ⟨hfiles, hpositions⟩ := Context.eq_of_resolve hctx
  obtain ⟨outs, rfl, houts⟩ := exists_outputs_of_foldlM hfiles
    (Context.forall₂_of_positions hpositions) (fun _ hi ↦ hi) hfold
  exact ⟨ctx, hctx, houts⟩

/-- The variables of a draft are that of its descriptor, and it is named after its schema file. -/
theorem vars_of_draft [Compressor] {file position : Nat} (hf : ctx.file file = .ok f)
    (h : (c.draft ctx f file position).result = .ok g) :
    g.fileName = Name.goFile f.name ∧ ∃ v, descriptorVar f position = .ok v ∧ g.vars = [v] := by
  obtain ⟨framed, g₁, v, hframed, hserved, hv, rfl⟩ := draft_eq_ok h
  obtain ⟨start, header, hstart, -, rfl⟩ := framed_eq_ok hframed
  have hparts : (g₁.fileName, g₁.vars) = (start.fileName, start.vars) := by
    rw [unchanged_of_foldlM (fun g ↦ (g.fileName, g.vars)) (fun _ _ ↦ rfl) hf hserved,
      unchanged_addImports (fun g : GoFile ↦ (g.fileName, g.vars)) fun _ _ ↦ rfl]
    rfl
  obtain ⟨i, rfl⟩ := GoFile.eq_of_new hstart
  obtain ⟨hname, hvars⟩ := Prod.mk.inj hparts
  refine ⟨hname, v, hv, ?_⟩
  change g₁.vars ++ [v] = [v]
  rw [hvars]
  rfl

theorem isWordChar_of_isDigit {d : Char} (h : d.isDigit = true) : Name.isWordChar d = true := by
  have hall : ∀ n : Fin 128, (Char.ofNat n).isDigit = true →
      Name.isWordChar (Char.ofNat n) = true := by decide +kernel
  have hlt : d.toNat < 128 := by
    simp only [Char.isDigit, Bool.and_eq_true, decide_eq_true_eq, ge_iff_le,
      UInt32.le_iff_toNat_le] at h
    have hle : d.toNat ≤ 57 := h.2
    omega
  simpa using hall ⟨d.toNat, hlt⟩ (by simpa using h)

theorem legal_descriptorName (position : Nat) :
    identifierFault? (descriptorName position) = none := by
  refine legal_append (by decide) (fun d hd ↦ ?_) (by decide)
  rw [Nat.repr, String.toList_ofList] at hd
  exact isWordChar_of_isDigit (Nat.isDigit_of_mem_toDigits (by decide) (by decide) hd)

/-- The file at a position can be drafted, and the draft can be laid out, if it has services. -/
def Ready [Compressor] (c : Config) (ctx : Context) (i : Nat) : Prop :=
  ∃ f, ctx.file i = .ok f ∧ (f.services ≠ [] → ¬CaseImport ctx f ∧
    ∀ position, ∃ g, (c.draft ctx f i position).result = .ok g)

theorem ready_of_named [Compressor] {i : Nat} (hf : ctx.file i = .ok f) (hcase : ¬CaseImport ctx f)
    (hfile : (GoFile.new ctx.package f.name).isOk = true)
    (hheader : ∀ first, (fileHeader ctx i first).isOk = true)
    (hservices : ∀ index < f.services.length, ∃ s,
      Service.resolve ctx i index c.pathPrefix = .ok s ∧ s.Named) : c.Ready ctx i := by
  refine ⟨f, hf, fun _ ↦ ⟨hcase, fun position ↦ ?_⟩⟩
  have hname := legal_descriptorName position
  obtain ⟨g, hg⟩ : ∃ g, (c.served ctx f i position).result = .ok g := by
    refine exists_served hfile (hheader _) fun index hindex g ↦ ?_
    obtain ⟨s, hs, hnamed⟩ := hservices index (List.mem_range.1 hindex)
    refine isOk_addService hs hnamed ?_ g
    exact hname
  exact exists_draft hg hname

/-- A run succeeds if all files that it comes to are ready. -/
theorem exists_generate_of_ready [Compressor] (h : Quotable c r) (hv : c.validate = .ok ())
    (hctx : (Context.resolve r.files r.filesToGenerate).result = .ok ctx)
    (hready : ∀ i ∈ ctx.toGenerate, c.Ready ctx i) :
    ∃ made, (c.generate r).result = .ok made := by
  obtain ⟨hfiles, -⟩ := Context.eq_of_resolve hctx
  rw [result_generate hv, hctx]
  refine exists_of_isOk (Traced.isOk_foldlM (fun i hi made ↦ ?_) [])
  obtain ⟨f, hf, hdraft⟩ := hready i hi
  by_cases hs : f.services.isEmpty = true
  · rw [result_addFile_of_isEmpty hf hs]
    rfl
  · obtain ⟨hcase, hposition⟩ := hdraft fun hnil ↦ hs (List.isEmpty_iff.2 hnil)
    obtain ⟨g, hg⟩ := hposition made.length
    obtain ⟨text, htext⟩ := (serving_of_draft hv hf hg).exists_finish h.framework
      (hfiles ▸ h.goPackage) (h.singleNames hfiles) hcase
    rw [result_addFile hf hs, result_generateFile hf hg, htext]
    rfl

theorem not_caseImport_of_methods (h : ∀ s ∈ f.services, s.methods = []) : ¬CaseImport ctx f := by
  rintro ⟨s, hs, m, hm, -⟩
  rw [h s hs] at hm
  cases hm

def plainFile (name : String) (services : List String) : File :=
  .ofDescriptor ([(1, .text name), (2, .text "r")] ++
    services.map fun s ↦ (6, .message [(1, .text s)]))

theorem services_plainFile (name : String) (services : List String) :
    (plainFile name services).services = services.map fun s ↦ ⟨s, []⟩ := by
  have hfields : Proto.Fields.messages ([(1, .text name), (2, .text "r")] ++
      services.map fun s ↦ (6, .message [(1, .text s)])) 6 =
        services.map fun s ↦ [(1, Proto.Value.text s)] := by
    simp [Proto.Fields.messages, Proto.Fields.getAll, List.filterMap_map]
  simp only [plainFile, File.ofDescriptor, hfields, List.map_map]
  rfl

def plainRequest (files : List File) : Request where
  files := files
  filesToGenerate := files.map (·.name)

end Config

def plainService (name : String) (index : Nat) : Service where
  name := name
  schemaPackage := "r"
  index := index
  root := Wire.defaultPrefix
  comment := none
  endpoints := []

theorem named_plainService (index : Nat) :
    ∀ name ∈ ["S", "T", "U"], (plainService name index).Named := by
  have hlegal : ∀ name ∈ ["S", "T", "U"], identifierFault? name = none ∧
      identifierFault? (Name.exported name) = none ∧
      identifierFault? (Name.unexported name ++ "Server") = none ∧
      ∀ ct ∈ Wire.ContentType.all,
        identifierFault? (Name.unexported name ++ ct.clientSuffix ++ "Client") = none := by
    decide
  intro name hname
  obtain ⟨h, hexported, hserver, hclient⟩ := hlegal name hname
  refine ⟨h, hexported, hserver, fun ct ↦ ?_, List.forall_mem_nil _⟩
  have hct : ct ∈ Wire.ContentType.all := by cases ct <;> decide
  exact hclient ct hct

namespace Config

variable {ctx : Context}

theorem ready_plainFile [Compressor] {i : Nat} {name : String} {services : List String}
    (hf : ctx.file i = .ok (plainFile name services)) (hpackage : ctx.package = "r")
    (hname : GoFile.isUsableFileName name = true)
    (hheader : ∀ first, (fileHeader ctx i first).isOk = true)
    (hservices : ∀ entry ∈ services.zipIdx, entry.1 ∈ ["S", "T", "U"] ∧
      Service.resolve ctx i entry.2 Wire.defaultPrefix = .ok (plainService entry.1 entry.2)) :
    bareConfig.Ready ctx i := by
  refine ready_of_named hf (not_caseImport_of_methods fun s hs ↦ ?_) ?_ hheader fun index h ↦ ?_
  · rw [services_plainFile, List.mem_map] at hs
    obtain ⟨_, -, rfl⟩ := hs
    rfl
  · rw [hpackage, GoFile.new, show (plainFile name services).name = name from rfl, hname]
    rfl
  · rw [services_plainFile, List.length_map] at h
    obtain ⟨hs, hresolve⟩ :=
      hservices (services[index], index) (List.mem_zipIdx_iff_getElem?.2 (by simp [h]))
    exact ⟨_, hresolve, named_plainService index _ hs⟩

def plainContext (files : List File) : Context where
  files := files
  toGenerate := List.range files.length
  package := "r"
  registry := .ofFiles files

theorem exists_generate_plainRequest [Compressor] {files : List File}
    (h : Quotable bareConfig (plainRequest files))
    (hctx : (Context.resolve files (files.map (·.name))).result = .ok (plainContext files))
    (hready : ∀ i ∈ List.range files.length, bareConfig.Ready (plainContext files) i) :
    ∃ made, (bareConfig.generate (plainRequest files)).result = .ok made :=
  exists_generate_of_ready h rfl hctx hready

def mixedFiles : List File :=
  [plainFile "FooBar.proto" ["S", "T"], plainFile "types.proto" [], plainFile "foo_bar.proto" ["U"]]

theorem resolve_mixedFiles :
    (Context.resolve mixedFiles (mixedFiles.map (·.name))).result = .ok (plainContext mixedFiles) :=
  rfl

theorem exists_generate_mixedFiles [Compressor] :
    ∃ made, (bareConfig.generate (plainRequest mixedFiles)).result = .ok made := by
  have hquotable : Quotable bareConfig (plainRequest mixedFiles) := by decide
  refine exists_generate_plainRequest hquotable resolve_mixedFiles fun i (hi : i ∈ [0, 1, 2]) ↦ ?_
  simp only [List.mem_cons, List.not_mem_nil, or_false] at hi
  rcases hi with rfl | rfl | rfl
  all_goals refine ready_plainFile rfl rfl (by decide) (by decide +kernel) ?_
  · exact List.forall_mem_cons.2 ⟨⟨by decide, rfl⟩, List.forall_mem_singleton.2 ⟨by decide, rfl⟩⟩
  · exact List.forall_mem_nil _
  · exact List.forall_mem_singleton.2 ⟨by decide, rfl⟩

end Config

end Stub

end RpcStubs
