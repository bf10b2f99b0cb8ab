import RpcStubs.Proofs.Schema.FullNames
import RpcStubs.Proofs.Stub.Generation

namespace RpcStubs

/-- The second computation ends as the first one does, with a related result. Unless `strict`,
nothing is said about it where the first one fails. -/
inductive Tracks {α β : Type} (strict : Prop) (R : α → β → Prop) : Build α → Build β → Prop
  | ok {a : α} {b : β} : R a b → Tracks strict R (.ok a) (.ok b)
  | error (failure : Failure) : Tracks strict R (.error failure) (.error failure)
  | lax {failure : Failure} {y : Build β} : ¬strict → Tracks strict R (.error failure) y

section Rules

variable {α β γ δ : Type} {strict : Prop} {R : α → β → Prop} {S : γ → δ → Prop}

theorem tracks_of_eq {x y : Build α} (h : x = y) : Tracks strict Eq x y := by
  subst h
  cases x with
  | ok a => exact .ok rfl
  | error failure => exact .error failure

theorem Tracks.eq {x y : Build α} (h : Tracks strict Eq x y) (hs : strict) : x = y := by
  cases h with
  | ok h => rw [h]
  | error failure => rfl
  | lax h => exact absurd hs h

theorem Tracks.eq_ok {a : α} {y : Build α} (h : Tracks strict Eq (.ok a) y) : y = .ok a := by
  cases h with
  | ok h => rw [h]

theorem Tracks.bind {x : Build α} {y : Build β} {f : α → Build γ} {g : β → Build δ}
    (h : Tracks strict R x y) (hf : ∀ a b, R a b → Tracks strict S (f a) (g b)) :
    Tracks strict S (x >>= f) (y >>= g) := by
  cases h with
  | ok h => exact hf _ _ h
  | error failure => exact .error failure
  | lax h => exact .lax h

theorem tracks_result_bind {x : Traced α} {y : Traced β} {f : α → Traced γ} {g : β → Traced δ}
    (h : Tracks strict R x.result y.result)
    (hf : ∀ a b, R a b → Tracks strict S (f a).result (g b).result) :
    Tracks strict S (x >>= f).result (y >>= g).result := by
  rw [Traced.result_bind, Traced.result_bind]
  exact h.bind hf

theorem tracks_mapM {f : α → Build γ} {g : α → Build δ} {l : List α}
    (h : ∀ a ∈ l, Tracks strict S (f a) (g a)) :
    Tracks strict (List.Forall₂ S) (l.mapM f) (l.mapM g) := by
  induction l with
  | nil => exact .ok .nil
  | cons a l ih =>
    rw [List.mapM_cons, List.mapM_cons]
    refine (h a List.mem_cons_self).bind fun c d hcd ↦ ?_
    exact (ih fun b hb ↦ h b (List.mem_cons_of_mem a hb)).bind fun cs ds hcds ↦ .ok (.cons hcd hcds)

theorem tracks_foldlM {f : γ → α → Build γ} {g : δ → β → Build δ} {l : List α} {l' : List β}
    (hl : List.Forall₂ R l l')
    (h : ∀ c d a b, S c d → R a b → Tracks strict S (f c a) (g d b)) {c : γ} {d : δ}
    (hcd : S c d) : Tracks strict S (l.foldlM f c) (l'.foldlM g d) := by
  induction hl generalizing c d with
  | nil => exact .ok hcd
  | cons hab _ ih =>
    rw [List.foldlM_cons, List.foldlM_cons]
    exact (h c d _ _ hcd hab).bind fun _ _ ↦ ih

theorem tracks_result_foldlM {f : γ → α → Traced γ} {g : δ → β → Traced δ} {l : List α}
    {l' : List β} (hl : List.Forall₂ R l l')
    (h : ∀ c d a b, S c d → R a b → Tracks strict S (f c a).result (g d b).result) {c : γ} {d : δ}
    (hcd : S c d) : Tracks strict S (l.foldlM f c).result (l'.foldlM g d).result := by
  rw [Traced.result_foldlM, Traced.result_foldlM]
  exact tracks_foldlM hl h hcd

end Rules

namespace Schema

variable {strict : Prop} {files files' : List File}

/-- The second list has every file of the first, and no other if `strict`. -/
structure Listed (strict : Prop) (files files' : List File) : Prop where
  distinct : Distinct files
  distinct' : Distinct files'
  subset : files ⊆ files'
  superset : strict → files' ⊆ files

def SameFile (files files' : List File) (i i' : Nat) : Prop :=
  ∃ f, files[i]? = some f ∧ files'[i']? = some f

theorem Distinct.of_perm {further : List File} (h : Distinct files')
    (hp : files'.Perm (further ++ files)) : Distinct files := by
  have hnames := (hp.map (·.name)).nodup_iff.1 h.names
  have hmessages := (hp.flatMap_right File.messageNames).nodup_iff.1 h.messages
  rw [List.map_append] at hnames
  rw [List.flatMap_append] at hmessages
  exact ⟨hnames.of_append_right, hmessages.of_append_right⟩

theorem listed_of_perm {further : List File} (h : Distinct files')
    (hp : files'.Perm (further ++ files)) : Listed (further = []) files files' where
  distinct := h.of_perm hp
  distinct' := h
  subset _ hf := hp.mem_iff.2 (List.mem_append_right _ hf)
  superset hnone _ hf := by
    have hmem := hp.mem_iff.1 hf
    rwa [hnone, List.nil_append] at hmem

theorem Distinct.position_unique (h : Distinct files) {i j : Nat} {f : File}
    (hi : files[i]? = some f) (hj : files[j]? = some f) : i = j :=
  (List.getElem?_inj (List.getElem?_eq_some_iff.1 hi).1 (h.names.of_map _)).1 (hi.trans hj.symm)

theorem Distinct.eq_of_name_eq (h : Distinct files) {f g : File} (hf : f ∈ files) (hg : g ∈ files)
    (hn : f.name = g.name) : f = g := List.inj_on_of_nodup_map h.names hf hg hn

theorem exists_sameFile (h : files ⊆ files') {i : Nat} {f : File} (hf : files[i]? = some f) :
    ∃ i' : Nat, files'[i']? = some f := List.mem_iff_getElem?.1 (h (List.mem_of_getElem? hf))

theorem Listed.biUnique (h : Listed strict files files') :
    Relator.BiUnique (SameFile files files') := by
  constructor
  · rintro i i' j ⟨f, hi, hi'⟩ ⟨g, hj, hj'⟩
    obtain rfl := Option.some_inj.1 (hi'.symm.trans hj')
    exact h.distinct.position_unique hi hj
  · rintro i i' j' ⟨f, hi, hi'⟩ ⟨g, hj, hj'⟩
    obtain rfl := Option.some_inj.1 (hi.symm.trans hj)
    exact h.distinct'.position_unique hi' hj'

def SameDefinition (files files' : List File) (d d' : Definition) : Prop :=
  d.goName = d'.goName ∧ SameFile files files' d.fileIndex d'.fileIndex

theorem exists_message (h : Distinct files) (h' : Distinct files') (hsub : files ⊆ files')
    {name : String} {d : Definition} (hd : (Registry.ofFiles files).message name = .ok d) :
    ∃ d', (Registry.ofFiles files').message name = .ok d' ∧ SameDefinition files files' d d' := by
  obtain ⟨f, hf, hmem⟩ := (Registry.message_ofFiles_eq_ok_iff h).1 hd
  obtain ⟨i, hi⟩ := exists_sameFile hsub hf
  exact ⟨d.movedTo i, (Registry.message_ofFiles_eq_ok_iff h').2
    ⟨f, hi, File.movedTo_mem_definitions hmem i⟩, rfl, f, hf, hi⟩

theorem Listed.tracks_message (h : Listed strict files files') (name : String) :
    Tracks strict (SameDefinition files files') ((Registry.ofFiles files).message name)
      ((Registry.ofFiles files').message name) := by
  cases hd : (Registry.ofFiles files).message name with
  | ok d =>
    obtain ⟨d', hd', hsame⟩ := exists_message h.distinct h.distinct' h.subset hd
    rw [hd']
    exact .ok hsame
  | error failure =>
    by_cases hs : strict
    · cases hd' : (Registry.ofFiles files').message name with
      | ok d' =>
        -- what only the second list had would be in the first one too
        obtain ⟨d, hd₁, -⟩ := exists_message h.distinct' h.distinct (h.superset hs) hd'
        cases hd.symm.trans hd₁
      | error failure' =>
        rw [Registry.message_eq_error hd, Registry.message_eq_error hd']
        exact .error _
    · exact .lax hs

theorem comment_eq {i i' : Nat} (hi : SameFile files files' i i') (path : Path) :
    (Registry.ofFiles files).comment i path = (Registry.ofFiles files').comment i' path := by
  obtain ⟨f, hf, hf'⟩ := hi
  simp [Registry.comment, Registry.ofFiles, List.getD_eq_getElem?_getD, hf, hf']

theorem positions_eq_error {name : String} (names : List String)
    (h : ∀ f ∈ files, f.name ≠ name) :
    Context.positions files (name :: names) = .error (.unknownFile name) := by
  have hnone : files.findIdx? (·.name == name) = none := by
    rw [List.findIdx?_eq_none_iff]
    exact fun f hf ↦ by simpa using h f hf
  rw [Context.positions, hnone]

theorem positions_cons {i : Nat} {f : File} (h : Distinct files) (hf : files[i]? = some f)
    (names : List String) :
    Context.positions files (f.name :: names) =
      (do return i :: (← Context.positions files names)) := by
  have hsome : files.findIdx? (·.name == f.name) = some i := by
    obtain ⟨hi, rfl⟩ := List.getElem?_eq_some_iff.1 hf
    rw [List.findIdx?_eq_some_iff_getElem]
    refine ⟨hi, by simp, fun j hj hname ↦ ?_⟩
    have hjlt := hj.trans hi
    have hsame :=
      h.eq_of_name_eq (List.getElem_mem hjlt) (List.getElem_mem hi) (by simpa using hname)
    exact hj.ne (h.position_unique (List.getElem?_eq_getElem hjlt)
      (hsame ▸ List.getElem?_eq_getElem hi))
  rw [Context.positions, hsome]

theorem Listed.tracks_positions (h : Listed strict files files') (names : List String) :
    Tracks strict (List.Forall₂ (SameFile files files')) (Context.positions files names)
      (Context.positions files' names) := by
  induction names with
  | nil => exact .ok .nil
  | cons name names ih =>
    by_cases hname : ∃ f ∈ files, f.name = name
    · obtain ⟨f, hf, rfl⟩ := hname
      obtain ⟨i, hi⟩ := List.mem_iff_getElem?.1 hf
      obtain ⟨i', hi'⟩ := exists_sameFile h.subset hi
      rw [positions_cons h.distinct hi, positions_cons h.distinct' hi']
      exact ih.bind fun is is' his ↦ .ok (.cons ⟨f, hi, hi'⟩ his)
    · simp only [not_exists, not_and] at hname
      rw [positions_eq_error names hname]
      by_cases hs : strict
      · rw [positions_eq_error names fun f hf ↦ hname f (h.superset hs hf)]
        exact .error _
      · exact .lax hs

structure Context.Alike (strict : Prop) (ctx ctx' : Context) : Prop where
  files : Listed strict ctx.files ctx'.files
  toGenerate : List.Forall₂ (SameFile ctx.files ctx'.files) ctx.toGenerate ctx'.toGenerate
  package : ctx.package = ctx'.package
  registry : ctx.registry = .ofFiles ctx.files
  registry' : ctx'.registry = .ofFiles ctx'.files

theorem filterMap_eq {is is' : List Nat} (h : List.Forall₂ (SameFile files files') is is') :
    is.filterMap (files[·]?) = is'.filterMap (files'[·]?) := by
  induction h with
  | nil => rfl
  | cons hi _ ih =>
    obtain ⟨f, hf, hf'⟩ := hi
    rw [List.filterMap_cons_some hf, List.filterMap_cons_some hf', ih]

theorem Listed.tracks_resolve (h : Listed strict files files') (names : List String) :
    Tracks strict (Context.Alike strict) (Context.resolve files names).result
      (Context.resolve files' names).result := by
  have hquiet : Tracks strict (Context.Alike strict) (Context.resolveQuietly files names)
      (Context.resolveQuietly files' names) := by
    refine (h.tracks_positions names).bind fun is is' his ↦ ?_
    refine (tracks_of_eq (congrArg deducePackage (filterMap_eq his))).bind fun package _ hp ↦ ?_
    exact .ok ⟨h, his, hp, rfl, rfl⟩
  refine tracks_result_bind hquiet fun ctx ctx' hctx ↦ .ok hctx

namespace Context

variable {ctx ctx' : Context} {i i' : Nat}

theorem exists_file (hi : SameFile ctx.files ctx'.files i i') :
    ∃ f, ctx.file i = .ok f ∧ ctx'.file i' = .ok f := by
  obtain ⟨f, hf, hf'⟩ := hi
  exact ⟨f, by rw [file, hf], by rw [file, hf']⟩

namespace Alike

section File

variable (h : Alike strict ctx ctx') (hi : SameFile ctx.files ctx'.files i i')
include h hi

theorem comment_eq (path : Path) :
    ctx.registry.comment i path = ctx'.registry.comment i' path := by
  rw [h.registry, h.registry']
  exact Schema.comment_eq hi path

theorem mem_toGenerate_iff : i ∈ ctx.toGenerate ↔ i' ∈ ctx'.toGenerate :=
  List.rel_mem h.files.biUnique hi h.toGenerate

theorem packageOf?_eq : ctx.packageOf? i = ctx'.packageOf? i' := by
  have hmem : ctx.toGenerate.contains i = ctx'.toGenerate.contains i' := by
    rw [Bool.eq_iff_iff, List.contains_iff_mem, List.contains_iff_mem]
    exact h.mem_toGenerate_iff hi
  obtain ⟨f, hf, hf'⟩ := hi
  rw [packageOf?, packageOf?, hf, hf', hmem, h.package]

end File

theorem sources_eq (h : Alike strict ctx ctx') :
    ctx.toGenerate.mapM ctx.file = ctx'.toGenerate.mapM ctx'.file := by
  have hall : ∀ is is', List.Forall₂ (SameFile ctx.files ctx'.files) is is' →
      is.mapM ctx.file = is'.mapM ctx'.file := by
    intro is is' his
    induction his with
    | nil => rfl
    | cons hi _ ih =>
      obtain ⟨f, hf, hf'⟩ := exists_file hi
      rw [List.mapM_cons, List.mapM_cons, hf, hf', ih]
  exact hall _ _ h.toGenerate

theorem tracks_type (h : Alike strict ctx ctx') (name : String) :
    Tracks strict Eq (ctx.type name) (ctx'.type name) := by
  have hmessage := h.files.tracks_message name
  rw [← h.registry, ← h.registry'] at hmessage
  refine hmessage.bind fun d d' hd ↦ tracks_of_eq ?_
  obtain ⟨hname, hfile⟩ := hd
  have hpackage := h.packageOf?_eq hfile
  obtain ⟨f, hf, hf'⟩ := hfile
  rw [hf, hf', hpackage, h.package, hname]

end Alike

end Context

end Schema

namespace Stub

open Schema (Context File SameFile)

section Step

variable {strict : Prop} {ctx ctx' : Context} (h : ctx.Alike strict ctx') {i i' : Nat}
  (hi : SameFile ctx.files ctx'.files i i') (c : Config)
include h hi

theorem tracks_endpoint (service : Nat) (m : Schema.Method) (index : Nat) :
    Tracks strict Eq (Service.endpoint ctx i service m index)
      (Service.endpoint ctx' i' service m index) := by
  refine (h.tracks_type m.input).bind fun input _ hinput ↦ ?_
  refine (h.tracks_type m.output).bind fun output _ houtput ↦ tracks_of_eq ?_
  rw [hinput, houtput]
  simp only [Schema.Registry.methodComment, h.comment_eq hi]

theorem tracks_service (index : Nat) (root : String) :
    Tracks strict Eq (Service.resolve ctx i index root) (Service.resolve ctx' i' index root) := by
  obtain ⟨f, hf, hf'⟩ := Context.exists_file hi
  unfold Service.resolve
  rw [hf, hf']
  refine Tracks.bind (tracks_of_eq rfl) fun f _ hf ↦ ?_
  subst hf
  cases hs : f.services[index]? with
  | none => exact .error _
  | some s =>
    refine (tracks_mapM fun p _ ↦ tracks_endpoint h hi index p.1 p.2).bind fun es _ hes ↦
      tracks_of_eq ?_
    rw [List.forall₂_eq_eq_eq] at hes
    rw [hes]
    simp only [Schema.Registry.serviceComment, h.comment_eq hi]

theorem packageLines_eq : Header.packageLines ctx i = Header.packageLines ctx' i' := by
  simp only [Header.packageLines, Schema.Registry.fileComment, h.comment_eq hi, h.package,
    h.sources_eq]

theorem fileHeader_eq (first : Bool) : fileHeader ctx i first = fileHeader ctx' i' first := by
  obtain ⟨f, hf, hf'⟩ := Context.exists_file hi
  rw [fileHeader, fileHeader, hf, hf', packageLines_eq h hi]

theorem Config.tracks_addService (data : ServerMetadata) (g : GoFile) (index : Nat) :
    Tracks strict Eq (c.addService ctx i data g index).result
      (c.addService ctx' i' data g index).result := by
  refine tracks_result_bind (tracks_service h hi index c.pathPrefix) fun s _ hs ↦ ?_
  subst hs
  exact tracks_of_eq rfl

theorem Config.tracks_generateFile [Compressor] (position : Nat) :
    Tracks strict Eq (c.generateFile ctx i position).result
      (c.generateFile ctx' i' position).result := by
  obtain ⟨f, hf, hf'⟩ := Context.exists_file hi
  unfold generateFile
  simp only [hf, hf', h.package, fileHeader_eq h hi]
  refine tracks_result_bind (tracks_of_eq rfl) fun f _ hf ↦ ?_
  subst hf
  refine tracks_result_bind (tracks_of_eq rfl) fun start _ hstart ↦ ?_
  subst hstart
  refine tracks_result_bind (tracks_of_eq rfl) fun header _ hheader ↦ ?_
  subst hheader
  -- only the services are looked up across files
  refine tracks_result_bind (tracks_result_foldlM (R := Eq) (S := Eq) (List.forall₂_refl _)
    (fun g _ index _ hg hindex ↦ ?_) rfl) fun served _ hserved ↦ ?_
  · subst hg hindex
    exact tracks_addService h hi c _ g index
  · subst hserved
    exact tracks_of_eq rfl

theorem Config.tracks_addFile [Compressor] (made : List GeneratedFile) :
    Tracks strict Eq (c.addFile ctx made i).result (c.addFile ctx' made i').result := by
  obtain ⟨f, hf, hf'⟩ := Context.exists_file hi
  unfold addFile
  simp only [hf, hf']
  refine tracks_result_bind (tracks_of_eq rfl) fun f _ hf ↦ ?_
  subst hf
  split_ifs
  · exact tracks_of_eq rfl
  · refine tracks_result_bind (tracks_generateFile h hi c made.length) fun g _ hg ↦ ?_
    subst hg
    exact tracks_of_eq rfl

end Step

namespace Config

theorem tracks_generate [Compressor] (c : Config) {r r' : Request} {strict : Prop}
    (hr : r'.filesToGenerate = r.filesToGenerate)
    (hl : Schema.Listed strict r.files r'.files) :
    Tracks strict Eq (c.generate r).result (c.generate r').result := by
  unfold generate
  refine tracks_result_bind (tracks_of_eq rfl) fun _ _ _ ↦ ?_
  rw [hr]
  refine tracks_result_bind (hl.tracks_resolve r.filesToGenerate) fun ctx ctx' hctx ↦ ?_
  refine tracks_result_foldlM hctx.toGenerate (fun made _ i i' hmade hi ↦ ?_) rfl
  subst hmade
  exact tracks_addFile hctx hi c made

/-- The order in which files are listed does not matter, and what a run makes stays the same with
further files, as long as they keep all names distinct. -/
theorem result_generate_listing [Compressor] (c : Config) (r r' : Request)
    (hr : r'.filesToGenerate = r.filesToGenerate) (hd : Schema.Distinct r'.files) :
    (r'.files.Perm r.files → (c.generate r').result = (c.generate r).result) ∧
      ∀ further, r'.files.Perm (further ++ r.files) → ∀ made, (c.generate r).result = .ok made →
        (c.generate r').result = .ok made := by
  refine ⟨fun hp ↦ ?_, fun further hp made hmade ↦ ?_⟩
  · have hnone : r'.files.Perm ([] ++ r.files) := hp
    exact ((tracks_generate c hr (Schema.listed_of_perm hd hnone)).eq rfl).symm
  · have htracks := tracks_generate c hr (Schema.listed_of_perm hd hp)
    rw [hmade] at htracks
    exact htracks.eq_ok

theorem result_generate_of_finish [Compressor] {c : Config} {r : Request} {ctx : Context} {i : Nat}
    {f : File} {g : GoFile} (hv : c.validate = .ok ()) (hr : Reaches c r ctx [] i)
    (hone : ctx.toGenerate = [i]) (hf : ctx.file i = .ok f) (hs : ¬f.services.isEmpty = true)
    (hg : (c.draft ctx f i 0).result = .ok g) {text : String} (ht : g.finish.result = .ok text) :
    (c.generate r).result = .ok [⟨c.outputName f g.fileName, text⟩] := by
  have hadd : (c.addFile ctx [] i).result = .ok [⟨c.outputName f g.fileName, text⟩] := by
    rw [result_addFile hf hs, List.length_nil, result_generateFile hf hg, ht]
    rfl
  rw [result_generate hv, hr.resolved]
  change (ctx.toGenerate.foldlM (c.addFile ctx) []).result = _
  rw [hone, List.foldlM_cons, Traced.result_bind, hadd]
  rfl

/-- The only file that a run generates, with its only service. -/
structure Single (c : Config) (ctx : Context) (f : File) (s : Service) : Prop where
  toGenerate : ctx.toGenerate = [0]
  file : ctx.file 0 = .ok f
  services : f.services.length = 1
  package : (GoFile.new ctx.package f.name).isOk = true
  header : (fileHeader ctx 0 true).isOk = true
  resolved : Service.resolve ctx 0 0 c.pathPrefix = .ok s
  named : s.Named

theorem Single.services_ne_nil {c : Config} {ctx : Context} {f : File} {s : Service}
    (h : Single c ctx f s) : ¬f.services.isEmpty = true := by
  intro hempty
  have hlength := h.services
  rw [List.isEmpty_iff.1 hempty] at hlength
  cases hlength

theorem Single.exists_draft [Compressor] {c : Config} {ctx : Context} {f : File} {s : Service}
    (h : Single c ctx f s) : ∃ g, (c.draft ctx f 0 0).result = .ok g := by
  have hname : identifierFault? (descriptorName 0) = none := by decide
  obtain ⟨g, hg⟩ : ∃ g, (c.served ctx f 0 0).result = .ok g := by
    refine exists_served h.package h.header fun index hindex g ↦ ?_
    rw [h.services] at hindex
    obtain rfl := List.mem_singleton.1 hindex
    exact isOk_addService h.resolved h.named hname g
  exact Config.exists_draft hg hname

theorem exists_generate [Compressor] {c : Config} {r : Request} {ctx : Context} {f : File}
    {s : Service} (h : Quotable c r) (hv : c.validate = .ok ())
    (hctx : (Context.resolve r.files r.filesToGenerate).result = .ok ctx) (hs : Single c ctx f s)
    (hc : ¬CaseImport ctx f) : ∃ made, (c.generate r).result = .ok [made] := by
  obtain ⟨g, hg⟩ := hs.exists_draft
  have hreaches : Reaches c r ctx [] 0 := ⟨hctx, [], [], hs.toGenerate, rfl⟩
  obtain ⟨text, htext⟩ := (serving_of_draft hv hs.file hg).exists_finish h.framework
    (hreaches.files_eq ▸ h.goPackage) (h.singleNames hreaches.files_eq) hc
  exact ⟨_, result_generate_of_finish hv hreaches hs.toGenerate hs.file hs.services_ne_nil hg htext⟩

/-- A file whose methods go between its own messages and those of two other packages. -/
def callingFile : File := .ofDescriptor [
  (1, .text "c.proto"), (2, .text "r"),
  (4, .message [(1, .text "Q"), (3, .message [(1, .text "Q")])]),
  (6, .message [(1, .text "S"),
    (2, .message [(1, .text "M"), (2, .text ".r.Q"), (3, .text ".t.A")]),
    (2, .message [(1, .text "N"), (2, .text ".u.B"), (3, .text ".r.Q.Q")])])]

def calledFiles : List File := [
  .ofDescriptor [(1, .text "d.proto"), (2, .text "t"), (4, .message [(1, .text "A")]),
    (8, .message [(11, .text "example.com/t")])],
  .ofDescriptor [(1, .text "e.proto"), (2, .text "u"), (4, .message [(1, .text "B")]),
    (8, .message [(11, .text "example.com/v1;u")])]]

def callRequest (further : List File) : Request where
  files := further ++ callingFile :: calledFiles
  filesToGenerate := ["c.proto"]

def callContext : Context where
  files := callingFile :: calledFiles
  toGenerate := [0]
  package := "r"
  registry := .ofFiles (callingFile :: calledFiles)

theorem depends_callingFile_iff {i : Import} : Depends callContext callingFile i ↔
    i = .plain "example.com/t" ∨ i = .aliased "example.com/v1" "u" := by
  have htypes : (callingFile.services.flatMap messageNames).mapM callContext.type =
      .ok [.named "Q" none none, .named "A" (some "t") (some (.plain "example.com/t")),
        .named "B" (some "u") (some (.aliased "example.com/v1" "u")), .named "Q_Q" none none] := rfl
  rw [depends_iff_of_mapM htypes]
  simp [GoType.origins]

theorem not_caseImport_callingFile : ¬CaseImport callContext callingFile := by
  intro hcase
  obtain ⟨i, hi, hname⟩ := caseImport_iff.1 hcase
  rcases depends_callingFile_iff.1 hi with rfl | rfl
  all_goals exact absurd hname (by decide)

def bareConfig : Config := { mode := .server, contentTypes := [.json] }

end Config

def callingService : Service where
  name := "S"
  schemaPackage := "r"
  index := 0
  root := Wire.defaultPrefix
  comment := none
  endpoints := [
    ⟨"M", .named "Q" none none, .named "A" (some "t") (some (.plain "example.com/t")), none⟩,
    ⟨"N", .named "B" (some "u") (some (.aliased "example.com/v1" "u")), .named "Q_Q" none none,
      none⟩]

theorem named_callingService : callingService.Named where
  name := by decide
  exported := by decide
  serverName := by decide
  clientName := by rintro (_ | _) <;> decide
  endpoints := by decide

namespace Config

theorem single_callContext : Single {} callContext callingFile callingService where
  toGenerate := rfl
  file := rfl
  services := rfl
  package := by decide +kernel
  header := by decide +kernel
  resolved := rfl
  named := named_callingService

theorem resolve_callRequest :
    (Context.resolve (callRequest []).files (callRequest []).filesToGenerate).result =
      .ok callContext := rfl

theorem quotable_callRequest : Quotable {} (callRequest []) := by decide

theorem exists_generate_callRequest [Compressor] :
    ∃ made, (generate {} (callRequest [])).result = .ok [made] :=
  exists_generate quotable_callRequest rfl resolve_callRequest single_callContext
    not_caseImport_callingFile

def swappedRequest : Request where
  files := [caseFile, servingFile]
  filesToGenerate := ["a.proto"]

theorem distinct_swappedRequest : Schema.Distinct swappedRequest.files :=
  ⟨by decide, by decide +kernel⟩

theorem distinct_callRequest : Schema.Distinct (callRequest swappedRequest.files).files :=
  ⟨by decide, by decide +kernel⟩

theorem result_generate_listing_swapped :
    Schema.Distinct swappedRequest.files ∧
    Schema.Distinct (callRequest swappedRequest.files).files ∧
    (∃ failure, (generate {} caseRequest).result = .error failure ∧ failure.isFormat = true ∧
      (generate {} swappedRequest).result = .error failure) ∧
    ∃ made, (generate {} (callRequest [])).result = .ok [made] ∧
      (generate {} (callRequest swappedRequest.files)).result = .ok [made] := by
  refine ⟨distinct_swappedRequest, distinct_callRequest, ?_, ?_⟩
  · obtain ⟨failure, hf, -, hformat⟩ := quotable_caseRequest.exists_format rfl reaches_caseRequest
      clashes_caseContext
    have hswap := (result_generate_listing {} caseRequest swappedRequest rfl
      distinct_swappedRequest).1 (.swap _ _ _)
    exact ⟨failure, hf, hformat, hswap.trans hf⟩
  · obtain ⟨made, hmade⟩ := exists_generate_callRequest
    have hmore := (result_generate_listing {} (callRequest [])
      (callRequest swappedRequest.files) rfl distinct_callRequest).2 swappedRequest.files
    exact ⟨made, hmade, hmore (.refl _) [made] hmade⟩

end Config

end Stub

end RpcStubs
