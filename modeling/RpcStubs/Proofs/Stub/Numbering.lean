import Mathlib
import RpcStubs.Proofs.Stub.Runs
import RpcStubs.Proofs.Stub.ServerNames

namespace RpcStubs.Stub

open Schema (Context File)

theorem name_of_descriptorVar [Compressor] {f : File} {position : Nat} {v : Var}
    (h : descriptorVar f position = .ok v) : v.name.name = descriptorName position := by
  obtain ⟨v', hv, h⟩ := bind_eq_ok h
  cases h
  obtain ⟨i, hi, hv⟩ := bind_eq_ok hv
  split_ifs at hv
  · cases hv
  · cases hv
    exact name_of_ofString (eq_ok_of_inBuilder hi)

theorem descriptorName_injective : Function.Injective descriptorName := by
  intro i j h
  exact Nat.repr_inj.1 ((String.append_right_inj _).1 h)

/-- The one accessor of a server returns a descriptor with the position of the service in it. -/
def ServerStub.Describes (server : ServerStub) (descriptor : String) (position : Nat) : Prop :=
  ∃ m, server.type.methods.filter (·.name == "ServiceDescriptor") = [m] ∧
    m.function.params = [] ∧ m.function.results = [.slice (.primitive .byte), .primitive .int] ∧
    m.function.body.Spells [.returnValues [descriptor, Nat.repr position]]

namespace ServerStub

variable {s : Service} {f : Framework} {cts : List Wire.ContentType} {data : ServerMetadata}
  {server : ServerStub} {receiver : GoType}

theorem spells_descriptorAccessor {m : Method}
    (h : descriptorAccessor s receiver data = .ok m) :
    m.function.params = [] ∧ m.function.results = [.slice (.primitive .byte), .primitive .int] ∧
      m.function.body.Spells [.returnValues [data.descriptorVar, Nat.repr s.index]] := by
  obtain ⟨body, hbody, h⟩ := bind_eq_ok h
  obtain ⟨start, hstart, h⟩ := bind_eq_ok h
  obtain ⟨i, j, -, -, rfl⟩ := Method.eq_of_new hstart
  cases h
  exact ⟨rfl, rfl, Block.spells_of_ofSteps hbody⟩

theorem describes_of_build (h : (build s f cts data).result = .ok server) :
    server.Describes data.descriptorVar s.index := by
  obtain ⟨-, receiver, hmethods⟩ := methods_of_build h
  obtain ⟨writer, handler, served, descriptor, version, hms, hwriter, hhandler, hserved,
    hdescriptor, hversion⟩ := methods_eq_ok hmethods
  have hname := name_of_descriptorAccessor hdescriptor
  -- no handler of an endpoint is named like the accessor
  have hnone : served.flatten.filter (·.name == "ServiceDescriptor") = [] := by
    rw [List.filter_eq_nil_iff]
    intro m hm
    have hmem := List.mem_map_of_mem (f := Method.name) hm
    rw [names_of_endpointMethods hserved] at hmem
    simpa using (ne_of_mem_handlerNames (by decide) hmem).symm
  obtain ⟨hserve, -⟩ := spells_handler hhandler
  refine ⟨descriptor, ?_, spells_descriptorAccessor hdescriptor⟩
  rw [hms, List.filter_append, List.filter_append, hnone]
  simp [hserve, name_of_errorWriter hwriter, hname, name_of_versionAccessor hversion]

end ServerStub

namespace Config

variable {c : Config} {ctx : Context} {r : Request} {f : File} {g : GoFile}
  {made : List GeneratedFile} {position : Nat}

/-- A generated file under its number: it has the descriptor of that number and no other variable,
its servers refer to this descriptor, and it documents the package if it is the first one. -/
structure Numbered [Compressor] (c : Config) (ctx : Context) (r : Request) (f : File)
    (position : Nat) (g : GoFile) : Prop where
  vars : ∃ v, descriptorVar f position = .ok v ∧ g.vars = [v] ∧
    v.name.name = descriptorName position
  accessors : ∃ xs, Stubs.DeclaredIn xs g ∧ List.Forall₂
    (fun (entry : Schema.Service × Nat) x ↦
      Stubs.Implements c ctx ⟨descriptorName position, version⟩ entry.1 x ∧
        x.server.Describes (descriptorName position) entry.2) f.services.zipIdx xs
  documented : position = 0 → ∃ comment, g.header = .ofLines (Header.banner f.name ++
    (Header.packageIntroduction ctx.package ++ Header.packageComment comment ++
      Header.sourceList r.filesToGenerate))
  undocumented : position ≠ 0 → g.header = .ofLines (Header.banner f.name)

theorem forall₂_zipIdx {α β : Type} {R : α → β → Prop} {π : β → Nat} {l : List α} {bs : List β}
    (h : List.Forall₂ R l bs) (hπ : bs.map π = List.range l.length) :
    List.Forall₂ (fun (entry : α × Nat) b ↦ R entry.1 b ∧ π b = entry.2) l.zipIdx bs := by
  obtain ⟨hlength, hall⟩ := List.forall₂_iff_get.1 h
  refine List.forall₂_iff_get.2 ⟨by simpa using hlength, fun i hi hi' ↦ ?_⟩
  rw [List.length_zipIdx] at hi
  have hindex : (bs.map π)[i]? = some i := by
    rw [hπ, List.getElem?_range hi]
  rw [List.getElem?_map, List.getElem?_eq_getElem hi'] at hindex
  have hR := hall i hi hi'
  simp only [List.get_eq_getElem, List.getElem_zipIdx, Nat.zero_add] at hR ⊢
  exact ⟨hR, Option.some_inj.1 hindex⟩

theorem accessors_of_draft [Compressor] {file : Nat} (hf : ctx.file file = .ok f)
    (h : (c.draft ctx f file position).result = .ok g) :
    ∃ xs, Stubs.DeclaredIn xs g ∧ List.Forall₂ (fun (entry : Schema.Service × Nat) x ↦
      Stubs.Implements c ctx ⟨descriptorName position, version⟩ entry.1 x ∧
        x.server.Describes (descriptorName position) entry.2) f.services.zipIdx xs := by
  obtain ⟨xs, hindices, hxs, hdeclared⟩ := exists_stubs_of_draft hf h
  refine ⟨xs, hdeclared, (forall₂_zipIdx hxs hindices).imp ?_⟩
  rintro entry x ⟨hx, hindex⟩
  have hdescribes := ServerStub.describes_of_build hx.server
  rw [hindex] at hdescribes
  exact ⟨hx, hdescribes⟩

/-- The sources of a context are the names that were asked for. -/
theorem sources_eq {positions : List Nat} {names : List String} {sources : List File}
    (h : List.Forall₂ (fun name (i : Nat) ↦ ∃ f, ctx.files.find? (·.name == name) = some f ∧
      ctx.files[i]? = some f) names positions)
    (hsources : positions.mapM ctx.file = .ok sources) : sources.map (·.name) = names := by
  induction h generalizing sources with
  | nil =>
    cases hsources
    rfl
  | cons hname _ ih =>
    obtain ⟨f, hfind, hf⟩ := hname
    rw [List.mapM_cons, Context.file, hf] at hsources
    obtain ⟨f', hf', hsources⟩ := bind_eq_ok hsources
    cases hf'
    obtain ⟨rest, hrest, hsources⟩ := bind_eq_ok hsources
    cases hsources
    have hfound := List.find?_some hfind
    rw [List.map_cons, ih hrest, beq_iff_eq.1 hfound]

theorem header_eq_of_draft [Compressor]
    (hctx : (Context.resolve r.files r.filesToGenerate).result = .ok ctx) {file : Nat}
    (hf : ctx.file file = .ok f) (h : (c.draft ctx f file position).result = .ok g) :
    ∃ comment, g.header = .ofLines (Header.banner f.name ++
      if position = 0 then Header.packageIntroduction ctx.package ++
        Header.packageComment comment ++ Header.sourceList r.filesToGenerate else []) := by
  obtain ⟨start, -, hheader⟩ := header_of_draft hf h
  rw [fileHeader, hf] at hheader
  obtain ⟨f', hf', hheader⟩ := bind_eq_ok hheader
  cases hf'
  by_cases hfirst : position = 0
  · rw [if_pos (by simpa using hfirst)] at hheader
    obtain ⟨lines, hlines, hheader⟩ := bind_eq_ok hheader
    obtain ⟨comment, -, hlines⟩ := bind_eq_ok hlines
    obtain ⟨sources, hsources, hlines⟩ := bind_eq_ok hlines
    cases hlines
    obtain ⟨hfiles, hpositions⟩ := Context.eq_of_resolve hctx
    have hnames := Context.forall₂_of_positions hpositions
    rw [← hfiles] at hnames
    refine ⟨comment, ?_⟩
    rw [if_pos hfirst, ← sources_eq hnames hsources]
    exact (Except.ok.inj hheader).symm
  · rw [if_neg (by simpa using hfirst)] at hheader
    refine ⟨none, ?_⟩
    rw [if_neg hfirst]
    exact (Except.ok.inj hheader).symm

theorem ProducesAt.numbered_of_resolve [Compressor]
    (hctx : (Context.resolve r.files r.filesToGenerate).result = .ok ctx) {out : GeneratedFile}
    {body : String} (h : ProducesAt c ctx position out f g body) :
    Numbered c ctx r f position g := by
  obtain ⟨file, hf, hg⟩ := h.numbered
  obtain ⟨-, v, hv, hvars⟩ := vars_of_draft hf hg
  obtain ⟨comment, hheader⟩ := header_eq_of_draft hctx hf hg
  refine ⟨⟨v, hv, hvars, name_of_descriptorVar hv⟩, accessors_of_draft hf hg,
    fun hfirst ↦ ⟨comment, ?_⟩, fun hlater ↦ ?_⟩
  · rw [hheader, if_pos hfirst]
  · rw [hheader, if_neg hlater, List.append_nil]

/-- The outputs of a run are those of the files with services in the order asked for, each numbered
by its place among them, and no two share a descriptor. -/
theorem generate_numbered [Compressor] (h : (c.generate r).result = .ok made) :
    ∃ ctx, (Context.resolve r.files r.filesToGenerate).result = .ok ctx ∧
      List.Forall₂ (fun (entry : File × Nat) out ↦ ∃ g body,
        ProducesAt c ctx entry.2 out entry.1 g body ∧ Numbered c ctx r entry.1 entry.2 g)
        r.served.zipIdx made ∧
      ((List.range made.length).map descriptorName).Nodup := by
  obtain ⟨ctx, hctx, houts⟩ := exists_outputs_of_generate h
  refine ⟨ctx, hctx, houts.imp ?_, List.nodup_range.map descriptorName_injective⟩
  rintro entry out ⟨g, body, hout⟩
  exact ⟨g, body, hout, hout.numbered_of_resolve hctx⟩

theorem generate_numbered_mixedFiles :
    ∃ first second g g' body body',
      (bareConfig.generate (plainRequest mixedFiles)).result = .ok [first, second] ∧
      ProducesAt bareConfig (plainContext mixedFiles) 0 first
        (plainFile "FooBar.proto" ["S", "T"]) g body ∧
      Numbered bareConfig (plainContext mixedFiles) (plainRequest mixedFiles)
        (plainFile "FooBar.proto" ["S", "T"]) 0 g ∧
      ProducesAt bareConfig (plainContext mixedFiles) 1 second
        (plainFile "foo_bar.proto" ["U"]) g' body' ∧
      Numbered bareConfig (plainContext mixedFiles) (plainRequest mixedFiles)
        (plainFile "foo_bar.proto" ["U"]) 1 g' := by
  obtain ⟨made, hmade⟩ := exists_generate_mixedFiles
  obtain ⟨ctx, hctx, houts, -⟩ := generate_numbered hmade
  obtain rfl := Except.ok.inj (resolve_mixedFiles.symm.trans hctx)
  have hserved : (plainRequest mixedFiles).served =
      [plainFile "FooBar.proto" ["S", "T"], plainFile "foo_bar.proto" ["U"]] := rfl
  rw [hserved] at houts
  obtain ⟨first, rest, ⟨g, body, hfirst, hnumbered⟩, hrest, rfl⟩ :=
    List.forall₂_cons_left_iff.1 houts
  obtain ⟨second, further, ⟨g', body', hsecond, hnumbered'⟩, hnone, rfl⟩ :=
    List.forall₂_cons_left_iff.1 hrest
  obtain rfl := List.forall₂_nil_left_iff.1 hnone
  exact ⟨first, second, g, g', body, body', hmade, hfirst, hnumbered, hsecond, hnumbered'⟩

end Config

end RpcStubs.Stub
