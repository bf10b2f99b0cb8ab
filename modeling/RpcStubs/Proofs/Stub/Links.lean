import RpcStubs.Proofs.Code.Usage
import RpcStubs.Stub.Client
import RpcStubs.Stub.Server

namespace RpcStubs.Stub

open Text Layout

variable {P : Import → Prop}

structure Linked (P : Import → Prop) (f : Framework) : Prop where
  context : P (.plain "context")
  http : P (.plain "net/http")
  runtime : ∀ p, P (f.importOf p)

variable {f : Framework}

theorem flatAll_ctx_quoted (text : String) : FlatAll ["ctx", goQuoted text] :=
  .cons (flat_ofList (by decide)) (.cons (flat_goQuoted text) flatAll_nil)

theorem Linked.type (h : Linked P f) (p : Package) (name : String) :
    Yields (f.type p name) (Usable P) := yields_imported (h.runtime p) name

theorem Linked.contextType (h : Linked P f) : Yields Stub.contextType (Usable P) :=
  yields_imported h.context "Context"

theorem Linked.responseWriter (h : Linked P f) : Yields Stub.responseWriter (Usable P) :=
  yields_imported h.http "ResponseWriter"

theorem Linked.requestPointer (h : Linked P f) : Yields Stub.requestPointer (Usable P) :=
  (yields_imported h.http "Request").bind fun _ ht ↦ yields_pure (usable_pointer ht)

theorem Linked.httpClientPointer (h : Linked P f) : Yields Stub.httpClientPointer (Usable P) :=
  (yields_imported h.http "Client").bind fun _ ht ↦ yields_pure (usable_pointer ht)

structure SoundEndpoint (P : Import → Prop) (e : Endpoint) : Prop where
  input : Usable P e.input
  output : Usable P e.output

structure SoundService (P : Import → Prop) (s : Service) : Prop where
  comment : ∀ line ∈ s.comment.getD [], '\n' ∉ line.toList
  endpoints : ∀ e ∈ s.endpoints, SoundEndpoint P e

theorem flat_of_exported {s : String} (h : isWord (Name.exported s).toList = true) :
    Flat s.toList := by
  have hmarks : ∀ c ∈ marks, toUpper c = [c] ∧ Name.isWordChar c = false := by decide
  refine flat_of_forall (P := fun c ↦ !marks.contains c) (by decide) fun c hc ↦ ?_
  rw [Bool.not_eq_true', ← Bool.not_eq_true, List.contains_iff_mem]
  intro hmark
  obtain ⟨hupper, hword⟩ := hmarks c hmark
  rw [Name.exported, Name.mapFirst] at h
  split at h
  · cases h
  · next d rest hs =>
    rw [String.toList_ofList] at h
    rw [hs] at hc
    rcases List.mem_cons.1 hc with rfl | hc
    · rw [hupper] at h
      exact not_mem_of_isWord h hword (by simp)
    · exact not_mem_of_isWord h hword (by simp [hc])

theorem yields_addMethod {i : Interface} (hi : SoundInterface P i) {name : String}
    {params : List Parameter} {results : List GoType} (hp : ∀ p ∈ params, Usable P p.type)
    (hr : ∀ t ∈ results, Usable P t) (comment : String) :
    Yields (i.addMethod name params results comment) fun i' ↦
      SoundInterface P i' ∧ i'.name = i.name ∧
        ∃ m, i'.methods = i.methods ++ [m] ∧ m.params = params ∧ m.results = results := by
  refine Yields.inBuilder ?_ _
  refine (yields_signature hp hr).bind fun _ hs ↦ (yields_ofString _).bind fun n _ ↦ ?_
  refine yields_pure ⟨⟨hi.comment, fun m hm ↦ ?_⟩, rfl, _, rfl, rfl, rfl⟩
  rcases List.mem_append.1 hm with hm | hm
  · exact hi.methods m hm
  · obtain rfl := List.mem_singleton.1 hm
    exact ⟨lined_wrapped comment, hs⟩

def Serves (e : Endpoint) (m : InterfaceMethod) : Prop :=
  m.results = [.pointer e.output, .error] ∧ ∃ p ∈ m.params, p.type = .pointer e.input

structure Interfaces (P : Import → Prop) (endpoints : List Endpoint) (i : Interface) : Prop where
  sound : SoundInterface P i
  serves : ∀ e ∈ endpoints, ∃ m ∈ i.methods, Serves e m

theorem yields_interface (hl : Linked P f) {s : Service} (hs : SoundService P s) :
    Yields s.interface fun i ↦ Interfaces P s.endpoints i ∧ Flat s.name.toList := by
  unfold Service.interface Interface.new
  refine (((yields_ofString _).inBuilder _).bind
    (S := fun i ↦ i.name.name = Name.exported s.name ∧ i.methods = [] ∧ i.comment = {})
      fun n hn ↦ yields_pure ⟨hn, rfl, rfl⟩).bind fun i hi ↦ ?_
  obtain ⟨hname, hmethods, -⟩ := hi
  have hflat : Flat s.name.toList := by
    refine flat_of_exported ?_
    rw [← hname]
    exact isWord_of_legal i.name.legal
  have hstart : Interfaces P [] (i.withComment (.ofLines (s.comment.getD []))) :=
    ⟨⟨lined_ofLines hs.comment, by simp [Interface.withComment, hmethods]⟩, by simp⟩
  refine (yields_foldlM (Interfaces P) hstart fun done e i he hi ↦ ?_).mono fun i hi ↦ ⟨hi, hflat⟩
  refine hl.contextType.bind fun context hcontext ↦ ?_
  have he' := hs.endpoints e he
  have hin : ∀ p ∈ ([⟨"ctx", context⟩, ⟨"req", .pointer e.input⟩] : List Parameter),
      Usable P p.type := by
    simp [hcontext, usable_pointer he'.input]
  have hout : ∀ t ∈ [GoType.pointer e.output, .error], Usable P t := by
    simp [usable_pointer he'.output, GoType.error, usable_primitive]
  refine (yields_addMethod hi.sound hin hout _).mono fun i' hi' ↦ ?_
  obtain ⟨hsound, -, m, hm, hparams, hresults⟩ := hi'
  refine ⟨hsound, fun e' he' ↦ ?_⟩
  rw [hm]
  rcases List.mem_append.1 he' with he' | he'
  · obtain ⟨m', hm', hserves⟩ := hi.serves e' he'
    exact ⟨m', List.mem_append_left _ hm', hserves⟩
  · obtain rfl := List.mem_singleton.1 he'
    refine ⟨m, by simp, hresults, ⟨"req", .pointer e'.input⟩, ?_, rfl⟩
    rw [hparams]
    simp

end RpcStubs.Stub
