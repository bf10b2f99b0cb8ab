import RpcStubs.Proofs.Stub.Routes
import RpcStubs.Proofs.Stub.Stubs

namespace RpcStubs

def Ascii (s : String) : Prop := ∀ c ∈ s.toList, c.toNat < 128

instance (s : String) : Decidable (Ascii s) :=
  inferInstanceAs (Decidable (∀ c ∈ s.toList, c.toNat < 128))

namespace Text

end Text

namespace Name

end Name

structure Signature where
  name : String
  params : List GoType
  results : List GoType

def InterfaceMethod.toSignature (m : InterfaceMethod) : Signature :=
  ⟨m.name.name, m.params.map Parameter.type, m.results⟩

def Method.toSignature (m : Method) : Signature :=
  ⟨m.name, m.function.params.map Parameter.type, m.function.results⟩

theorem Interface.eq_of_addMethod {i i' : Interface} {name comment : String}
    {params : List Parameter} {results : List GoType}
    (h : i.addMethod name params results comment = .ok i') :
    ∃ m : InterfaceMethod,
      m.toSignature = ⟨Name.exported name, params.map Parameter.type, results⟩ ∧
      i' = { i with methods := i.methods ++ [m] } := by
  obtain ⟨-, -, h⟩ := bind_eq_ok (eq_ok_of_inBuilder h)
  obtain ⟨n, hn, h⟩ := bind_eq_ok h
  cases h
  refine ⟨_, ?_, rfl⟩
  rw [InterfaceMethod.toSignature, name_of_ofString hn]

namespace Stub

open Schema (Context File)

def goContext : GoType := .named "Context" (some "context") (some (.plain "context"))

theorem contextType_eq : contextType = .ok goContext := rfl

def Endpoint.toSignature (e : Endpoint) : Signature :=
  ⟨e.name, [goContext, .pointer e.input], [.pointer e.output, .error]⟩

namespace Service

theorem signatures_of_addEndpoints {es : List Endpoint} {start i : Interface}
    (h : es.foldlM addEndpoint start = .ok i) :
    i.name = start.name ∧ i.methods.map InterfaceMethod.toSignature =
      start.methods.map InterfaceMethod.toSignature ++
        es.map fun e ↦ { e.toSignature with name := Name.exported e.name } := by
  induction es generalizing start with
  | nil =>
    cases h
    simp
  | cons e es ih =>
    obtain ⟨next, hnext, h⟩ := foldlM_cons_eq_ok h
    rw [addEndpoint, contextType_eq] at hnext
    obtain ⟨m, hm, rfl⟩ := Interface.eq_of_addMethod hnext
    obtain ⟨hname, hmethods⟩ := ih h
    refine ⟨hname, ?_⟩
    rw [hmethods]
    simp [hm, Endpoint.toSignature]

theorem signatures_of_interface {s : Service} {i : Interface} (h : s.interface = .ok i) :
    i.name.name = Name.exported s.name ∧ i.methods.map InterfaceMethod.toSignature =
      s.endpoints.map fun e ↦ { e.toSignature with name := Name.exported e.name } := by
  obtain ⟨start, hstart, h⟩ := bind_eq_ok h
  obtain ⟨n, hn, hstart⟩ := bind_eq_ok hstart
  cases hstart
  obtain ⟨hname, hmethods⟩ := signatures_of_addEndpoints h
  refine ⟨?_, hmethods⟩
  rw [hname]
  exact name_of_ofString (eq_ok_of_inBuilder hn)

end Service

namespace ClientStub

variable {s : Service} {f : Framework} {ct : Wire.ContentType} {client : ClientStub}

theorem toSignature_of_method {receiver : GoType} {e : Endpoint} {i : Nat} {m : Method}
    (h : method s ct receiver e i = .ok m) : m.toSignature = e.toSignature := by
  obtain ⟨body, -, h⟩ := bind_eq_ok h
  obtain ⟨context, hcontext, h⟩ := bind_eq_ok h
  obtain ⟨start, hstart, h⟩ := bind_eq_ok h
  obtain rfl := Except.ok.inj (contextType_eq.symm.trans hcontext)
  obtain ⟨i, j, -, hj, rfl⟩ := Method.eq_of_new hstart
  cases h
  simp [Method.toSignature, Endpoint.toSignature, Method.withBody, Method.withComment,
    Function.withBody, Function.withComment, Method.name, hj]

theorem results_of_newClient {structName suffix : String} {httpClient : GoType} {fn : Function}
    (h : newClient s structName suffix httpClient = .ok fn) :
    fn.results = [.named s.name none none] := by
  obtain ⟨urls, -, h⟩ := bind_eq_ok h
  obtain ⟨redirectless, -, h⟩ := bind_eq_ok h
  obtain ⟨plain, -, h⟩ := bind_eq_ok h
  obtain ⟨pointer, -, h⟩ := bind_eq_ok h
  obtain ⟨body, -, h⟩ := bind_eq_ok h
  obtain ⟨result, hresult, h⟩ := bind_eq_ok h
  obtain ⟨start, hstart, h⟩ := bind_eq_ok h
  obtain rfl := GoType.eq_of_declared hresult
  obtain ⟨i, -, rfl⟩ := Function.eq_of_new hstart
  cases h
  rfl

def summary (client : ClientStub) : String × List GoType × List Signature :=
  (client.type.name.name, client.constructor.results,
    client.type.methods.map Method.toSignature)

def summaryOf (s : Service) (ct : Wire.ContentType) : String × List GoType × List Signature :=
  (s.clientName ct, [.named s.name none none], s.endpoints.map Endpoint.toSignature)

theorem summary_of_build (h : (build s f ct).result = .ok client) :
    client.summary = summaryOf s ct := by
  rw [result_build] at h
  obtain ⟨httpClient, hname, -, hconstructor, hmethods⟩ := declarations_of_buildQuietly h
  have hall := map_eq_of_forall₂ (forall₂_of_mapM_eq_ok hmethods)
    fun p m hm ↦ (toSignature_of_method (hm : method s ct _ p.1 p.2 = .ok m)).symm
  have hfst : s.endpoints.map Endpoint.toSignature =
      s.endpoints.zipIdx.map (Endpoint.toSignature ∘ Prod.fst) := by
    rw [← List.map_map, List.zipIdx_map_fst]
  rw [summary, summaryOf, results_of_newClient hconstructor, hfst]
  exact Prod.ext hname (Prod.ext rfl hall.symm)

end ClientStub

namespace ServerStub

variable {s : Service} {f : Framework} {cts : List Wire.ContentType} {data : ServerMetadata}
  {server : ServerStub}

end ServerStub

namespace Stubs

variable {c : Config} {ctx : Context} {data : ServerMetadata} {declared : Schema.Service}
  {x : Stubs}

end Stubs

namespace Config

end Config

end Stub

end RpcStubs
