import RpcStubs.Proofs.Code.Scanning
import RpcStubs.Proofs.Stub.Imports

namespace RpcStubs

namespace Stub

open Layout
open Schema (Context Definition File)

variable {ctx : Context} {f : File} {g : GoFile}

theorem Resolves.exists_type {m : Schema.Method} {e : Endpoint} (h : Resolves ctx m e)
    {name : String} (hname : name ∈ [m.input, m.output]) : ∃ t, ctx.type name = .ok t := by
  rcases List.mem_cons.1 hname with rfl | hname
  · exact ⟨_, h.input⟩
  · obtain rfl := List.mem_singleton.1 hname
    exact ⟨_, h.output⟩

namespace Config

variable {c : Config}

/-- The finished text of a file uses every package that it imports. -/
theorem Produces.mem_usedQualifiers [Compressor] {r : Request} (hq : Quotable c r)
    (hv : c.validate = .ok ()) (hfiles : ctx.files = r.files) {out : GeneratedFile} {body : String}
    (h : Produces c ctx out f g body) :
    ∀ i ∈ resolveImports body g.declaredImports, i.qualifier ∈ usedQualifiers out.content := by
  intro i hi
  obtain ⟨file, -, position, hf, hg⟩ := h.drafted
  have hserving := serving_of_draft hv hf hg
  have hheader : g.header.Lined := hserving.header (hq.singleNames hfiles)
  have himportable : ∀ j ∈ g.declaredImports, Importable j := by
    intro j hj
    exact (hserving.sound.declaredImports j hj).importable hq.framework (hfiles ▸ hq.goPackage)
  rw [usedQualifiers_eq_of_layOut hheader himportable h.content]
  exact qualifier_mem_usedQualifiers hi

end Config

end Stub

end RpcStubs
