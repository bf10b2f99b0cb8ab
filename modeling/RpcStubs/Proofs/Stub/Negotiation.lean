import RpcStubs.Proofs.Code.OutlineLayout
import RpcStubs.Proofs.Go.Program
import RpcStubs.Proofs.Stub.Conformance

namespace RpcStubs

namespace Wire.ContentType

variable {header : String} {ct : ContentType}

theorem mediaType_injective : Function.Injective mediaType := by
  intro a b h
  cases a <;> cases b <;> first | rfl | exact absurd h (by decide)

theorem negotiate_eq_some_iff : negotiate header = some ct ↔ ct.mediaType = headerMedia header := by
  rw [negotiate]
  constructor
  · intro h
    simpa using List.find?_some h
  · intro h
    have hsame : (fun d : ContentType ↦ d.mediaType == headerMedia header) = (· == ct) := by
      funext d
      rw [← h]
      simp [beq_eq_decide, mediaType_injective.eq_iff]
    rw [hsame]
    cases ct <;> rfl

end Wire.ContentType

namespace Stub

open Wire (ContentType)

theorem Config.mem_orderedContentTypes {c : Config} {ct : ContentType} :
    ct ∈ c.orderedContentTypes ↔ ct ∈ c.contentTypes := by
  have hall : ct ∈ ContentType.all := by cases ct <;> decide
  simp [orderedContentTypes, hall]

theorem Config.exists_cons_orderedContentTypes {c : Config} (h : c.contentTypes ≠ []) :
    ∃ ct rest, c.orderedContentTypes = ct :: rest := by
  obtain ⟨ct, hct⟩ := List.exists_mem_of_ne_nil _ h
  exact List.exists_cons_of_ne_nil (List.ne_nil_of_mem (mem_orderedContentTypes.2 hct))

theorem Config.find?_orderedContentTypes {c : Config} {header : String} {ct : ContentType} :
    c.orderedContentTypes.find? (·.mediaType == ContentType.headerMedia header) = some ct ↔
      ContentType.negotiate header = some ct ∧ ct ∈ c.contentTypes := by
  rw [ContentType.negotiate_eq_some_iff]
  constructor
  · intro h
    have hmedia := List.find?_some h
    exact ⟨by simpa using hmedia, mem_orderedContentTypes.1 (List.mem_of_find?_eq_some h)⟩
  · rintro ⟨hmedia, hmem⟩
    cases hfind : c.orderedContentTypes.find? (·.mediaType == ContentType.headerMedia header) with
    | none =>
      have hother := List.find?_eq_none.1 hfind ct (mem_orderedContentTypes.2 hmem)
      simp [hmedia] at hother
    | some other =>
      have hother := List.find?_some hfind
      have hsame : other.mediaType = ct.mediaType := by simpa [hmedia] using hother
      rw [ContentType.mediaType_injective hsame]

namespace ServerStub

variable {e : Endpoint} {header : String} {cts : List ContentType}

def mediaLines : List Go.Line := [
  .action (.define "header" (.call "req.Header.Get" [.name "xhttp.ContentTypeHeader"])),
  .action (.define "i" (.call "strings.Index" [.name "header", .text [';']])),
  .ifBegin (.name "i") (.number (-1)),
  .action (.assign "i" (.call "len" [.name "header"])),
  .close,
  .action (.define "modifiedHeader" (.call "strings.ToLower" [.upTo "header" "i"])),
  .action (.assign "modifiedHeader" (.call "strings.TrimSpace" [.name "modifiedHeader"]))]

def handOver (e : Endpoint) (ct : ContentType) : Go.Action :=
  .discard (.call ("s." ++ e.contentHandler)
    [.name "ctx", .name "resp", .name "req", .name (binding ct).decoder,
      .name (binding ct).encoder])

def branchLines (e : Endpoint) (ct : ContentType) (n : Nat) : List Go.Line :=
  let media := Go.Operand.text ct.mediaType.toList
  [if n = 0 then .ifBegin (.name "modifiedHeader") media
    else .elseIf (.name "modifiedHeader") media,
    .action (handOver e ct), .ret]

def refusal : List Go.Action := [
  .define "msg" (.call "fmt.Sprintf"
    [.text Wire.unexpectedContentTypeFormat.toList, .name "header"]),
  .define "terr" (.call "errors.BadRouteError"
    [.name "msg", .name "req.Method", .name "req.URL.Path"]),
  .discard (.call "s.writeError" [.name "ctx", .name "resp", .name "terr"])]

def refusalLines : List Go.Line := [.elseBegin] ++ refusal.map .action ++ [.close]

def mediaSteps : List Step := [
  .defineCall ["header"] "req.Header.Get" ["xhttp.ContentTypeHeader"],
  .defineCall ["i"] "strings.Index" ["header", "\";\""],
  .ifBegin "i" .equal "-1",
  .assignCall ["i"] "len" ["header"],
  .close,
  .defineCall ["modifiedHeader"] "strings.ToLower" ["header[:i]"],
  .assignCall ["modifiedHeader"] "strings.TrimSpace" ["modifiedHeader"]]

theorem readLines_mediaSteps :
    (mediaSteps.flatMap Step.lines).mapM Go.readLine = some mediaLines := by
  decide +kernel

def refusalSteps : List Step :=
  .elseBegin :: (badRoute Wire.unexpectedContentTypeFormat "header" ++ [.close])

theorem readLines_refusalSteps :
    (refusalSteps.flatMap Step.lines).mapM Go.readLine = some refusalLines := by
  decide +kernel

theorem readLine_handOver
    (hword : ∀ c ∈ ("s." ++ e.contentHandler).toList, Go.continuesWord c = true)
    (ct : ContentType) :
    Go.readLine (Step.callText ("s." ++ e.contentHandler)
      ["ctx", "resp", "req", (binding ct).decoder, (binding ct).encoder]) =
      some (.action (handOver e ct)) := by
  rw [Step.callText, String.append_assoc]
  refine Go.readLine_call ?_ ?_ hword ?_
  · intro h
    simpa using congrArg String.toList h
  · intro h
    simpa using congrArg String.toList h
  · cases ct <;> decide +kernel

theorem readLines_encodingBranch
    (hword : ∀ c ∈ ("s." ++ e.contentHandler).toList, Go.continuesWord c = true) (ct : ContentType)
    (n : Nat) :
    ((encodingBranch ("s." ++ e.contentHandler) ct n).flatMap Step.lines).mapM Go.readLine =
      some (branchLines e ct n) := by
  have hret : Go.readLine "return" = some .ret := by decide
  have hcall := readLine_handOver hword ct
  cases n with
  | zero =>
    have hif : Go.readLine ("if " ++ Step.conditionText "modifiedHeader" .equal
        (goQuoted ct.mediaType) ++ " \x7b") =
        some (.ifBegin (.name "modifiedHeader") (.text ct.mediaType.toList)) := by
      cases ct <;> decide +kernel
    simp [encodingBranch, Step.lines, hif, hcall, hret, branchLines]
  | succ n =>
    have hif : Go.readLine ("\x7d else if " ++ Step.conditionText "modifiedHeader" .equal
        (goQuoted ct.mediaType) ++ " \x7b") =
        some (.elseIf (.name "modifiedHeader") (.text ct.mediaType.toList)) := by
      cases ct <;> decide +kernel
    simp [encodingBranch, Step.lines, hif, hcall, hret, branchLines]

theorem continuesWord_of_checkCallee {callee : String} (h : Step.checkCallee callee = .ok ()) :
    ∀ c ∈ callee.toList, Go.continuesWord c = true := by
  have hpieces := yields_checkSelector Step.builder "function" callee
  rw [eq_ok_of_mapError h] at hpieces
  intro c hc
  rw [← Text.intercalate_pieces '.' callee.toList] at hc
  rcases mem_of_mem_intercalate hc with hdot | ⟨w, hw, hcw⟩
  · rw [List.mem_singleton.1 hdot]
    decide
  · have hword := isWord_of_legal (hpieces.of_ok w hw)
    rw [Go.continuesWord, isWordChar_of_mem hword (by simpa using hcw), Bool.true_or]

theorem body_of_dispatcher {receiver : GoType} {m : Method}
    (h : dispatcher receiver cts e = .ok m) :
    Block.ofSteps (mediaSteps ++
      cts.zipIdx.flatMap (fun (ct, n) ↦ encodingBranch ("s." ++ e.contentHandler) ct n) ++
      refusalSteps) = .ok m.function.body := by
  obtain ⟨body, hbody, h⟩ := bind_eq_ok h
  obtain ⟨params, -, h⟩ := bind_eq_ok h
  obtain ⟨start, hstart, h⟩ := bind_eq_ok h
  cases h
  rw [Method.body_withBody, ← hbody]
  simp [mediaSteps, refusalSteps]

theorem readLines_dispatcher {receiver : GoType} {m : Method} (hne : cts ≠ [])
    (h : dispatcher receiver cts e = .ok m) :
    m.function.body.lines.mapM Go.readLine = some (mediaLines ++
      cts.zipIdx.flatMap (fun (ct, n) ↦ branchLines e ct n) ++ refusalLines) := by
  have hbody := body_of_dispatcher h
  have hword : ∀ c ∈ ("s." ++ e.contentHandler).toList, Go.continuesWord c = true := by
    obtain ⟨ct, rest, rfl⟩ := List.exists_cons_of_ne_nil hne
    obtain ⟨b, hb⟩ := Block.writable_of_ofSteps hbody (.call ("s." ++ e.contentHandler)
      ["ctx", "resp", "req", (binding ct).decoder, (binding ct).encoder]) (by
        simp [encodingBranch])
    obtain ⟨_, htext, -⟩ := bind_eq_ok hb
    obtain ⟨_, hcheck, -⟩ := bind_eq_ok htext
    obtain ⟨_, hcallee, -⟩ := bind_eq_ok hcheck
    exact continuesWord_of_checkCallee hcallee
  have hbranches (l : List (ContentType × Nat)) :
      ((l.flatMap fun (ct, n) ↦ encodingBranch ("s." ++ e.contentHandler) ct n).flatMap
        Step.lines).mapM Go.readLine = some (l.flatMap fun (ct, n) ↦ branchLines e ct n) := by
    induction l with
    | nil => rfl
    | cons p l ih =>
      rw [List.flatMap_cons, List.flatMap_append, List.mapM_append, ih,
        readLines_encodingBranch hword]
      rfl
  rw [Block.spells_of_ofSteps hbody, List.flatMap_append, List.flatMap_append, List.mapM_append,
    List.mapM_append, readLines_mediaSteps, hbranches, readLines_refusalSteps]
  rfl

def cutCode (next : Go.Code) : Go.Code :=
  .act (.define "header" (.call "req.Header.Get" [.name "xhttp.ContentTypeHeader"])) <|
  .act (.define "i" (.call "strings.Index" [.name "header", .text [';']])) <|
  .branch (.name "i") (.number (-1)) (.act (.assign "i" (.call "len" [.name "header"])) .done) .done
    next

def mediaCode (next : Go.Code) : Go.Code :=
  cutCode <|
  .act (.define "modifiedHeader" (.call "strings.ToLower" [.upTo "header" "i"])) <|
  .act (.assign "modifiedHeader" (.call "strings.TrimSpace" [.name "modifiedHeader"])) next

def chain (e : Endpoint) : List ContentType → Go.Code
  | [] => refusal.foldr .act .done
  | ct :: cts => .branch (.name "modifiedHeader") (.text ct.mediaType.toList)
      (.act (handOver e ct) .ret) (chain e cts) .done

theorem before_elseLines (e : Endpoint) (cts : List ContentType) (n : Nat) :
    ((cts.zipIdx (n + 1)).flatMap fun (ct, n) ↦ branchLines e ct n).foldrM Go.Line.before
      [{ otherwise := chain e [] }, {}] = some [{ otherwise := chain e cts }, {}] := by
  induction cts generalizing n with
  | nil => rfl
  | cons ct rest ih =>
    rw [List.zipIdx_cons, List.flatMap_cons, List.foldrM_append, ih]
    rfl

theorem code?_dispatcher (hne : cts ≠ []) :
    Go.code? (mediaLines ++ cts.zipIdx.flatMap (fun (ct, n) ↦ branchLines e ct n) ++ refusalLines) =
      some (mediaCode (chain e cts)) := by
  obtain ⟨ct, rest, rfl⟩ := List.exists_cons_of_ne_nil hne
  have hrefusal : refusalLines.foldrM Go.Line.before [{}] =
      some [{ otherwise := chain e [] }, {}] := rfl
  have hfirst : (branchLines e ct 0).foldrM Go.Line.before [{ otherwise := chain e rest }, {}] =
      some [{ code := chain e (ct :: rest) }] := rfl
  have hlines : (mediaLines ++ (ct :: rest).zipIdx.flatMap (fun (ct, n) ↦ branchLines e ct n) ++
      refusalLines).foldrM Go.Line.before [{}] =
      some [{ code := mediaCode (chain e (ct :: rest)) }] := by
    simp only [List.foldrM_append, hrefusal, List.zipIdx_cons, List.flatMap_cons, before_elseLines,
      hfirst, Option.bind_eq_bind, Option.bind_some]
    rfl
  rw [Go.code?, hlines]

/-- What a dispatcher can do with a request: hand it to the functions of an encoding, or refuse it
for its content type. -/
inductive Handling where
  | served (ct : ContentType)
  | refused
  deriving DecidableEq

namespace Handling

def calls (e : Endpoint) (header : String) : Handling → List Go.Call
  | .served ct => [⟨"s." ++ e.contentHandler, [.named "ctx", .named "resp", .named "req",
      .named (binding ct).decoder, .named (binding ct).encoder]⟩]
  | .refused => [
      ⟨"fmt.Sprintf", [.text Wire.unexpectedContentTypeFormat.toList, .text header.toList]⟩,
      ⟨"errors.BadRouteError", [.result 0, .named "req.Method", .named "req.URL.Path"]⟩,
      ⟨"s.writeError", [.named "ctx", .named "resp", .result 1]⟩]

def ofOption : Option ContentType → Handling
  | some ct => .served ct
  | none => .refused

end Handling

def cutState (header : String) : Go.State where
  env := [("i", .number (header.toList.takeWhile (· ≠ ';')).length),
    ("header", .text header.toList)]

def mediaState (header : String) : Go.State where
  env := ("modifiedHeader", .text (ContentType.headerMedia header).toList) :: (cutState header).env

theorem run_cutCode (header : String) (next : Go.Code) :
    (cutCode next).run header.toList {} = next.run header.toList (cutState header) := by
  let start : Go.State :=
    { env := [("i", .number (Go.index header.toList [';'])), ("header", .text header.toList)] }
  have hheader : Go.State.act header.toList {}
      (.define "header" (.call "req.Header.Get" [.name "xhttp.ContentTypeHeader"])) =
      some { env := [("header", .text header.toList)] } := rfl
  have hindex : Go.State.act header.toList { env := [("header", .text header.toList)] }
      (.define "i" (.call "strings.Index" [.name "header", .text [';']])) = some start := rfl
  rw [cutCode, Go.Code.run_act hheader, Go.Code.run_act hindex]
  by_cases hmem : ';' ∈ header.toList
  · have hstart : start = cutState header := by
      simp only [start, Go.index_of_mem hmem]
      rfl
    have hfound : start.equal (.name "i") (.number (-1)) = some false := by
      rw [hstart]
      rfl
    rw [Go.Code.run_branch hfound, hstart]
    rfl
  · have hmissing : start.equal (.name "i") (.number (-1)) = some true := by
      simp only [start, Go.index_of_not_mem hmem]
      rfl
    have hall : header.toList.takeWhile (· ≠ ';') = header.toList :=
      List.takeWhile_eq_self_iff.2 fun c hc ↦ by simpa using fun h : c = ';' ↦ hmem (h ▸ hc)
    rw [Go.Code.run_branch hmissing, cutState, hall]
    rfl

theorem operand_upTo (header : String) :
    (cutState header).operand (.upTo "header" "i") =
      some (.text (header.toList.takeWhile (· ≠ ';'))) := by
  have hprefix : header.toList.takeWhile (· ≠ ';') <+: header.toList := List.takeWhile_prefix _
  have hbound : (0 : Int) ≤ (header.toList.takeWhile (· ≠ ';')).length ∧
      ((header.toList.takeWhile (· ≠ ';')).length : Int) ≤ header.toList.length := by
    have hlength := hprefix.length_le
    omega
  change (if _ ∧ _ then some (Go.Value.text (header.toList.take (Int.toNat _))) else none) = _
  rw [if_pos hbound, Int.toNat_natCast, ← List.prefix_iff_eq_take.1 hprefix]

theorem run_mediaCode (h : Ascii header) (next : Go.Code) :
    (mediaCode next).run header.toList {} = next.run header.toList (mediaState header) := by
  have hascii : ∀ c ∈ header.toList.takeWhile (· ≠ ';'), c.toNat < 128 := fun c hc ↦
    h c ((List.takeWhile_prefix _).mem hc)
  have hmedia : Go.trimSpace ((header.toList.takeWhile (· ≠ ';')).map Char.toLower) =
      (ContentType.headerMedia header).toList := by
    rw [Go.trimSpace_map_toLower hascii, ContentType.headerMedia, String.toList_ofList]
  have hlower : (cutState header).act header.toList
      (.define "modifiedHeader" (.call "strings.ToLower" [.upTo "header" "i"])) =
      some { env := ("modifiedHeader",
        .text ((header.toList.takeWhile (· ≠ ';')).map Char.toLower)) ::
          (cutState header).env } := by
    rw [Go.State.act, Go.State.expr, List.mapM_cons, operand_upTo]
    rfl
  rw [mediaCode, run_cutCode, Go.Code.run_act hlower, mediaState, ← hmedia]
  rfl

theorem mapM_operand_coders (header : String) (ct : ContentType) :
    [.name "ctx", .name "resp", .name "req", .name (binding ct).decoder,
      .name (binding ct).encoder].mapM (mediaState header).operand =
      some [.named "ctx", .named "resp", .named "req", .named (binding ct).decoder,
        .named (binding ct).encoder] := by
  cases ct <;> rfl

theorem builtin_contentHandler (header : List Char) (e : Endpoint) (values : List Go.Value) :
    Go.builtin header ("s." ++ e.contentHandler) values = none := by
  have hname {known : String} (h : ∀ rest, known.toList ≠ 's' :: '.' :: rest) :
      "s." ++ e.contentHandler ≠ known := by
    rintro rfl
    exact h _ (String.toList_append ..)
  rw [Go.builtin]
  all_goals
    intros
    exact absurd ‹_› (hname (by simp))

theorem run_chain (header : String) (cts : List ContentType) :
    ∃ s returned, (chain e cts).run header.toList (mediaState header) = some (s, returned) ∧
      s.calls = (Handling.ofOption
        (cts.find? (·.mediaType == ContentType.headerMedia header))).calls e header := by
  induction cts with
  | nil => exact ⟨_, _, rfl, rfl⟩
  | cons ct cts ih =>
    have hequal : (mediaState header).equal (.name "modifiedHeader") (.text ct.mediaType.toList) =
        some ((ContentType.headerMedia header).toList == ct.mediaType.toList) := rfl
    have hserve : (Go.Code.act (handOver e ct) .ret).run header.toList (mediaState header) =
        some ({ mediaState header with calls := (Handling.served ct).calls e header }, true) := by
      rw [Go.Code.run, handOver, Go.State.act, Go.State.expr, mapM_operand_coders]
      simp only [Option.bind_eq_bind, Option.bind_some, builtin_contentHandler]
      rfl
    obtain ⟨s, returned, hrun, hcalls⟩ := ih
    rw [chain, Go.Code.run_branch hequal, List.find?_cons]
    by_cases hmatch : ct.mediaType = ContentType.headerMedia header
    · rw [hmatch, beq_self_eq_true, beq_self_eq_true, if_pos rfl, hserve]
      exact ⟨_, _, rfl, rfl⟩
    · have hne : ((ContentType.headerMedia header).toList == ct.mediaType.toList) = false := by
        simpa [String.toList_inj] using Ne.symm hmatch
      rw [hne, beq_false_of_ne hmatch, if_neg Bool.false_ne_true, hrun, ← hcalls]
      cases returned <;> exact ⟨_, _, rfl, rfl⟩

theorem Handling.calls_injective (e : Endpoint) (header : String) :
    Function.Injective (Handling.calls e header) := by
  intro a b h
  cases a with
  | served ct =>
    cases b with
    | served other =>
      obtain ⟨⟩ | ⟨⟩ := ct <;> obtain ⟨⟩ | ⟨⟩ := other <;> first | rfl | simp [calls, binding] at h
    | refused => simp [calls] at h
  | refused =>
    cases b with
    | served other => simp [calls] at h
    | refused => rfl

theorem run_dispatcher {receiver : GoType} {m : Method} (hne : cts ≠ []) (hascii : Ascii header)
    (h : dispatcher receiver cts e = .ok m) :
    Go.run header.toList m.function.body.lines = some ((Handling.ofOption
      (cts.find? (·.mediaType == ContentType.headerMedia header))).calls e header) := by
  obtain ⟨s, returned, hrun, hcalls⟩ := run_chain (e := e) header cts
  rw [Go.run, readLines_dispatcher hne h]
  simp only [Option.bind_eq_bind, Option.bind_some, code?_dispatcher hne, run_mediaCode hascii,
    hrun]
  rw [hcalls]
  rfl

/-- A dispatcher hands a request to the functions of an encoding exactly if the header names the
encoding and the configuration serves it, and else refuses the request. -/
theorem handles_dispatcher {c : Config} {receiver : GoType} {m : Method}
    (hne : c.contentTypes ≠ []) (hascii : Ascii header)
    (h : dispatcher receiver c.orderedContentTypes e = .ok m) :
    ∃ calls, Go.run header.toList m.function.body.lines = some calls ∧
      (∃! handling : Handling, calls = handling.calls e header) ∧
      (∀ ct, calls = (Handling.served ct).calls e header ↔
        ContentType.negotiate header = some ct ∧ ct ∈ c.contentTypes) ∧
      (calls = Handling.refused.calls e header ↔
        ¬∃ ct, ContentType.negotiate header = some ct ∧ ct ∈ c.contentTypes) := by
  obtain ⟨first, rest, hcons⟩ := Config.exists_cons_orderedContentTypes hne
  have hrun := run_dispatcher (by simp [hcons]) hascii h
  have hinj := Handling.calls_injective e header
  simp only [← Config.find?_orderedContentTypes]
  cases hfind : c.orderedContentTypes.find? (·.mediaType == ContentType.headerMedia header) with
  | none =>
    rw [hfind] at hrun
    refine ⟨_, hrun, ⟨.refused, rfl, fun handling hcalls ↦ (hinj hcalls).symm⟩, fun ct ↦ ?_, ?_⟩
    · simp [Handling.ofOption, hinj.eq_iff]
    · simp [Handling.ofOption]
  | some ct =>
    rw [hfind] at hrun
    refine ⟨_, hrun, ⟨.served ct, rfl, fun handling hcalls ↦ (hinj hcalls).symm⟩,
      fun other ↦ ?_, ?_⟩
    · simp [Handling.ofOption, hinj.eq_iff]
    · simp [Handling.ofOption, hinj.eq_iff]

def caseEndpoint : Endpoint := ⟨"M", .string, .string, none⟩

theorem handles_dispatcher_caseEndpoint :
    ∃ m, dispatcher .string (Config.orderedContentTypes { contentTypes := [.protobuf] })
        caseEndpoint = .ok m ∧
      Go.run "\tApplication/PROTOBUF ; v=1; \"".toList m.function.body.lines =
        some ((Handling.served .protobuf).calls caseEndpoint "\tApplication/PROTOBUF ; v=1; \"") ∧
      Go.run "application/json".toList m.function.body.lines =
        some (Handling.refused.calls caseEndpoint "application/json") := by
  have hok : (dispatcher .string (Config.orderedContentTypes { contentTypes := [.protobuf] })
      caseEndpoint).isOk = true := isOk_dispatcher (by decide)
  obtain ⟨m, hm⟩ := exists_of_isOk hok
  have hspaced : Ascii "\tApplication/PROTOBUF ; v=1; \"" := by decide
  obtain ⟨calls, hserved, -, hiff, -⟩ := handles_dispatcher (by decide) hspaced hm
  have hplain : Ascii "application/json" := by decide
  obtain ⟨calls', hrefused, -, -, hiff'⟩ := handles_dispatcher (by decide) hplain hm
  rw [(hiff .protobuf).2 (by decide +kernel)] at hserved
  rw [hiff'.2 (by decide +kernel)] at hrefused
  exact ⟨m, hm, hserved, hrefused⟩

end ServerStub

end Stub

end RpcStubs
