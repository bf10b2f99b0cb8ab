import RpcStubs.Proofs.Code.Success
import RpcStubs.Proofs.Stub.Drafts

namespace RpcStubs

open Text

namespace Stub

open Schema (Context File)

theorem operand_of_quote {s : String} (h : '"' ∈ s.toList) : Operand s :=
  operand_of_mem h (by decide) (by decide)

theorem operand_goQuoted (s : String) : Operand (goQuoted s) :=
  operand_of_quote (by simp [goQuoted])

theorem legal_ctx : identifierFault? "ctx" = none := legal_ofList (by decide)

theorem legal_err : identifierFault? "err" = none := legal_ofList (by decide)

theorem operand_err : Operand "err" := operand_of_legal legal_err

theorem operand_nil : Operand "nil" := operand_ofList (by decide)

theorem operands_served : ∀ a ∈ ["ctx", "resp", "req"], Operand a := by
  simp only [List.forall_mem_cons]
  exact ⟨operand_of_legal legal_ctx, operand_ofList (by decide), operand_ofList (by decide),
    by simp⟩

theorem operands_hooks : ∀ a ∈ ["ctx", "s.hooks"], Operand a :=
  List.forall_mem_cons.2 ⟨operand_of_legal legal_ctx,
    List.forall_mem_singleton.2 (operand_ofList (by decide))⟩

theorem isOk_checkTargets_ctx_err : (Step.checkTargets ["ctx", "err"]).isOk = true :=
  Step.isOk_checkTargets (by simp)
    (List.forall_mem_cons.2 ⟨legal_ctx, List.forall_mem_singleton.2 legal_err⟩)

theorem operand_callExpr {targets args : List String} {callee text : String}
    (h : Step.callExpr targets callee args = .ok text) : Operand text := by
  obtain rfl := Step.eq_of_callExpr h
  exact operand_of_mem (c := ':') (by simp) (by decide) (by decide)

/-- The steps that note a name in the context. -/
theorem isOk_noteName {callee : String} (h : Callable callee) (name : String) :
    (Step.assignCall ["ctx"] callee ["ctx", goQuoted name]).emit.isOk = true :=
  Step.isOk_assignCall (Step.isOk_checkTarget legal_ctx) h (List.forall_mem_cons.2
    ⟨operand_of_legal legal_ctx, List.forall_mem_singleton.2 (operand_goQuoted name)⟩)

theorem qualifier_importOf (fw : Framework) (p : Package) : (fw.importOf p).qualifier = p.name := by
  have hslash : '/' ∉ p.name.toList := by cases p <;> decide
  have hpath : (fw.root ++ "/" ++ p.name).toList = fw.root.toList ++ '/' :: p.name.toList := by simp
  have hcut : Text.cutLast '/' (fw.root ++ "/" ++ p.name).toList =
      some (fw.root.toList, p.name.toList) := Text.cutLast_eq_some_iff.2 ⟨hpath, hslash⟩
  show String.ofList (Text.afterLast '/' (fw.root ++ "/" ++ p.name).toList) = p.name
  rw [Text.afterLast, hcut, String.ofList_toList]

theorem Framework.type_eq (f : Framework) (p : Package) {name : String}
    (h : isWord name.toList = true) :
    f.type p name = .ok (.named name (some p.name) (some (f.importOf p))) := by
  have hp : isWord p.name.toList = true := by cases p <;> decide
  rw [Framework.type, GoType.imported, qualifier_importOf, GoType.qualified, GoType.checkTypeName,
    GoType.checkTypeName, if_pos hp, if_pos h]
  rfl

/-- The names that a service must have for its stubs to be legal. -/
structure Service.Named (s : Service) : Prop where
  name : identifierFault? s.name = none
  exported : identifierFault? (Name.exported s.name) = none
  serverName : identifierFault? s.serverName = none
  clientName : ∀ ct, identifierFault? (s.clientName ct) = none
  endpoints : ∀ e ∈ s.endpoints, identifierFault? e.name = none ∧
    identifierFault? (Name.exported e.name) = none

namespace Service

variable {s : Service}

theorem legal_constructor (hs : s.Named) {after : String}
    (h : ∀ c ∈ after.toList, Name.isWordChar c = true) :
    identifierFault? ("New" ++ s.name ++ after) = none := by
  rw [String.append_assoc]
  refine legal_append (by decide) ?_ (by decide)
  rw [String.toList_append]
  exact List.forall_mem_append.2 ⟨wordChars_of_legal hs.name, h⟩

theorem legal_pathPrefixConst (hs : s.Named) : identifierFault? s.pathPrefixConst = none :=
  legal_append_right (isWord_of_legal hs.name) (by decide) (by decide)

theorem isOk_interface_of_legal (hname : identifierFault? (Name.exported s.name) = none)
    (hendpoints : ∀ e ∈ s.endpoints, identifierFault? (Name.exported e.name) = none) :
    s.interface.isOk = true := by
  have hreq : identifierFault? "req" = none := legal_ofList (by decide)
  refine isOk_bind (Interface.isOk_new hname) fun start _ ↦ isOk_foldlM (fun e he i ↦ ?_) _
  refine isOk_bind_of_eq rfl (Interface.isOk_addMethod (hendpoints e he) ?_ i _ _)
  simp only [List.forall_mem_cons]
  exact ⟨⟨legal_ctx, GoType.spell_imported_ne _ _ _⟩, ⟨hreq, GoType.spell_pointer_ne _⟩, by simp⟩

theorem isOk_interface (hs : s.Named) : s.interface.isOk = true :=
  isOk_interface_of_legal hs.exported fun e he ↦ (hs.endpoints e he).2

end Service

namespace ServerStub

variable {s : Service} {f : Framework} {cts : List Wire.ContentType} {data : ServerMetadata}
  {receiver : GoType} {e : Endpoint}

theorem callable_receiver {name : String} (h : identifierFault? name = none) :
    Callable ("s." ++ name) := by
  have hs : "s." = "s" ++ "." := rfl
  rw [hs]
  exact callable_append (legal_ofList (by decide)) h

theorem legal_dispatcher (h : identifierFault? e.name = none) :
    identifierFault? e.dispatcher = none :=
  legal_append (by decide) (wordChars_of_legal h) (by decide)

theorem legal_contentHandler (h : identifierFault? e.name = none) :
    identifierFault? e.contentHandler = none := by
  have hcontent : ∀ c ∈ "Content".toList, Name.isWordChar c = true := by decide
  rw [Endpoint.contentHandler, String.append_assoc]
  refine legal_append (by decide) ?_ (by decide)
  rw [String.toList_append]
  exact List.forall_mem_append.2 ⟨wordChars_of_legal h, hcontent⟩

theorem exists_handlerParams : ∃ params, handlerParams = .ok params ∧
    ∀ p ∈ params, p.Spelled := by
  have hresp : identifierFault? "resp" = none := legal_ofList (by decide)
  have hreq : identifierFault? "req" = none := legal_ofList (by decide)
  refine ⟨_, rfl, ?_⟩
  simp only [List.forall_mem_cons]
  exact ⟨⟨legal_ctx, GoType.spell_imported_ne _ _ _⟩, ⟨hresp, GoType.spell_imported_ne _ _ _⟩,
    ⟨hreq, GoType.spell_pointer_ne _⟩, by simp⟩

theorem emits_writeError {err : String} (h : Operand err) :
    ∀ step ∈ writeError err, step.emit.isOk = true := by
  refine List.forall_mem_singleton.2 (Step.isOk_call (callable_ofList (by decide)) ?_)
  simp only [List.forall_mem_cons]
  exact ⟨operand_of_legal legal_ctx, operand_ofList (by decide), h, by simp⟩

theorem emits_writeErrorAndReturn {err : String} (h : Operand err) :
    ∀ step ∈ writeErrorAndReturn err, step.emit.isOk = true :=
  List.forall_mem_append.2 ⟨emits_writeError h, List.forall_mem_singleton.2 rfl⟩

theorem emits_failOnError : ∀ step ∈ failOnError, step.emit.isOk = true := by
  simp only [failOnError, List.forall_mem_append, List.forall_mem_singleton]
  exact ⟨⟨Step.isOk_ifBegin operand_err operand_nil rfl, emits_writeErrorAndReturn operand_err⟩,
    rfl⟩

theorem emits_logAndFail {err : String} (h : Operand err) :
    ∀ step ∈ logAndFail err, step.emit.isOk = true := by
  simp only [logAndFail, List.forall_mem_append, List.forall_mem_singleton]
  refine ⟨⟨Step.isOk_call (callable_ofList (by decide)) ?_, emits_writeErrorAndReturn h⟩, rfl⟩
  exact List.forall_mem_cons.2 ⟨operand_ofList (by decide), List.forall_mem_singleton.2 h⟩

theorem emits_badRoute (format : String) {value : String} (h : Operand value) :
    ∀ step ∈ badRoute format value, step.emit.isOk = true := by
  have hterr : identifierFault? "terr" = none := legal_ofList (by decide)
  simp only [badRoute, List.forall_mem_append, List.forall_mem_cons]
  refine ⟨⟨?_, ?_, by simp⟩, emits_writeError (operand_of_legal hterr)⟩
  · refine Step.isOk_defineCall (Step.isOk_checkTarget (legal_ofList (by decide)))
      (callable_ofList (by decide)) ?_
    simp [operand_goQuoted, h]
  · refine Step.isOk_defineCall (Step.isOk_checkTarget hterr) (callable_ofList (by decide)) ?_
    simp only [List.forall_mem_cons]
    exact ⟨operand_ofList (by decide), operand_ofList (by decide), operand_ofList (by decide),
      by simp⟩

theorem emits_encodingBranch (he : identifierFault? e.name = none) (ct : Wire.ContentType)
    (n : Nat) : ∀ step ∈ encodingBranch ("s." ++ e.contentHandler) ct n,
      step.emit.isOk = true := by
  have hheader : Operand "modifiedHeader" := operand_ofList (by decide)
  have hmedia := operand_goQuoted ct.mediaType
  have hbinding : ∀ a ∈ [(binding ct).decoder, (binding ct).encoder], Operand a := by
    cases ct <;> exact List.forall_mem_cons.2
      ⟨operand_ofList (by decide), List.forall_mem_singleton.2 (operand_ofList (by decide))⟩
  have hargs := List.forall_mem_append.2 ⟨operands_served, hbinding⟩
  have hcall := Step.isOk_call (callable_receiver (legal_contentHandler he)) hargs
  refine List.forall_mem_cons.2
    ⟨?_, List.forall_mem_cons.2 ⟨hcall, List.forall_mem_singleton.2 rfl⟩⟩
  split_ifs
  · exact Step.isOk_ifBegin hheader hmedia rfl
  · exact Step.isOk_elseIf hheader hmedia rfl

/-- The steps that read the media type off the header. -/
theorem emits_mediaSteps : ∀ step ∈ [
    Step.defineCall ["header"] "req.Header.Get" ["xhttp.ContentTypeHeader"],
    Step.defineCall ["i"] "strings.Index" ["header", "\";\""],
    Step.ifBegin "i" .equal "-1", Step.assignCall ["i"] "len" ["header"], Step.close,
    Step.defineCall ["modifiedHeader"] "strings.ToLower" ["header[:i]"],
    Step.assignCall ["modifiedHeader"] "strings.TrimSpace" ["modifiedHeader"]],
    step.emit.isOk = true := by
  have hheader : identifierFault? "header" = none := legal_ofList (by decide)
  have hi : identifierFault? "i" = none := legal_ofList (by decide)
  have hmodified : identifierFault? "modifiedHeader" = none := legal_ofList (by decide)
  have hone {arg : String} (h : Operand arg) : ∀ a ∈ [arg], Operand a :=
    List.forall_mem_singleton.2 h
  have hindex : ∀ a ∈ ["header", "\";\""], Operand a :=
    List.forall_mem_cons.2 ⟨operand_of_legal hheader, hone (operand_ofList (by decide))⟩
  simp only [List.forall_mem_cons]
  refine ⟨?_, ?_, Step.isOk_ifBegin (operand_of_legal hi) (operand_ofList (by decide)) rfl, ?_, rfl,
    ?_, ?_, by simp⟩
  · exact Step.isOk_defineCall (Step.isOk_checkTarget hheader) (callable_ofList (by decide))
      (hone (operand_ofList (by decide)))
  · exact Step.isOk_defineCall (Step.isOk_checkTarget hi) (callable_ofList (by decide)) hindex
  · exact Step.isOk_assignCall (Step.isOk_checkTarget hi) (callable_ofList (by decide))
      (hone (operand_of_legal hheader))
  · exact Step.isOk_defineCall (Step.isOk_checkTarget hmodified) (callable_ofList (by decide))
      (hone (operand_ofList (by decide)))
  · exact Step.isOk_assignCall (Step.isOk_checkTarget hmodified) (callable_ofList (by decide))
      (hone (operand_of_legal hmodified))

theorem isOk_dispatcher (he : identifierFault? e.name = none) :
    (dispatcher receiver cts e).isOk = true := by
  obtain ⟨params, hparams, hspelled⟩ := exists_handlerParams
  have hs : identifierFault? "s" = none := legal_ofList (by decide)
  have hmethod := Method.isOk_new receiver [] hs (legal_dispatcher he) hspelled
  refine isOk_bind (Block.isOk_ofSteps ?_) fun body _ ↦ isOk_bind_of_eq hparams
    (isOk_bind hmethod fun _ _ ↦ rfl)
  simp only [List.forall_mem_append, List.forall_mem_singleton]
  refine ⟨⟨⟨⟨?_, fun step hstep ↦ ?_⟩, rfl⟩, emits_badRoute _ (operand_ofList (by decide))⟩, rfl⟩
  · exact emits_mediaSteps
  · obtain ⟨⟨ct, n⟩, -, hstep⟩ := List.mem_flatMap.1 hstep
    exact emits_encodingBranch he ct n step hstep

theorem isOk_recoverGuard (handler : Block) :
    (Step.recoverGuard "deferWrapper" handler).emit.isOk = true := by
  have hname : identifierFault? "deferWrapper" = none := legal_ofList (by decide)
  have hr : Operand "r" := operand_ofList (by decide)
  have hguard : (Step.ifScopedLine "r := recover()" "r" .notEqual "nil").isOk = true :=
    Step.isOk_ifScopedLine hr operand_nil rfl (operand_ofList (by decide))
  have hpanic := Step.isOk_checkedCall (callable_ofList (by decide) : Callable "panic")
    (List.forall_mem_singleton.2 hr)
  have hcall := Step.isOk_checkedCall (callable_ofList (by decide) : Callable "deferWrapper")
    (List.forall_mem_nil _)
  refine isOk_bind (Step.isOk_checkTarget hname) fun _ _ ↦ ?_
  refine isOk_bind hguard fun guard _ ↦ ?_
  refine isOk_bind hpanic fun again _ ↦ ?_
  refine isOk_bind (FuncLiteral.isOk_new [] hname) fun func _ ↦ ?_
  exact isOk_bind hcall fun call _ ↦ rfl

theorem isOk_endpointCall (he : identifierFault? e.name = none) :
    (endpointCall e).isOk = true := by
  have hterr : identifierFault? "terr" = none := legal_ofList (by decide)
  have hargs : ∀ a ∈ ["ctx", "reqContent"], Operand a := List.forall_mem_cons.2
    ⟨operand_of_legal legal_ctx, List.forall_mem_singleton.2 (operand_ofList (by decide))⟩
  have hpanic := Step.isOk_defineCall (Step.isOk_checkTarget hterr)
    (callable_ofList (by decide) : Callable "errors.InternalError")
    (List.forall_mem_singleton.2 (operand_ofList (by decide) :
    Operand "\"Internal service panic\""))
  have hreturn := Step.isOk_returnCall (callable_receiver he) hargs
  refine isOk_bind (Block.isOk_ofSteps (List.forall_mem_append.2
    ⟨List.forall_mem_singleton.2 hpanic, emits_writeError (operand_of_legal hterr)⟩))
    fun onPanic _ ↦ ?_
  refine isOk_bind (FuncLiteral.isOk_new _ (legal_ofList (by decide))) fun start _ ↦ ?_
  exact isOk_bind (Block.isOk_ofSteps (List.forall_mem_cons.2
    ⟨isOk_recoverGuard onPanic, List.forall_mem_singleton.2 hreturn⟩)) fun body _ ↦ rfl

/-- A callback is handed the context, what it reads or writes, and the message. -/
theorem isOk_handed {callee body content : String} (hcallee : Callable callee)
    (hbody : Operand body) (hcontent : Operand content) :
    (Step.callExpr ["err"] callee ["ctx", body, content]).isOk = true := by
  refine Step.isOk_callExpr (Step.isOk_checkTarget legal_err) hcallee ?_
  simp only [List.forall_mem_cons]
  exact ⟨operand_of_legal legal_ctx, hbody, hcontent, by simp⟩

theorem isOk_contentHandler (he : identifierFault? e.name = none) :
    (contentHandler receiver f e).isOk = true := by
  obtain ⟨params, hparams, hspelled⟩ := exists_handlerParams
  have hdecodes := f.type_eq .transport
    (by decide : isWord "DecodeRequestFunc".toList = true)
  have hencodes := f.type_eq .transport
    (by decide : isWord "EncodeResponseFunc".toList = true)
  have hterr : identifierFault? "terr" = none := legal_ofList (by decide)
  have hreq : identifierFault? "reqContent" = none := legal_ofList (by decide)
  have hresp : identifierFault? "respContent" = none := legal_ofList (by decide)
  refine isOk_bind (isOk_handed (callable_ofList (by decide)) (operand_ofList (by decide))
    (operand_of_legal hreq)) fun decode hdecode ↦ ?_
  refine isOk_bind (isOk_endpointCall he) fun call _ ↦ ?_
  refine isOk_bind (isOk_handed (callable_ofList (by decide)) (operand_ofList (by decide))
    (operand_of_legal hresp)) fun encode hencode ↦ ?_
  refine isOk_bind (Block.isOk_ofSteps ?steps) fun body _ ↦ ?method
  case steps =>
    have hbody : ∀ a ∈ ["req.Body", "s.logErrorFunc"], Operand a := List.forall_mem_cons.2
      ⟨operand_ofList (by decide), List.forall_mem_singleton.2 (operand_ofList (by decide))⟩
    have htargets : (Step.checkTargets ["respContent", "err"]).isOk = true :=
      Step.isOk_checkTargets (by simp)
        (List.forall_mem_cons.2 ⟨hresp, List.forall_mem_singleton.2 legal_err⟩)
    have hfail := emits_logAndFail operand_err
    simp only [List.forall_mem_append, and_assoc]
    refine ⟨?_, emits_failOnError, ?_, hfail, ?_, emits_failOnError, ?_,
      emits_logAndFail (operand_of_legal hterr), ?_, hfail, ?_⟩
    all_goals simp only [List.forall_mem_cons]
    · exact ⟨Step.isOk_declareVar (Step.isOk_checkTarget legal_err) _,
        isOk_noteName (callable_ofList (by decide)) _,
        Step.isOk_assignCall isOk_checkTargets_ctx_err (callable_ofList (by decide)) operands_hooks,
        by simp⟩
    · exact ⟨Step.isOk_deferCall (callable_ofList (by decide)) hbody,
        Step.isOk_newInstance (Step.isOk_checkTarget hreq) e.input,
        Step.isOk_ifScoped operand_err operand_nil rfl (operand_callExpr hdecode), by simp⟩
    · exact ⟨rfl, Step.isOk_defineCall htargets (callable_ofList (by decide))
        (List.forall_mem_nil _), by simp⟩
    · exact ⟨Step.isOk_ifBegin (operand_of_legal hresp) operand_nil rfl,
        Step.isOk_defineCall (Step.isOk_checkTarget hterr) (callable_ofList (by decide))
          (List.forall_mem_singleton.2 (operand_goQuoted _)), by simp⟩
    · exact ⟨Step.isOk_assignCall (Step.isOk_checkTarget legal_ctx) (callable_ofList (by decide))
        operands_hooks, Step.isOk_ifScoped operand_err operand_nil rfl (operand_callExpr hencode),
        by simp⟩
    · exact ⟨Step.isOk_call (callable_ofList (by decide)) operands_hooks, by simp⟩
  case method =>
    have hdecode : identifierFault? "decodeRequest" = none := legal_ofList (by decide)
    have hencode : identifierFault? "encodeResponse" = none := legal_ofList (by decide)
    refine isOk_bind_of_eq hparams (isOk_bind_of_eq hdecodes (isOk_bind_of_eq hencodes ?_))
    refine isOk_bind ?_ fun m _ ↦ rfl
    refine Method.isOk_new receiver [] (legal_ofList (by decide)) (legal_contentHandler he) ?_
    refine List.forall_mem_append.2 ⟨hspelled, ?_⟩
    simp only [List.forall_mem_cons]
    exact ⟨⟨hdecode, GoType.spell_imported_ne _ _ _⟩, ⟨hencode, GoType.spell_imported_ne _ _ _⟩,
      by simp⟩

theorem isOk_addRoute (he : identifierFault? e.name = none) (routes : Switch) :
    (addRoute s routes e).isOk = true := by
  refine isOk_bind (Block.isOk_ofSteps ?_) fun body _ ↦
    Switch.isOk_addCase (operand_goQuoted _) routes body
  have hcall := Step.isOk_call (callable_receiver (legal_dispatcher he)) operands_served
  exact List.forall_mem_cons.2 ⟨hcall, List.forall_mem_singleton.2 rfl⟩

theorem isOk_routes (hs : s.Named) : (routes s).isOk = true := by
  have hadd (e : Endpoint) (he : e ∈ s.endpoints) (routes : Switch) :
      (addRoute s routes e).isOk = true := isOk_addRoute (hs.endpoints e he).1 routes
  refine isOk_bind (by decide) fun start _ ↦ ?_
  refine isOk_bind (isOk_foldlM hadd start) fun cases _ ↦ ?_
  refine isOk_bind (Block.isOk_ofSteps ?_) fun fallback _ ↦ rfl
  exact List.forall_mem_append.2
    ⟨emits_badRoute _ (operand_ofList (by decide)), List.forall_mem_singleton.2 rfl⟩

theorem isOk_handler (hs : s.Named) : (handler s receiver).isOk = true := by
  refine isOk_bind (isOk_routes hs) fun routes _ ↦ ?_
  refine isOk_bind (Block.isOk_ofSteps ?steps) fun body _ ↦ ?method
  case steps =>
    have hmethod : Operand "req.Method" := operand_ofList (by decide)
    have hbad := emits_badRoute Wire.unsupportedMethodFormat hmethod
    have hctx := Step.isOk_checkTarget legal_ctx
    have hresp : ∀ a ∈ ["ctx", "resp"], Operand a := List.forall_mem_cons.2
      ⟨operand_of_legal legal_ctx, List.forall_mem_singleton.2 (operand_ofList (by decide))⟩
    simp only [List.forall_mem_append, List.forall_mem_cons, and_assoc]
    exact ⟨Step.isOk_defineCall hctx (callable_ofList (by decide)) (List.forall_mem_nil _),
      isOk_noteName (callable_ofList (by decide)) _, isOk_noteName (callable_ofList (by decide)) _,
      Step.isOk_assignCall hctx (callable_ofList (by decide)) hresp,
      Step.isOk_declareVar (Step.isOk_checkTarget legal_err) _,
      Step.isOk_assignCall isOk_checkTargets_ctx_err (callable_ofList (by decide)) operands_hooks,
      by simp, emits_failOnError, Step.isOk_ifBegin hmethod (operand_ofList (by decide)) rfl,
      by simp, hbad, rfl, rfl, rfl, by simp⟩
  case method =>
    have hresp : identifierFault? "resp" = none := legal_ofList (by decide)
    have hreq : identifierFault? "req" = none := legal_ofList (by decide)
    refine isOk_bind_of_eq rfl (isOk_bind_of_eq rfl ?_)
    refine isOk_bind ?_ fun m _ ↦ rfl
    refine Method.isOk_new receiver [] (legal_ofList (by decide)) (legal_ofList (by decide)) ?_
    simp only [List.forall_mem_cons]
    exact ⟨⟨hresp, GoType.spell_imported_ne _ _ _⟩, ⟨hreq, GoType.spell_pointer_ne _⟩, by simp⟩

theorem isOk_errorWriter : (errorWriter receiver).isOk = true := by
  have hcall : (Step.call "transport.WriteErrorAndTriggerHooks"
      ["ctx", "resp", "err", "s.hooks"]).emit.isOk = true := by
    refine Step.isOk_call (callable_ofList (by decide)) ?_
    simp only [List.forall_mem_cons]
    exact ⟨operand_of_legal legal_ctx, operand_ofList (by decide), operand_err,
      operand_ofList (by decide), by simp⟩
  refine isOk_bind (Block.isOk_ofSteps (List.forall_mem_singleton.2 hcall)) fun body _ ↦ ?_
  refine isOk_bind_of_eq rfl (isOk_bind_of_eq rfl ?_)
  refine isOk_bind (Method.isOk_new receiver [] (legal_ofList (by decide))
    (legal_ofList (by decide)) ?_) fun m _ ↦ rfl
  have hresp : identifierFault? "resp" = none := legal_ofList (by decide)
  simp only [List.forall_mem_cons]
  exact ⟨⟨legal_ctx, GoType.spell_imported_ne _ _ _⟩, ⟨hresp, GoType.spell_imported_ne _ _ _⟩,
    ⟨legal_err, by decide⟩, by simp⟩

theorem isOk_descriptorAccessor (hd : identifierFault? data.descriptorVar = none) :
    (descriptorAccessor s receiver data).isOk = true := by
  have hvalues : ∀ v ∈ [data.descriptorVar, Nat.repr s.index], Operand v := by
    simp [operand_of_legal hd, operand_repr]
  have hreturn := Step.isOk_returnValues (by simp) hvalues
  refine isOk_bind (Block.isOk_ofSteps (List.forall_mem_singleton.2 hreturn)) fun body _ ↦ ?_
  exact isOk_bind (Method.isOk_new receiver _ (legal_ofList (by decide)) (legal_ofList (by decide))
    (by simp)) fun m _ ↦ rfl

theorem isOk_versionAccessor : (versionAccessor receiver data).isOk = true := by
  have hvalues : ∀ v ∈ [goQuoted data.version], Operand v := by simp [operand_goQuoted]
  have hreturn := Step.isOk_returnValues (by simp) hvalues
  refine isOk_bind (Block.isOk_ofSteps (List.forall_mem_singleton.2 hreturn)) fun body _ ↦ ?_
  exact isOk_bind (Method.isOk_new receiver _ (legal_ofList (by decide)) (legal_ofList (by decide))
    (by simp)) fun m _ ↦ rfl

theorem isOk_methods (hs : s.Named) (hd : identifierFault? data.descriptorVar = none) :
    (methods s receiver f cts data).isOk = true := by
  have hserved : (s.endpoints.mapM (endpointMethods receiver f cts)).isOk = true := by
    refine isOk_mapM fun e he ↦ ?_
    have hname := (hs.endpoints e he).1
    refine isOk_bind (isOk_dispatcher hname) fun dispatcher _ ↦ ?_
    exact isOk_bind (isOk_contentHandler hname) fun handler _ ↦ rfl
  refine isOk_bind isOk_errorWriter fun errorWriter _ ↦ ?_
  refine isOk_bind (isOk_handler hs) fun handler _ ↦ ?_
  refine isOk_bind hserved fun served _ ↦ ?_
  refine isOk_bind (isOk_descriptorAccessor hd) fun descriptorAccessor _ ↦ ?_
  exact isOk_bind isOk_versionAccessor fun versionAccessor _ ↦ rfl

theorem isOk_newServer (hs : s.Named) (hooks logError : GoType) :
    (newServer s f s.serverName (.pointer hooks) logError).isOk = true := by
  have hserver := f.type_eq .server (by decide : isWord "Server".toList = true)
  have hsteps : ∀ step ∈ [Step.ifBegin "len(errorFunc)" .equal "1",
      .assignField "server" "logErrorFunc" "errorFunc[0]", .elseBegin,
      .assignField "server" "logErrorFunc" "log.Printf", .close, .returnValues ["server"]],
      step.emit.isOk = true := by
    have hassign {value : String} (h : Operand value) :
        (Step.assignField "server" "logErrorFunc" value).emit.isOk = true :=
      Step.isOk_assignField (callable_ofList (by decide)) (legal_ofList (by decide)) h
    simp only [List.forall_mem_cons]
    exact ⟨Step.isOk_ifBegin (operand_ofList (by decide)) (operand_ofList (by decide)) rfl,
      hassign (operand_ofList (by decide)), rfl, hassign (operand_ofList (by decide)), rfl,
      Step.isOk_returnValues (by simp)
        (List.forall_mem_singleton.2 (operand_ofList (by decide))), by simp⟩
  have hparams : ∀ p ∈ [⟨"svc", .named s.name none none⟩, ⟨"hooks", .pointer hooks⟩,
      ⟨"errorFunc", .variadic logError⟩], Parameter.Spelled p := by
    have hsvc : identifierFault? "svc" = none := legal_ofList (by decide)
    have hhooks : identifierFault? "hooks" = none := legal_ofList (by decide)
    have hfunc : identifierFault? "errorFunc" = none := legal_ofList (by decide)
    simp only [List.forall_mem_cons]
    exact ⟨⟨hsvc, ne_empty_of_legal hs.name⟩, ⟨hhooks, GoType.spell_pointer_ne _⟩,
      ⟨hfunc, GoType.spell_variadic_ne _⟩, by simp⟩
  refine isOk_bind_of_eq (isOk_declared hs.serverName) ?_
  refine isOk_bind (StructLiteral.isOk_addField hs.name (operand_ofList (by decide)) _)
    fun withService _ ↦ ?_
  refine isOk_bind (StructLiteral.isOk_addField (legal_ofList (by decide))
    (operand_ofList (by decide)) _) fun literal _ ↦ ?_
  refine isOk_bind (Block.isOk_ofSteps (List.forall_mem_cons.2 ⟨rfl, hsteps⟩)) fun body _ ↦ ?_
  refine isOk_bind_of_eq (isOk_declared hs.name) (isOk_bind_of_eq hserver ?_)
  exact isOk_bind (Function.isOk_new _ (Service.legal_constructor hs (by decide)) hparams)
    fun function _ ↦ rfl

theorem isOk_pathPrefixConst (hs : s.Named) : (pathPrefixConst s).isOk = true :=
  isOk_bind (Const.isOk_new (Service.legal_pathPrefixConst hs) (operand_goQuoted _) _)
    fun _ _ ↦ rfl

theorem isOk_declarations (hs : s.Named) (hd : identifierFault? data.descriptorVar = none) :
    (declarations s f cts data).isOk = true := by
  have hhooks := f.type_eq .hooks (by decide : isWord "ServerHooks".toList = true)
  have hlog := f.type_eq .transport (by decide : isWord "LogErrorFunc".toList = true)
  refine isOk_bind_of_eq (isOk_declared hs.serverName) ?_
  refine isOk_bind_of_eq hhooks (isOk_bind_of_eq hlog ?_)
  refine isOk_bind (Structure.isOk_new hs.serverName) fun start _ ↦ ?_
  refine isOk_bind_of_eq (isOk_declared hs.name) ?_
  refine isOk_bind (Structure.isOk_addField (legal_ofList (by decide)) _ _) fun withHooks _ ↦ ?_
  refine isOk_bind (Structure.isOk_addField (legal_ofList (by decide)) _ _) fun fields _ ↦ ?_
  refine isOk_bind (isOk_newServer hs _ _) fun constructor _ ↦ ?_
  exact isOk_bind (isOk_methods hs hd) fun methods _ ↦ rfl

theorem isOk_build (hs : s.Named) (hd : identifierFault? data.descriptorVar = none) :
    (build s f cts data).result.isOk = true := by
  refine Traced.isOk_bind (isOk_declarations hs hd) fun d _ ↦ ?_
  refine Traced.isOk_bind rfl fun _ _ ↦ ?_
  exact Traced.isOk_bind (isOk_pathPrefixConst hs) fun const _ ↦ rfl

end ServerStub

namespace ClientStub

variable {s : Service} {f : Framework} {ct : Wire.ContentType} {receiver : GoType} {e : Endpoint}

theorem operand_element (i : Nat) : Operand ("c.urls[" ++ Nat.repr i ++ "]") :=
  operand_of_mem (c := '[') (by simp) (by decide) (by decide)

theorem operand_url (e : Endpoint) : Operand (url e) :=
  operand_of_quote (by simp [url, goQuoted])

theorem isOk_method (hs : s.Named) (he : e ∈ s.endpoints) (i : Nat) :
    (method s ct receiver e i).isOk = true := by
  refine isOk_bind (Block.isOk_ofSteps ?_) fun body _ ↦ isOk_bind_of_eq rfl (isOk_bind
    (Method.isOk_new receiver _ (legal_ofList (by decide)) (hs.endpoints e he).1 ?_) fun _ _ ↦ rfl)
  · have hrequest : Callable (binding ct).request := by
      cases ct <;> exact callable_ofList (by decide)
    have hout : identifierFault? "out" = none := legal_ofList (by decide)
    have hcall : (Step.defineCall ["err"] (binding ct).request
        ["ctx", "c.client", "c.urls[" ++ Nat.repr i ++ "]", "in", "out"]).emit.isOk = true := by
      refine Step.isOk_defineCall (Step.isOk_checkTarget legal_err) hrequest ?_
      simp only [List.forall_mem_cons]
      exact ⟨operand_of_legal legal_ctx, operand_ofList (by decide), operand_element i,
        operand_ofList (by decide), operand_of_legal hout, by simp⟩
    simp only [List.forall_mem_cons]
    exact ⟨isOk_noteName (callable_ofList (by decide)) _,
      isOk_noteName (callable_ofList (by decide)) _, isOk_noteName (callable_ofList (by decide)) _,
      Step.isOk_newInstance (Step.isOk_checkTarget hout) e.output, hcall,
      Step.isOk_returnValues (by simp) (List.forall_mem_cons.2
        ⟨operand_of_legal hout, List.forall_mem_singleton.2 operand_err⟩), by simp⟩
  · have hin : identifierFault? "in" = none := legal_ofList (by decide)
    simp only [List.forall_mem_cons]
    exact ⟨⟨legal_ctx, GoType.spell_imported_ne _ _ _⟩, ⟨hin, GoType.spell_pointer_ne _⟩, by simp⟩

theorem isOk_urlLiteral : (urlLiteral s).isOk = true := by
  refine isOk_bind (by decide) fun start _ ↦ isOk_foldlM (fun u hu l ↦ ?_) start
  obtain ⟨e, -, rfl⟩ := List.mem_map.1 hu
  exact SliceLiteral.isOk_push (operand_url e) l

theorem isOk_literal (hs : s.Named) {value : String} (hvalue : Operand value) :
    (literal (s.clientName ct) value).isOk = true := by
  refine isOk_bind_of_eq (isOk_declared (hs.clientName ct)) ?_
  refine isOk_bind (StructLiteral.isOk_addField (legal_ofList (by decide)) hvalue _)
    fun withClient _ ↦ ?_
  exact StructLiteral.isOk_addField (legal_ofList (by decide)) (operand_ofList (by decide)) _

theorem emits_urlBase (hs : s.Named) : ∀ step ∈ urlBase s, step.emit.isOk = true := by
  unfold urlBase
  split_ifs
  · simp
  · have hname : identifierFault? "URLBase" = none := legal_ofList (by decide)
    have hbase : (Step.defineCall ["URLBase"] "transport.UrlBase" ["addr"]).emit.isOk = true :=
      Step.isOk_defineCall (Step.isOk_checkTarget hname) (callable_ofList (by decide))
        (List.forall_mem_singleton.2 (operand_ofList (by decide)))
    have hleft := Step.isOk_checkOperandOf (operand_of_legal hname) "left operand"
    have hright := Step.isOk_checkOperandOf
      (operand_of_legal (Service.legal_pathPrefixConst hs)) "right operand"
    have hprefix : (Step.defineOperation "prefix" "URLBase" .add s.pathPrefixConst).emit.isOk =
        true := by
      refine isOk_bind (Step.isOk_checkTarget (legal_ofList (by decide))) fun _ _ ↦ ?_
      refine isOk_bind hleft fun _ _ ↦ ?_
      exact isOk_bind hright fun _ _ ↦ rfl
    exact List.forall_mem_cons.2 ⟨hbase, List.forall_mem_singleton.2 hprefix⟩

theorem isOk_newClient (hs : s.Named) (package type : String) (origin : Option Import) :
    (newClient s (s.clientName ct) ct.clientSuffix (.named type (some package) origin)).isOk =
      true := by
  have hsuffix : ∀ c ∈ (ct.clientSuffix ++ "Client").toList, Name.isWordChar c = true := by
    cases ct <;> decide
  have hname : identifierFault? ("New" ++ s.name ++ ct.clientSuffix ++ "Client") = none := by
    rw [String.append_assoc]
    exact Service.legal_constructor hs hsuffix
  have hok : identifierFault? "ok" = none := legal_ofList (by decide)
  have hclient : identifierFault? "client" = none := legal_ofList (by decide)
  have hhttp : identifierFault? "httpClient" = none := legal_ofList (by decide)
  have hguard : (Step.ifBegin "ok" .equal "true").emit.isOk = true :=
    Step.isOk_ifBegin (operand_of_legal hok) (operand_ofList (by decide)) rfl
  have hwrap := Step.isOk_assignCall (Step.isOk_checkTarget hhttp)
    (callable_ofList (by decide) : Callable "transport.WithoutRedirects")
    (List.forall_mem_singleton.2 (operand_of_legal hhttp))
  have htargets : (Step.checkTargets ["httpClient", "ok"]).isOk = true :=
    Step.isOk_checkTargets (by simp)
      (List.forall_mem_cons.2 ⟨hhttp, List.forall_mem_singleton.2 hok⟩)
  refine isOk_bind isOk_urlLiteral fun urls _ ↦ ?_
  refine isOk_bind (isOk_literal hs (operand_ofList (by decide))) fun redirectless _ ↦ ?_
  refine isOk_bind (isOk_literal hs (operand_ofList (by decide))) fun plain _ ↦ ?_
  refine isOk_bind_of_eq rfl (isOk_bind (Block.isOk_ofSteps ?steps) fun body _ ↦ ?function)
  case steps =>
    simp only [List.forall_mem_append, List.forall_mem_cons]
    exact ⟨emits_urlBase hs, rfl, Step.isOk_typeAssert htargets (operand_of_legal hclient) _,
      hguard, hwrap, rfl, rfl, rfl, by simp⟩
  case function =>
    have haddr : identifierFault? "addr" = none := legal_ofList (by decide)
    refine isOk_bind_of_eq (isOk_declared hs.name) ?_
    refine isOk_bind (Function.isOk_new _ hname ?_) fun function _ ↦ rfl
    simp only [List.forall_mem_cons]
    exact ⟨⟨haddr, by decide⟩, ⟨hclient, GoType.spell_imported_ne _ _ _⟩, by simp⟩

theorem isOk_build (hs : s.Named) : (build s f ct).result.isOk = true := by
  have hclient := f.type_eq .transport (by decide : isWord "HTTPClient".toList = true)
  have hmethods (receiver : GoType) :
      (s.endpoints.zipIdx.mapM fun (e, i) ↦ method s ct receiver e i).isOk = true := by
    refine isOk_mapM fun ei hei ↦ isOk_method hs ?_ ei.2
    exact List.fst_mem_of_mem_zipIdx hei
  rw [result_build]
  refine isOk_bind_of_eq hclient ?_
  refine isOk_bind (Structure.isOk_new (hs.clientName ct)) fun start _ ↦ ?_
  refine isOk_bind (Structure.isOk_addField (legal_ofList (by decide)) _ _) fun withClient _ ↦ ?_
  refine isOk_bind (Structure.isOk_addField (legal_ofList (by decide)) _ _) fun fields _ ↦ ?_
  refine isOk_bind (isOk_newClient hs _ _ _) fun constructor _ ↦ ?_
  refine isOk_bind_of_eq (isOk_declared (hs.clientName ct)) ?_
  exact isOk_bind (hmethods _) fun methods _ ↦ rfl

end ClientStub

namespace Config

open Schema (Context File)

variable {c : Config} {ctx : Context} {s : Service} {data : ServerMetadata}

theorem isOk_addService {file index : Nat}
    (hs : Service.resolve ctx file index c.pathPrefix = .ok s) (hn : s.Named)
    (hd : identifierFault? data.descriptorVar = none) (g : GoFile) :
    (c.addService ctx file data g index).result.isOk = true := by
  have hadd : ∀ g, (c.addClients s g).result.isOk = true := by
    intro g
    unfold addClients
    split_ifs
    · refine Traced.isOk_foldlM (fun ct _ g ↦ ?_) g
      exact Traced.isOk_bind (ClientStub.isOk_build hn) fun client _ ↦ rfl
    · rfl
  unfold addService
  rw [hs]
  refine Traced.isOk_bind rfl fun s' hs' ↦ ?_
  cases hs'
  refine Traced.isOk_bind rfl fun _ _ ↦ ?_
  refine Traced.isOk_bind (Service.isOk_interface hn) fun i _ ↦ ?_
  refine Traced.isOk_bind (hadd _) fun withClients _ ↦ ?_
  exact Traced.isOk_bind (ServerStub.isOk_build hn hd) fun server _ ↦ rfl

theorem exists_served {f : File} {file position : Nat}
    (hfile : (GoFile.new ctx.package f.name).isOk = true)
    (hheader : (fileHeader ctx file (position = 0)).isOk = true)
    (hservices : ∀ index ∈ List.range f.services.length, ∀ g,
      (c.addService ctx file ⟨descriptorName position, version⟩ g index).result.isOk = true) :
    ∃ g, (c.served ctx f file position).result = .ok g := by
  refine exists_of_isOk (Traced.isOk_bind hfile fun start _ ↦ Traced.isOk_bind hheader
    fun header _ ↦ ?_)
  exact Traced.isOk_foldlM hservices _

end Config

end Stub

end RpcStubs
