import RpcStubs.Proofs.Code.Inversion
import RpcStubs.Proofs.Stub.Links

namespace RpcStubs.Stub.ServerStub

open Text Layout

variable {P : Import → Prop} {f : Framework} {frames : List Frame}

theorem steps_writeError {err : String} (h : Flat err.toList) :
    Steps P frames (writeError err) frames :=
  .cons (emits_call (.cons (flat_ofList (by decide))
    (.cons (flat_ofList (by decide)) (.cons h flatAll_nil)))) (.nil _)

theorem steps_writeErrorAndReturn {err : String} (h : Flat err.toList) :
    Steps P frames (writeErrorAndReturn err) frames :=
  (steps_writeError h).append (.cons emits_ret (.nil _))

theorem steps_badRoute (format : String) {value : String} (h : Flat value.toList) :
    Steps P frames (badRoute format value) frames := by
  refine .append ?_ (steps_writeError (flat_ofList (by decide)))
  refine .cons (emits_defineCall (.cons (flat_goQuoted format) (.cons h flatAll_nil))) ?_
  exact .cons (emits_defineCall (flatAll_of_isFlat (by decide))) (.nil _)

theorem steps_failOnError : Steps P frames failOnError frames :=
  .append (.append (.cons (emits_ifBegin (flat_ofList (by decide))
    (flat_ofList (by decide))) (.nil _)) (steps_writeErrorAndReturn (flat_ofList (by decide))))
    (.cons emits_close (.nil _))

theorem flat_of_eq_goQuoted {s t : String} (h : s = goQuoted t) : Flat s.toList := by
  rw [h]
  exact flat_goQuoted t

theorem steps_logAndFail {err : String} (h : Flat err.toList) {opener : Opener} :
    Steps P (⟨'\x7b', opener⟩ :: frames) (logAndFail err) frames :=
  have hformat : Flat "\"%v\"".toList := flat_of_eq_goQuoted (t := "%v") (by decide)
  .append (.append (.cons (emits_call (.cons hformat (.cons h flatAll_nil))) (.nil _))
    (steps_writeErrorAndReturn h)) (.cons emits_close (.nil _))

theorem yields_handlerParams (hl : Linked P f) :
    Yields handlerParams fun params ↦ ∀ p ∈ params, Usable P p.type := by
  refine hl.contextType.bind fun context hcontext ↦ ?_
  refine hl.responseWriter.bind fun writer hwriter ↦ ?_
  refine hl.requestPointer.bind fun request hrequest ↦ yields_pure ?_
  simp [hcontext, hwriter, hrequest]

theorem yields_pathPrefixConst {s : Service} (hn : Flat s.name.toList) :
    Yields (pathPrefixConst s) (SoundConst P) := by
  have hname : '\n' ∉ s.pathPrefixConst.toList :=
    not_mem_append hn.single (not_mem_ofList (by decide))
  refine (yields_const (usable_primitive .string) (flat_goQuoted s.pathPrefix) (c := '"') ?_
    (by decide) (lined_ofLines ?_)).bind fun d hd ↦ yields_pure hd
  · rw [goQuoted, String.toList_ofList, List.getLast?_append]
    rfl
  · simp only [List.forall_mem_cons, List.not_mem_nil, false_imp_iff, implies_true, and_true]
    refine ⟨?_, ?_, not_mem_ofList (by decide)⟩
    · exact not_mem_append (not_mem_append (not_mem_append hname (not_mem_ofList (by decide)))
        hn.single) (not_mem_ofList (by decide))
    · exact not_mem_append (not_mem_append (not_mem_ofList (by decide)) hname)
        (not_mem_ofList (by decide))

/-- The literal in the constructor has a field of the service's name. -/
theorem yields_newServer (hl : Linked P f) (s : Service) (structName : String)
    {hooks logError : GoType} (hh : Usable P hooks) (he : Usable P logError) :
    Yields (newServer s f structName hooks logError) fun function ↦
      SoundFunction P function ∧ identifierFault? s.name = none := by
  refine (yields_usable_declared (P := P) structName).bind fun t ht ↦ ?_
  have hstart : SoundStruct P { type := t } := ⟨ht, by simp⟩
  refine (hstart.addField (flat_ofList (by decide))).bind fun first hfirst ↦ ?_
  refine (hfirst.1.addField (flat_ofList (by decide))).bind fun literal hliteral ↦ ?_
  have hserver : Leads ("server :=".toList ++ [' ']) := leads_of_isLead (by decide)
  refine (yields_soundBody (P := P) fun frames ↦ ?_).bind fun body hbody ↦ ?_
  · refine .cons (emits_structLiteral (flat_ofList (by decide)) hserver hliteral.1 true) ?_
    refine .cons (emits_ifBlock (flat_ofList (by decide)) (flat_ofList (by decide)) (by decide)) ?_
    refine .cons (emits_assignField (flat_ofList (by decide))) ?_
    refine .cons emits_elseBegin ?_
    refine .cons (emits_assignField (flat_ofList (by decide))) ?_
    refine .cons emits_close ?_
    exact .cons (emits_returnValues (flatAll_of_isFlat (by decide))) (.nil _)
  refine (yields_usable_declared (P := P) s.name).bind fun service hservice ↦ ?_
  refine (hl.type .server "Server").bind fun server hserver ↦ ?_
  refine ((yields_build ?_ ?_ hbody).inBuilder _).bind fun f hf ↦ yields_pure ⟨hf.2 _, hfirst.2⟩
  · simp [hservice, hh, usable_variadic he]
  · simpa using hserver

theorem yields_errorWriter (hl : Linked P f) {receiver : GoType} (hr : Usable P receiver) :
    Yields (errorWriter receiver) (SoundMethod P) := by
  refine (yields_soundBody (P := P) fun frames ↦ ?_).bind fun body hbody ↦ ?_
  · exact .cons (emits_call (flatAll_of_isFlat (by decide))) (.nil _)
  refine hl.contextType.bind fun context hcontext ↦ ?_
  refine hl.responseWriter.bind fun writer hwriter ↦ ?_
  refine (Layout.yields_method hr ?_ (by simp) hbody).bind fun m hm ↦ yields_pure hm.1
  simp [hcontext, hwriter, GoType.error, usable_primitive]

theorem yields_routes (s : Service) : Yields (routes s) (SoundSwitch P) := by
  refine (yields_onValue (P := P) (flat_ofList (by decide)) (by decide)).bind
    fun start hstart ↦ ?_
  refine (yields_foldlM (fun _ ↦ SoundSwitch P) hstart fun _ e routes _ h ↦ ?_).bind
    fun cases hcases ↦ ?_
  · refine (yields_soundBody (P := P) fun frames ↦ ?_).bind fun body hbody ↦
      h.addCase (.cons (flat_goQuoted _) flatAll_nil) hbody
    exact .cons (emits_call (flatAll_of_isFlat (by decide))) (.cons emits_ret (.nil _))
  · refine (yields_soundBody (P := P) fun frames ↦ ?_).bind fun fallback hfallback ↦
      yields_pure (hcases.withFallback hfallback)
    exact (steps_badRoute _ (flat_ofList (by decide))).append (.cons emits_ret (.nil _))

theorem yields_handler (hl : Linked P f) (s : Service) {receiver : GoType}
    (hr : Usable P receiver) : Yields (handler s receiver) (SoundMethod P) := by
  refine (yields_routes (P := P) s).bind fun routes hroutes ↦ ?_
  refine (yields_soundBody (P := P) fun frames ↦ ?_).bind fun body hbody ↦ ?_
  · refine .append (.append (.append (.append ?_ steps_failOnError) (.cons (emits_ifBegin
      (flat_ofList (by decide)) (flat_ofList (by decide))) (.nil _)))
      (steps_badRoute _ (flat_ofList (by decide))))
      (.cons emits_ret (.cons emits_close (.cons (emits_switch hroutes) (.nil _))))
    refine .cons (emits_defineCall flatAll_nil) ?_
    refine .cons (emits_assignCall (flatAll_ctx_quoted _)) ?_
    refine .cons (emits_assignCall (flatAll_ctx_quoted _)) ?_
    refine .cons (emits_assignCall (flatAll_of_isFlat (by decide))) ?_
    refine .cons (emits_declareVar (usable_primitive _)) ?_
    exact .cons (emits_assignCall (flatAll_of_isFlat (by decide))) (.nil _)
  refine hl.responseWriter.bind fun writer hwriter ↦ ?_
  refine hl.requestPointer.bind fun request hrequest ↦ ?_
  refine (Layout.yields_method hr ?_ (by simp) hbody).bind fun m hm ↦ yields_pure (hm.2 _)
  simp [hwriter, hrequest]

/-- The block of an `if` takes branches if its condition ends in a quoted text. -/
theorem blockFrame_goQuoted {lead : String} (hl : lead = "if " ∨ lead = "\x7d else if ")
    (left value : String) :
    blockFrame (lead ++ (left ++ goQuoted value)) = ⟨'\x7b', .ifBlock⟩ := by
  obtain ⟨body, hbody⟩ : ∃ body, (goQuoted value).toList = body ++ ['"'] :=
    ⟨_, by rw [goQuoted, String.toList_ofList]⟩
  have htext : (lead ++ (left ++ goQuoted value)).toList =
      lead.toList ++ (left.toList ++ body) ++ ['"'] := by simp [hbody]
  have hkind (rest : List Char) : Opener.ofHead (lead.toList ++ rest) = .ifBlock := by
    rcases hl with rfl | rfl <;> rfl
  have htight : Tight (lead.toList ++ (left.toList ++ body) ++ ['"']) := by
    refine ⟨fun c hc ↦ ?_, fun c hc ↦ ?_⟩
    · rcases hl with rfl | rfl <;> cases hc <;> decide
    · rw [List.getLast?_append] at hc
      cases hc
      decide
  rw [blockFrame, htext, of_brace_at_gap _ (blanks_singleton rfl) (by simp), htight.trim_eq,
    isSuffixOf_append_sep (by decide), List.append_assoc, hkind]
  rfl

/-- The first branch opens the chain, every other one follows a branch. -/
theorem steps_encodingBranch (handlerName : String) (ct : Wire.ContentType) (n : Nat) :
    Steps P (if n = 0 then frames else ⟨'\x7b', .ifBlock⟩ :: frames)
      (encodingBranch handlerName ct n) (⟨'\x7b', .ifBlock⟩ :: frames) := by
  have hbinding : FlatAll [(binding ct).decoder, (binding ct).encoder] := by
    cases ct <;> exact .cons (flat_ofList (by decide)) (.cons (flat_ofList (by decide)) flatAll_nil)
  have hargs : FlatAll ["ctx", "resp", "req", (binding ct).decoder, (binding ct).encoder] :=
    .cons (flat_ofList (by decide)) (.cons (flat_ofList (by decide))
      (.cons (flat_ofList (by decide)) hbinding))
  refine .cons ?_ (.cons (emits_call hargs) (.cons emits_ret (.nil _)))
  split_ifs with hn
  · exact emits_ifBlock (flat_ofList (by decide)) (flat_goQuoted _)
      (blockFrame_goQuoted (.inl rfl) _ _)
  · exact emits_elseIfBlock (flat_ofList (by decide)) (flat_goQuoted _)
      (blockFrame_goQuoted (.inr rfl) _ _)

theorem steps_laterBranches (handlerName : String) (cts : List Wire.ContentType) (n : Nat) :
    Steps P (⟨'\x7b', .ifBlock⟩ :: frames)
      ((cts.zipIdx (n + 1)).flatMap fun (ct, n) ↦ encodingBranch handlerName ct n)
      (⟨'\x7b', .ifBlock⟩ :: frames) := by
  induction cts generalizing n with
  | nil => exact .nil _
  | cons ct cts ih =>
    rw [List.zipIdx_cons, List.flatMap_cons]
    exact (steps_encodingBranch handlerName ct (n + 1)).append (ih (n + 1))

theorem steps_encodingBranches (handlerName : String) {cts : List Wire.ContentType}
    (h : cts ≠ []) :
    Steps P frames (cts.zipIdx.flatMap fun (ct, n) ↦ encodingBranch handlerName ct n)
      (⟨'\x7b', .ifBlock⟩ :: frames) := by
  cases cts with
  | nil => exact absurd rfl h
  | cons ct cts =>
    rw [List.zipIdx_cons, List.flatMap_cons]
    exact (steps_encodingBranch handlerName ct 0).append (steps_laterBranches handlerName cts 0)

theorem yields_dispatcher (hl : Linked P f) {receiver : GoType} (hr : Usable P receiver)
    {cts : List Wire.ContentType} (hc : cts ≠ []) (e : Endpoint) :
    Yields (dispatcher receiver cts e) (SoundMethod P) := by
  have hindex : FlatAll ["header", "\";\""] :=
    .cons (flat_ofList (by decide))
      (.cons (flat_of_eq_goQuoted (t := ";") (by decide)) flatAll_nil)
  refine (yields_soundBody (P := P) fun frames ↦ ?_).bind fun body hbody ↦ ?_
  · refine .append (.append (.append (.append ?_ (steps_encodingBranches _ hc))
      (.cons emits_elseBegin (.nil _))) (steps_badRoute _ (flat_ofList (by decide))))
      (.cons emits_close (.nil _))
    refine .cons (emits_defineCall (flatAll_of_isFlat (by decide))) ?_
    refine .cons (emits_defineCall hindex) ?_
    refine .cons (emits_ifBegin (flat_ofList (by decide)) (flat_ofList (by decide))) ?_
    refine .cons (emits_assignCall (flatAll_of_isFlat (by decide))) ?_
    refine .cons emits_close ?_
    refine .cons (emits_defineCall (flatAll_of_isFlat (by decide))) ?_
    exact .cons (emits_assignCall (flatAll_of_isFlat (by decide))) (.nil _)
  refine (yields_handlerParams hl).bind fun params hparams ↦ ?_
  exact (Layout.yields_method hr hparams (by simp) hbody).bind fun m hm ↦ yields_pure (hm.2 _)

theorem yields_endpointCall {e : Endpoint} (he : SoundEndpoint P e) :
    Yields (endpointCall e) (SoundFuncLiteral P) := by
  have hpanic : FlatAll ["\"Internal service panic\""] :=
    .cons (flat_of_eq_goQuoted (t := "Internal service panic") (by decide)) flatAll_nil
  have hresults : ∀ t ∈ [GoType.pointer e.output, .error], Usable P t := by
    simp [usable_pointer he.output, GoType.error, usable_primitive]
  refine (yields_soundBody (P := P) fun frames ↦ ?_).bind fun onPanic hpanic ↦ ?_
  · exact .append (.cons (emits_defineCall hpanic) (.nil _))
      (steps_writeError (flat_ofList (by decide)))
  refine (yields_funcLiteral (P := P) (by simp) hresults).bind fun f hf ↦ ?_
  refine (yields_soundBody (P := P) fun frames ↦ ?_).bind fun body hbody ↦
    yields_pure (hf body hbody)
  refine .cons (emits_recoverGuard hpanic) ?_
  exact .cons (emits_returnCall (flatAll_of_isFlat (by decide))) (.nil _)

theorem yields_contentHandler (hl : Linked P f) {receiver : GoType} (hr : Usable P receiver)
    {e : Endpoint} (he : SoundEndpoint P e) :
    Yields (contentHandler receiver f e) (SoundMethod P) := by
  have hargs : FlatAll ["ctx", "req", "reqContent"] := flatAll_of_isFlat (by decide)
  have hresp : FlatAll ["ctx", "resp", "respContent"] := flatAll_of_isFlat (by decide)
  have herr : Flat "err".toList := flat_ofList (by decide)
  have hnil : Flat "nil".toList := flat_ofList (by decide)
  refine (yields_flat_callExpr hargs).bind fun decode hdecode ↦ ?_
  refine (yields_endpointCall he).bind fun call hcall ↦ ?_
  refine (yields_flat_callExpr hresp).bind fun encode hencode ↦ ?_
  refine (yields_soundBody (P := P) fun frames ↦ ?_).bind fun body hbody ↦ ?_
  · refine .append (.append (.append ?_ (.cons (emits_assignCall (flatAll_of_isFlat (by decide)))
      (.cons (emits_ifScoped hencode herr hnil) (.nil _)))) (steps_logAndFail herr))
      (.cons (emits_call (flatAll_of_isFlat (by decide))) (.nil _))
    refine .append (.append ?_ (.cons (emits_ifBegin (flat_ofList (by decide)) hnil)
      (.cons (emits_defineCall (.cons (flat_goQuoted _) flatAll_nil)) (.nil _))))
      (steps_logAndFail (flat_ofList (by decide)))
    refine .append (.append ?_ (.cons (emits_nestedFunc hcall)
      (.cons (emits_defineCall flatAll_nil) (.nil _)))) steps_failOnError
    refine .append (.append ?_ (.cons (emits_deferCall (flatAll_of_isFlat (by decide)))
      (.cons (emits_newInstance he.input) (.cons (emits_ifScoped hdecode herr hnil)
      (.nil _))))) (steps_logAndFail herr)
    refine .append (.cons (emits_declareVar (usable_primitive _)) ?_) steps_failOnError
    refine .cons (emits_assignCall (flatAll_ctx_quoted _)) ?_
    exact .cons (emits_assignCall (flatAll_of_isFlat (by decide))) (.nil _)
  refine (yields_handlerParams hl).bind fun params hparams ↦ ?_
  refine (hl.type .transport "DecodeRequestFunc").bind fun decoder hdecoder ↦ ?_
  refine (hl.type .transport "EncodeResponseFunc").bind fun encoder hencoder ↦ ?_
  refine (Layout.yields_method hr ?_ (by simp) hbody).bind fun m hm ↦ yields_pure (hm.2 _)
  simp only [List.forall_mem_append, List.forall_mem_cons, List.not_mem_nil, false_imp_iff,
    implies_true, and_true]
  exact ⟨hparams, hdecoder, hencoder⟩

theorem yields_descriptorAccessor (s : Service) {receiver : GoType} (hr : Usable P receiver)
    {data : ServerMetadata} (hd : Flat data.descriptorVar.toList) :
    Yields (descriptorAccessor s receiver data) (SoundMethod P) := by
  refine (yields_soundBody (P := P) fun frames ↦ ?_).bind fun body hbody ↦ ?_
  · exact .cons (emits_returnValues (.cons hd (.cons (flat_repr s.index) flatAll_nil))) (.nil _)
  refine (Layout.yields_method hr (by simp) ?_ hbody).bind fun m hm ↦ yields_pure (hm.2 _)
  simp [usable_slice, usable_primitive]

theorem yields_versionAccessor {receiver : GoType} (hr : Usable P receiver)
    (data : ServerMetadata) : Yields (versionAccessor receiver data) (SoundMethod P) := by
  refine (yields_soundBody (P := P) fun frames ↦ ?_).bind fun body hbody ↦ ?_
  · exact .cons (emits_returnValues (.cons (flat_goQuoted _) flatAll_nil)) (.nil _)
  refine (Layout.yields_method hr (by simp) ?_ hbody).bind fun m hm ↦ yields_pure (hm.2 _)
  simp [GoType.string, usable_primitive]

theorem yields_methods (hl : Linked P f) {s : Service} (hs : SoundService P s) {receiver : GoType}
    (hr : Usable P receiver) {cts : List Wire.ContentType} (hc : cts ≠ []) {data : ServerMetadata}
    (hd : Flat data.descriptorVar.toList) :
    Yields (methods s receiver f cts data) fun ms ↦ ∀ m ∈ ms, SoundMethod P m := by
  refine (yields_errorWriter hl hr).bind fun writer hwriter ↦ ?_
  refine (yields_handler hl s hr).bind fun handler hhandler ↦ ?_
  refine (yields_mapM_forall (S := fun ms : List Method ↦ ∀ m ∈ ms, SoundMethod P m)
    fun e he ↦ ?_).bind fun served hserved ↦ ?_
  · refine (yields_dispatcher hl hr hc e).bind fun dispatcher hdispatcher ↦ ?_
    refine (yields_contentHandler hl hr (hs.endpoints e he)).bind fun content hcontent ↦ ?_
    exact yields_pure (by simp [hdispatcher, hcontent])
  · refine (yields_descriptorAccessor s hr hd).bind fun descriptor hdescriptor ↦ ?_
    refine (yields_versionAccessor hr data).bind fun version hversion ↦ yields_pure ?_
    simp only [List.forall_mem_append, List.forall_mem_cons, List.not_mem_nil, false_imp_iff,
      implies_true, and_true, List.forall_mem_flatten]
    exact ⟨⟨⟨hwriter, hhandler⟩, hserved⟩, hdescriptor, hversion⟩

theorem yields_declarations (hl : Linked P f) {s : Service} (hs : SoundService P s)
    {cts : List Wire.ContentType} (hc : cts ≠ []) {data : ServerMetadata}
    (hd : Flat data.descriptorVar.toList) :
    Yields (declarations s f cts data) fun d ↦ SoundStructure P d.1 ∧ SoundFunction P d.2 := by
  refine (yields_usable_declared (P := P) _).bind fun receiver hreceiver ↦ ?_
  refine (hl.type .hooks "ServerHooks").bind fun hooks hhooks ↦ ?_
  refine (hl.type .transport "LogErrorFunc").bind fun logError hlog ↦ ?_
  refine (((yields_ofString _).inBuilder _).bind (S := fun t ↦ SoundStructure P (t.withComment
    (s.serverName ++ " wraps an endpoint and implements http.Handler.")))
    fun n _ ↦ yields_pure ⟨lined_wrapped _, by simp [Structure.withComment],
      by simp [Structure.withComment]⟩).bind fun start hstart ↦ ?_
  refine (yields_declared s.name).bind fun service hservice ↦ ?_
  refine (yields_addField (P := P) _ (usable_pointer hhooks) "hooks").bind fun first hfirst ↦ ?_
  refine (yields_addField (P := P) _ hlog "logErrorFunc").bind fun fields hfields ↦ ?_
  refine (yields_newServer hl s _ (usable_pointer hhooks) hlog).bind
    fun constructor hconstructor ↦ ?_
  refine (yields_methods hl hs (usable_pointer hreceiver) hc hd).bind fun ms hms ↦ yields_pure ?_
  obtain ⟨rfl, hword⟩ := hservice
  -- Only the constructor refuses a service whose name is a keyword.
  have hname := tame_of_isWord hword (not_mem_clauseWords_of_legal hconstructor.2)
  have hembedded := hstart.addEmbedded (usable_declared hword) hname
  exact ⟨(hfields (hfirst hembedded)).addMethods hms, hconstructor.1⟩

structure SoundServer (P : Import → Prop) (s : ServerStub) : Prop where
  pathPrefix : SoundConst P s.pathPrefix
  type : SoundStructure P s.type
  constructor : SoundFunction P s.constructor

theorem declarations_of_build {s : Service} {cts : List Wire.ContentType} {data : ServerMetadata}
    {server : ServerStub} (h : (build s f cts data).result = .ok server) :
    pathPrefixConst s = .ok server.pathPrefix ∧ ∃ hooks logError : GoType,
      server.type.name.name = s.serverName ∧
      server.type.fields.map (fun d ↦ (d.name.map (·.name), d.type)) =
        [(none, .named s.name none none), (some "hooks", .pointer hooks),
          (some "logErrorFunc", logError)] ∧
      newServer s f s.serverName (.pointer hooks) logError = .ok server.constructor ∧
      methods s (.pointer (.named s.serverName none none)) f cts data =
        .ok server.type.methods := by
  rw [build, Traced.result_bind] at h
  obtain ⟨d, hd, h⟩ := bind_eq_ok h
  rw [Traced.result_bind] at h
  obtain ⟨-, -, h⟩ := bind_eq_ok h
  rw [Traced.result_bind] at h
  obtain ⟨const, hconst, h⟩ := bind_eq_ok h
  cases h
  obtain ⟨receiver, hreceiver, hd⟩ := bind_eq_ok hd
  obtain ⟨hooks, -, hd⟩ := bind_eq_ok hd
  obtain ⟨logError, -, hd⟩ := bind_eq_ok hd
  obtain ⟨start, hstart, hd⟩ := bind_eq_ok hd
  obtain ⟨embedded, hembedded, hd⟩ := bind_eq_ok hd
  obtain ⟨first, hfirst, hd⟩ := bind_eq_ok hd
  obtain ⟨fields, hfields, hd⟩ := bind_eq_ok hd
  obtain ⟨constructor, hconstructor, hd⟩ := bind_eq_ok hd
  obtain ⟨ms, hms, hd⟩ := bind_eq_ok hd
  cases hd
  obtain rfl := GoType.eq_of_declared hreceiver
  obtain rfl := GoType.eq_of_declared hembedded
  obtain ⟨name, hname, hstart⟩ := bind_eq_ok hstart
  cases hstart
  obtain ⟨d₁, hd₁, htype₁, rfl⟩ := Structure.eq_of_addField hfirst
  obtain ⟨d₂, hd₂, htype₂, rfl⟩ := Structure.eq_of_addField hfields
  refine ⟨hconst, hooks, logError, ?_, ?_, hconstructor, ?_⟩
  · rw [Structure.name_addMethods]
    exact name_of_ofString (eq_ok_of_inBuilder hname)
  · rw [Structure.fields_addMethods]
    simp [Structure.withComment, Structure.addEmbedded, hd₁, hd₂, htype₁, htype₂]
  · rw [Structure.methods_addMethods]
    exact hms

theorem methods_of_build {s : Service} {cts : List Wire.ContentType} {data : ServerMetadata}
    {server : ServerStub} (h : (build s f cts data).result = .ok server) :
    pathPrefixConst s = .ok server.pathPrefix ∧
      ∃ receiver, methods s receiver f cts data = .ok server.type.methods := by
  obtain ⟨hconst, -, -, -, -, -, hmethods⟩ := declarations_of_build h
  exact ⟨hconst, _, hmethods⟩

theorem methods_eq_ok {s : Service} {receiver : GoType} {cts : List Wire.ContentType}
    {data : ServerMetadata} {ms : List Method} (h : methods s receiver f cts data = .ok ms) :
    ∃ writer serve served descriptor version,
      ms = [writer, serve] ++ served.flatten ++ [descriptor, version] ∧
      errorWriter receiver = .ok writer ∧ handler s receiver = .ok serve ∧
      s.endpoints.mapM (endpointMethods receiver f cts) = .ok served ∧
      descriptorAccessor s receiver data = .ok descriptor ∧
      versionAccessor receiver data = .ok version := by
  obtain ⟨writer, hwriter, h⟩ := bind_eq_ok h
  obtain ⟨serve, hserve, h⟩ := bind_eq_ok h
  obtain ⟨served, hserved, h⟩ := bind_eq_ok h
  obtain ⟨descriptor, hdescriptor, h⟩ := bind_eq_ok h
  obtain ⟨version, hversion, h⟩ := bind_eq_ok h
  cases h
  exact ⟨writer, serve, served, descriptor, version, rfl, hwriter, hserve, hserved, hdescriptor,
    hversion⟩

/-- The method that writes errors brings in two standard packages. -/
theorem mem_imports_of_build {s : Service} {cts : List Wire.ContentType} {data : ServerMetadata}
    {server : ServerStub} (h : (build s f cts data).result = .ok server) :
    .plain "context" ∈ server.type.imports ∧ .plain "net/http" ∈ server.type.imports := by
  obtain ⟨-, receiver, hmethods⟩ := methods_of_build h
  obtain ⟨writer, _, _, _, _, hms, hwriter, -⟩ := methods_eq_ok hmethods
  have hmem : writer ∈ server.type.methods := by
    rw [hms]
    simp
  have himports {i : Import} (hi : i ∈ writer.imports) : i ∈ server.type.imports := by
    rw [Structure.imports, OrderedSet.mem_ofList, List.mem_append]
    exact .inr (List.mem_flatMap.2 ⟨writer, hmem, hi⟩)
  obtain ⟨body, -, hwriter⟩ := bind_eq_ok hwriter
  obtain ⟨context, hcontext, hwriter⟩ := bind_eq_ok hwriter
  obtain ⟨response, hresponse, hwriter⟩ := bind_eq_ok hwriter
  obtain ⟨m, hm, hwriter⟩ := bind_eq_ok hwriter
  obtain ⟨receiver, name, -, -, rfl⟩ := Method.eq_of_new hm
  cases hwriter
  cases hcontext
  cases hresponse
  have hsignature {i : Import} {m : Method} (hi : ∃ p ∈ m.function.params, i ∈ p.type.origins) :
      i ∈ (m.withBody body).imports :=
    OrderedSet.mem_union.2 (.inl (OrderedSet.mem_union.2 (.inl (mem_signatureImports.2 (.inl hi)))))
  constructor
  · exact himports (hsignature (by simp [GoType.origins]))
  · exact himports (hsignature (by simp [GoType.origins]))

end RpcStubs.Stub.ServerStub
