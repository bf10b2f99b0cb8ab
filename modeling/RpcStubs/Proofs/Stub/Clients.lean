import RpcStubs.Proofs.Code.Inversion
import RpcStubs.Proofs.Stub.Links

namespace RpcStubs.Stub.ClientStub

open Text Layout

variable {P : Import → Prop} {f : Framework}

theorem yields_urlLiteral (s : Service) : Yields (urlLiteral s) (SoundSlice P) := by
  refine (yields_slice (P := P) true (usable_primitive .string)).bind fun start hstart ↦ ?_
  refine yields_foldlM (fun _ ↦ SoundSlice P) hstart fun _ value l hv hl ↦ ?_
  obtain ⟨e, -, rfl⟩ := List.mem_map.1 hv
  refine hl.push ?_ ?_
  · rw [url, String.toList_append]
    exact (flat_ofList (by decide)).append (flat_goQuoted e.name)
  · rw [url, String.toList_append]
    exact (leads_ofList (by decide)).append _

theorem yields_literal (structName : String) {value : String} (hv : Flat value.toList) :
    Yields (literal structName value) (SoundStruct P) := by
  refine (yields_usable_declared (P := P) structName).bind fun t ht ↦ ?_
  have hstart : SoundStruct P { type := t } := ⟨ht, by simp⟩
  refine (hstart.addField hv).bind fun l hl ↦ ?_
  exact (hl.1.addField (flat_ofList (by decide))).mono fun _ h ↦ h.1

theorem steps_urlBase {s : Service} (hn : Flat s.name.toList) (frames : List Frame) :
    Steps P frames (urlBase s) frames := by
  unfold urlBase
  split_ifs
  · exact .nil _
  · refine .cons (emits_defineCall (flatAll_of_isFlat (by decide))) (.cons ?_ (.nil _))
    refine emits_defineOperation (flat_ofList (by decide)) ?_
    rw [Service.pathPrefixConst, String.toList_append]
    exact hn.append (flat_ofList (by decide))

theorem yields_newClient (hl : Linked P f) {s : Service} (hn : Flat s.name.toList)
    (structName suffix : String) {httpClient : GoType} (hc : Usable P httpClient) :
    Yields (newClient s structName suffix httpClient) (SoundFunction P) := by
  refine (yields_urlLiteral (P := P) s).bind fun urls hurls ↦ ?_
  refine (yields_literal (P := P) structName (flat_ofList (by decide))).bind
    fun wrapped hwrapped ↦ ?_
  refine (yields_literal (P := P) structName (flat_ofList (by decide))).bind fun plain hplain ↦ ?_
  refine hl.httpClientPointer.bind fun pointer hpointer ↦ ?_
  have hreturn : Leads ("return".toList ++ [' ']) := leads_of_isLead (by decide)
  refine (yields_soundBody (P := P) fun frames ↦ (steps_urlBase hn frames).append ?_).bind
    fun body hbody ↦ ?_
  · refine .cons (emits_sliceLiteral hurls) ?_
    refine .cons (emits_typeAssert (flat_ofList (by decide)) hpointer) ?_
    refine .cons (emits_ifBegin (flat_ofList (by decide)) (flat_ofList (by decide))) ?_
    refine .cons (emits_assignCall (flatAll_of_isFlat (by decide))) ?_
    refine .cons (emits_structLiteral (flat_ofList (by decide)) hreturn hwrapped true) ?_
    refine .cons emits_close ?_
    exact .cons (emits_structLiteral (flat_ofList (by decide)) hreturn hplain true) (.nil _)
  refine (yields_usable_declared (P := P) s.name).bind fun result hresult ↦ ?_
  refine ((yields_build ?_ ?_ hbody).inBuilder _).bind fun f hf ↦ yields_pure (hf.2 _)
  · simp [hc, GoType.string, usable_primitive]
  · simpa using hresult

theorem yields_method (hl : Linked P f) (s : Service) (ct : Wire.ContentType) {receiver : GoType}
    (hr : Usable P receiver) {e : Endpoint} (he : SoundEndpoint P e) (i : Nat) :
    Yields (method s ct receiver e i) (SoundMethod P) := by
  have hindex : Flat ("c.urls[" ++ Nat.repr i ++ "]").toList := by
    have hw := (flat_repr i).wrap (o := '[') (c := ']') (by decide)
    have hlead : Flat "c.urls".toList := flat_ofList (by decide)
    have hsplit : ("c.urls[" ++ Nat.repr i ++ "]").toList =
        "c.urls".toList ++ '[' :: ((Nat.repr i).toList ++ [']']) := by
      simp
    rw [hsplit]
    exact hlead.append hw
  have hargs : FlatAll ["ctx", "c.client", "c.urls[" ++ Nat.repr i ++ "]", "in", "out"] :=
    .cons (flat_ofList (by decide)) (.cons (flat_ofList (by decide))
      (.cons hindex (flatAll_of_isFlat (by decide))))
  refine (yields_soundBody (P := P) fun frames ↦ ?_).bind fun body hbody ↦ ?_
  · refine .cons (emits_assignCall (flatAll_ctx_quoted _)) ?_
    refine .cons (emits_assignCall (flatAll_ctx_quoted _)) ?_
    refine .cons (emits_assignCall (flatAll_ctx_quoted _)) ?_
    refine .cons (emits_newInstance he.output) ?_
    refine .cons (emits_defineCall hargs) ?_
    exact .cons (emits_returnValues (flatAll_of_isFlat (by decide))) (.nil _)
  refine hl.contextType.bind fun context hcontext ↦ ?_
  refine (Layout.yields_method hr ?_ ?_ hbody).bind fun m hm ↦ yields_pure (hm.2 _)
  · simp [hcontext, usable_pointer he.input]
  · simp [usable_pointer he.output, GoType.error, usable_primitive]

structure SoundClient (P : Import → Prop) (c : ClientStub) : Prop where
  type : SoundStructure P c.type
  constructor : SoundFunction P c.constructor

theorem yields_buildQuietly (hl : Linked P f) {s : Service} (hs : SoundService P s)
    (hn : Flat s.name.toList) (ct : Wire.ContentType) :
    Yields (buildQuietly s f ct) (SoundClient P) := by
  refine (hl.type .transport "HTTPClient").bind fun httpClient hclient ↦ ?_
  refine (((yields_ofString _).inBuilder _).bind (S := fun t ↦ SoundStructure P (t.withComment
    (s.clientName ct ++ " wraps an http.client and sends " ++ ct.clientSuffix ++ " objects")))
    fun n _ ↦ yields_pure ⟨lined_wrapped _, by simp [Structure.withComment],
      by simp [Structure.withComment]⟩).bind fun start hstart ↦ ?_
  refine (yields_addField (P := P) _ hclient "client").bind fun first hfirst ↦ ?_
  refine (yields_addField (P := P) _ (usable_array (usable_primitive .string) _) "urls").bind
    fun fields hfields ↦ ?_
  refine (yields_newClient hl hn _ _ hclient).bind fun constructor hconstructor ↦ ?_
  refine (yields_usable_declared (P := P) _).bind fun receiver hreceiver ↦ ?_
  refine (yields_mapM_forall (S := SoundMethod P) fun p hp ↦ ?_).bind fun methods hmethods ↦ ?_
  · exact yields_method hl s ct (usable_pointer hreceiver)
      (hs.endpoints p.1 (List.fst_mem_of_mem_zipIdx hp)) p.2
  · exact yields_pure ⟨(hfields (hfirst hstart)).addMethods hmethods, hconstructor⟩

theorem declarations_of_buildQuietly {s : Service} {ct : Wire.ContentType} {client : ClientStub}
    (h : buildQuietly s f ct = .ok client) :
    ∃ httpClient : GoType,
      client.type.name.name = s.clientName ct ∧
      client.type.fields.map (fun d ↦ (d.name.map (·.name), d.type)) =
        [(some "client", httpClient), (some "urls", .array s.endpoints.length .string)] ∧
      newClient s (s.clientName ct) ct.clientSuffix httpClient = .ok client.constructor ∧
      s.endpoints.zipIdx.mapM (fun (e, i) ↦
        method s ct (.pointer (.named (s.clientName ct) none none)) e i) =
          .ok client.type.methods := by
  obtain ⟨httpClient, -, h⟩ := bind_eq_ok h
  obtain ⟨start, hstart, h⟩ := bind_eq_ok h
  obtain ⟨first, hfirst, h⟩ := bind_eq_ok h
  obtain ⟨fields, hfields, h⟩ := bind_eq_ok h
  obtain ⟨constructor, hconstructor, h⟩ := bind_eq_ok h
  obtain ⟨receiver, hreceiver, h⟩ := bind_eq_ok h
  obtain ⟨methods, hmethods, h⟩ := bind_eq_ok h
  cases h
  obtain rfl := GoType.eq_of_declared hreceiver
  obtain ⟨name, hname, hstart⟩ := bind_eq_ok hstart
  cases hstart
  obtain ⟨d₁, hd₁, htype₁, rfl⟩ := Structure.eq_of_addField hfirst
  obtain ⟨d₂, hd₂, htype₂, rfl⟩ := Structure.eq_of_addField hfields
  refine ⟨httpClient, ?_, ?_, hconstructor, ?_⟩
  · rw [Structure.name_addMethods]
    exact name_of_ofString (eq_ok_of_inBuilder hname)
  · rw [Structure.fields_addMethods]
    simp [Structure.withComment, hd₁, hd₂, htype₁, htype₂]
  · rw [Structure.methods_addMethods]
    exact hmethods

end RpcStubs.Stub.ClientStub
