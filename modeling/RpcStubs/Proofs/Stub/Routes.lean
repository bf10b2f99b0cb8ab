import RpcStubs.Proofs.Code.Inversion
import RpcStubs.Proofs.Stub.Generation

namespace RpcStubs

namespace Wire

theorem append_cons_inj {a a' b b' : List Char} {c : Char} (h : a ++ c :: b = a' ++ c :: b')
    (hb : c ∉ b) (hb' : c ∉ b') : a = a' ∧ b = b' := by
  rcases List.append_eq_append_iff.1 h with ⟨l, rfl, hl⟩ | ⟨l, rfl, hl⟩
  · cases l with
    | nil => exact ⟨by simp, (List.cons.inj hl).2⟩
    | cons d l =>
      obtain ⟨-, rfl⟩ := List.cons.inj hl
      simp at hb
  · cases l with
    | nil => exact ⟨by simp, (List.cons.inj hl).2.symm⟩
    | cons d l =>
      obtain ⟨-, rfl⟩ := List.cons.inj hl
      simp at hb'

theorem toList_fullServiceName {package : String} (hp : package.toList ≠ []) (service : String) :
    (fullServiceName package service).toList = package.toList ++ '.' :: service.toList := by
  have hne : ¬package.isEmpty = true := by
    rw [String.isEmpty_iff]
    rintro rfl
    exact hp rfl
  rw [fullServiceName, if_neg hne]
  simp

theorem fullServiceName_inj {package service package' service' : String}
    (h : fullServiceName package service = fullServiceName package' service')
    (hs : '.' ∉ service.toList) (hs' : '.' ∉ service'.toList) :
    package = package' ∧ service = service' := by
  have hnone {service : String} {package : String} (hp : package.toList = []) :
      (fullServiceName package service).toList = service.toList := by
    rw [fullServiceName, if_pos (String.isEmpty_iff.2 (String.toList_inj.1 hp))]
  rw [← String.toList_inj] at h
  simp only [← String.toList_inj]
  by_cases hp : package.toList = [] <;> by_cases hp' : package'.toList = []
  · rw [hnone hp, hnone hp'] at h
    exact ⟨hp.trans hp'.symm, h⟩
  · rw [hnone hp, toList_fullServiceName hp'] at h
    simp [h] at hs
  · rw [toList_fullServiceName hp, hnone hp'] at h
    simp [← h] at hs'
  · rw [toList_fullServiceName hp, toList_fullServiceName hp'] at h
    exact append_cons_inj h hs hs'

/-- A path below a root names its method, its service and its package. -/
theorem methodPath_inj {root package service method package' service' method' : String}
    (h : methodPath root (fullServiceName package service) method =
      methodPath root (fullServiceName package' service') method')
    (hm : '/' ∉ method.toList) (hm' : '/' ∉ method'.toList)
    (hs : '.' ∉ service.toList) (hs' : '.' ∉ service'.toList) :
    package = package' ∧ service = service' ∧ method = method' := by
  rw [← String.toList_inj] at h
  simp only [methodPath, pathPrefix, String.toList_append, List.append_assoc,
    List.append_cancel_left_eq] at h
  obtain ⟨hfull, hmethod⟩ := append_cons_inj h hm hm'
  obtain ⟨hpackage, hservice⟩ := fullServiceName_inj (String.toList_inj.1 hfull) hs hs'
  exact ⟨hpackage, hservice, String.toList_inj.1 hmethod⟩

end Wire

namespace Stub

def escaped? (c : Char) : Option Char :=
  if c = '"' then some '"'
  else if c = '\\' then some '\\'
  else if c = 'n' then some '\n'
  else if c = 't' then some '\t'
  else none

def readQuoted : List Char → Option (List Char)
  | [] => none
  | '\\' :: c :: rest => return (← escaped? c) :: (← readQuoted rest)
  | c :: rest =>
    if c = '"' then if rest.isEmpty then some [] else none
    else if c = '\\' || c = '\n' then none
    else (readQuoted rest).map (c :: ·)

/-- The text that a string literal of Go stands for. -/
def goUnquoted? (literal : String) : Option String :=
  match literal.toList with
  | '"' :: rest => (readQuoted rest).map String.ofList
  | _ => none

theorem readQuoted_quoted (s : List Char) :
    readQuoted (s.flatMap quoteChar ++ ['"']) = some s := by
  induction s with
  | nil => rfl
  | cons c s ih =>
    rw [List.flatMap_cons, quoteChar, List.append_assoc]
    split_ifs with hquote hslash hnewline htab
    · subst hquote
      simp [readQuoted, escaped?, ih]
    · subst hslash
      simp [readQuoted, escaped?, ih]
    · subst hnewline
      simp [readQuoted, escaped?, ih]
    · subst htab
      simp [readQuoted, escaped?, ih]
    · -- any other character stands for itself
      rw [List.singleton_append, readQuoted, if_neg hquote, if_neg (by simp [hslash, hnewline]), ih]
      · rfl
      · rintro d rest hd
        exact absurd hd hslash

theorem goUnquoted?_goQuoted (s : String) : goUnquoted? (goQuoted s) = some s := by
  simp [goUnquoted?, goQuoted, readQuoted_quoted]

namespace ClientStub

variable {s : Service} {f : Framework} {ct : Wire.ContentType} {client : ClientStub}

/-- The constructor's list of `n` URLs. Where there are any, they start from the base that a
constant names, and both clients that it can return keep the list as their field. -/
structure Lists (client : ClientStub) (const : String) (urls : SliceLiteral) (n : Nat) : Prop where
  name : urls.name.name = "urls"
  type : urls.type = .array n .string
  length : urls.values.length = n
  fields : ∃ httpClient, client.type.fields.map (fun d ↦ (d.name.map (·.name), d.type)) =
    [(some "client", httpClient), (some "urls", .array n .string)]
  body : ∃ pointer redirectless plain, client.constructor.body.Spells
      ((if n = 0 then [] else [
        .defineCall ["URLBase"] "transport.UrlBase" ["addr"],
        .defineOperation "prefix" "URLBase" .add const]) ++ [
      .sliceLiteral urls,
      .typeAssert ["httpClient", "ok"] "client" pointer,
      .ifBegin "ok" .equal "true",
      .assignCall ["httpClient"] "transport.WithoutRedirects" ["httpClient"],
      .structLiteral "return" redirectless true,
      .close,
      .structLiteral "return" plain true]) ∧
    redirectless.fields = [("client", "httpClient"), ("urls", "urls")] ∧
    plain.fields = [("client", "client"), ("urls", "urls")]

/-- The method at a position has the name and sends to the URL at that position. -/
def Sends (client : ClientStub) (ct : Wire.ContentType) (i : Nat) (name : String) : Prop :=
  ∃ m steps, client.type.methods[i]? = some m ∧ m.name = name ∧ m.function.body.Spells steps ∧ [
    .defineCall ["err"] (binding ct).request
      ["ctx", "c.client", "c.urls[" ++ Nat.repr i ++ "]", "in", "out"],
    .returnValues ["out", "err"]] <:+ steps

theorem eq_of_urlLiteral {urls : SliceLiteral} (h : urlLiteral s = .ok urls) :
    urls.name.name = "urls" ∧ urls.type = .array s.endpoints.length .string ∧
      urls.values = s.endpoints.map url := by
  obtain ⟨start, hstart, h⟩ := bind_eq_ok h
  obtain ⟨i, hi, hstart⟩ := bind_eq_ok hstart
  cases hstart
  rw [SliceLiteral.eq_of_pushes h]
  refine ⟨name_of_ofString (eq_ok_of_inBuilder hi), ?_, rfl⟩
  simp [SliceLiteral.type]

theorem fields_of_literal {structName value : String} {l : StructLiteral}
    (h : literal structName value = .ok l) : l.fields = [("client", value), ("urls", "urls")] := by
  obtain ⟨t, -, h⟩ := bind_eq_ok h
  obtain ⟨first, hfirst, h⟩ := bind_eq_ok h
  rw [StructLiteral.fields_of_addField h, StructLiteral.fields_of_addField hfirst]
  rfl

theorem urlBase_eq (s : Service) :
    urlBase s = if s.endpoints.length = 0 then [] else [
      .defineCall ["URLBase"] "transport.UrlBase" ["addr"],
      .defineOperation "prefix" "URLBase" .add s.pathPrefixConst] := by
  simp only [urlBase, List.isEmpty_iff, List.length_eq_zero_iff]

theorem spells_newClient {structName suffix : String} {httpClient : GoType} {fn : Function}
    (h : newClient s structName suffix httpClient = .ok fn) :
    ∃ urls pointer redirectless plain, urlLiteral s = .ok urls ∧
      literal structName "httpClient" = .ok redirectless ∧ literal structName "client" = .ok plain ∧
      fn.body.Spells (urlBase s ++ [
        .sliceLiteral urls,
        .typeAssert ["httpClient", "ok"] "client" pointer,
        .ifBegin "ok" .equal "true",
        .assignCall ["httpClient"] "transport.WithoutRedirects" ["httpClient"],
        .structLiteral "return" redirectless true,
        .close,
        .structLiteral "return" plain true]) := by
  obtain ⟨urls, hurls, h⟩ := bind_eq_ok h
  obtain ⟨redirectless, hredirectless, h⟩ := bind_eq_ok h
  obtain ⟨plain, hplain, h⟩ := bind_eq_ok h
  obtain ⟨pointer, -, h⟩ := bind_eq_ok h
  obtain ⟨body, hbody, h⟩ := bind_eq_ok h
  obtain ⟨result, -, h⟩ := bind_eq_ok h
  obtain ⟨start, -, h⟩ := bind_eq_ok h
  cases h
  exact ⟨urls, pointer, redirectless, plain, hurls, hredirectless, hplain,
    Block.spells_of_ofSteps hbody⟩

theorem spells_method {receiver : GoType} {e : Endpoint} {i : Nat} {m : Method}
    (h : method s ct receiver e i = .ok m) :
    m.name = e.name ∧ ∃ steps, m.function.body.Spells steps ∧ [
      .defineCall ["err"] (binding ct).request
        ["ctx", "c.client", "c.urls[" ++ Nat.repr i ++ "]", "in", "out"],
      .returnValues ["out", "err"]] <:+ steps := by
  obtain ⟨body, hbody, h⟩ := bind_eq_ok h
  obtain ⟨context, -, h⟩ := bind_eq_ok h
  obtain ⟨start, hstart, h⟩ := bind_eq_ok h
  cases h
  rw [Method.name_withBody, Method.name_withComment, Method.name_of_new hstart,
    Method.body_withBody]
  exact ⟨rfl, _, Block.spells_of_ofSteps hbody, [_, _, _, _], rfl⟩

theorem lists_buildQuietly (h : buildQuietly s f ct = .ok client) :
    ∃ urls, urls.values = s.endpoints.map url ∧
      client.Lists s.pathPrefixConst urls s.endpoints.length ∧
      client.type.methods.length = s.endpoints.length ∧
      ∀ i e, s.endpoints[i]? = some e → client.Sends ct i e.name := by
  obtain ⟨httpClient, -, hfields, hconstructor, hmethods⟩ := declarations_of_buildQuietly h
  obtain ⟨urls, pointer, redirectless, plain, hurls, hredirectless, hplain, hbody⟩ :=
    spells_newClient hconstructor
  obtain ⟨hname, htype, hvalues⟩ := eq_of_urlLiteral hurls
  obtain ⟨hlength, hall⟩ := getElem?_of_mapM_eq_ok hmethods
  refine ⟨urls, hvalues, ⟨hname, htype, by simp [hvalues], ⟨httpClient, hfields⟩, pointer,
    redirectless, plain, ?_, fields_of_literal hredirectless, fields_of_literal hplain⟩, ?_,
    fun i e he ↦ ?_⟩
  · rwa [← urlBase_eq]
  · simpa using hlength
  · obtain ⟨m, hm, hmethod⟩ := hall i (e, i) (by simp [he])
    obtain ⟨hname, steps, hspells⟩ := spells_method hmethod
    exact ⟨m, steps, hm, hname, hspells⟩

end ClientStub

namespace ServerStub

variable {s : Service} {f : Framework} {cts : List Wire.ContentType} {data : ServerMetadata}
  {server : ServerStub}

structure Routes (server : ServerStub) (routes : Switch) (n : Nat) : Prop where
  head : routes.head = "switch req.URL.Path \x7b"
  length : routes.cases.length = n
  handler : ∃ m steps, server.type.methods[1]? = some m ∧ m.name = "ServeHTTP" ∧
    m.function.body.Spells steps ∧ [.switch routes] <:+ steps

def Dispatches (routes : Switch) (i : Nat) (literal name : String) : Prop :=
  ∃ body, routes.cases[i]? = some ⟨[literal], body⟩ ∧
    body.Spells [.call ("s.serve" ++ name) ["ctx", "resp", "req"], .ret]

def mediaCondition (ct : Wire.ContentType) (n : Nat) : Step :=
  if n = 0 then .ifBegin "modifiedHeader" .equal (goQuoted ct.mediaType)
  else .elseIf "modifiedHeader" .equal (goQuoted ct.mediaType)

/-- The server's methods for the endpoint at a position: the dispatcher hands over to the content
handler in every encoding, and the content handler calls the implementation. -/
structure Serves (server : ServerStub) (cts : List Wire.ContentType) (i : Nat) (name : String) :
    Prop where
  dispatcher : ∃ m, server.type.methods[2 + 2 * i]? = some m ∧ m.name = "serve" ++ name ∧
    ∃ steps, m.function.body.Spells steps ∧ ∀ (n : Nat) ct, cts[n]? = some ct → [
      mediaCondition ct n,
      .call ("s.serve" ++ name ++ "Content")
        ["ctx", "resp", "req", (binding ct).decoder, (binding ct).encoder],
      .ret] <:+: steps
  contentHandler : ∃ m, server.type.methods[3 + 2 * i]? = some m ∧
    m.name = "serve" ++ name ++ "Content" ∧
    ∃ steps call, m.function.body.Spells steps ∧
    [.nestedFunc call, .defineCall ["respContent", "err"] "endpointWrapper" []] <:+: steps ∧
    call.name.name = "endpointWrapper" ∧
    ∃ onPanic, call.body.Spells [
      .recoverGuard "deferWrapper" onPanic, .returnCall ("s." ++ name) ["ctx", "reqContent"]]

theorem value_of_pathPrefixConst {const : Const} (h : pathPrefixConst s = .ok const) :
    const.name.name = s.pathPrefixConst ∧ const.value = goQuoted s.pathPrefix := by
  obtain ⟨start, hstart, h⟩ := bind_eq_ok h
  cases h
  obtain ⟨name, hname, hstart⟩ := bind_eq_ok hstart
  have hname' := name_of_ofString (eq_ok_of_inBuilder hname)
  dsimp only at hstart
  split_ifs at hstart
  · cases hstart
  · cases hstart
    exact ⟨hname', rfl⟩

theorem dispatcher_call (e : Endpoint) : "s." ++ e.dispatcher = "s.serve" ++ e.name := by
  rw [Endpoint.dispatcher, ← String.append_assoc]
  rfl

theorem contentHandler_call (e : Endpoint) :
    "s." ++ e.contentHandler = "s.serve" ++ e.name ++ "Content" := by
  rw [Endpoint.contentHandler, ← String.append_assoc, ← String.append_assoc]
  rfl

theorem cases_of_addRoutes {es : List Endpoint} {start sw : Switch}
    (h : es.foldlM (addRoute s) start = .ok sw) :
    ∃ cases : List Case, sw = { start with cases := start.cases ++ cases } ∧
      cases.length = es.length ∧
      ∀ (i : Nat) e, es[i]? = some e → ∃ body,
        cases[i]? = some ⟨[goQuoted (s.route e)], body⟩ ∧
          body.Spells [.call ("s.serve" ++ e.name) ["ctx", "resp", "req"], .ret] := by
  induction es generalizing start with
  | nil =>
    cases h
    exact ⟨[], by simp, rfl, by simp⟩
  | cons e es ih =>
    obtain ⟨next, hnext, h⟩ := foldlM_cons_eq_ok h
    obtain ⟨body, hbody, hnext⟩ := bind_eq_ok hnext
    rw [dispatcher_call] at hbody
    obtain rfl := Switch.eq_of_addCase hnext
    obtain ⟨cases, rfl, hlength, hall⟩ := ih h
    refine ⟨⟨[goQuoted (s.route e)], body⟩ :: cases, by simp, by simp [hlength], fun i e' he ↦ ?_⟩
    cases i with
    | zero =>
      obtain rfl := Option.some_inj.1 he
      exact ⟨body, rfl, Block.spells_of_ofSteps hbody⟩
    | succ i => exact hall i e' he

theorem dispatches_routes {sw : Switch} (h : routes s = .ok sw) :
    sw.head = "switch req.URL.Path \x7b" ∧ sw.cases.length = s.endpoints.length ∧
      ∀ (i : Nat) e, s.endpoints[i]? = some e → Dispatches sw i (goQuoted (s.route e)) e.name := by
  obtain ⟨start, hstart, h⟩ := bind_eq_ok h
  obtain ⟨filled, hfilled, h⟩ := bind_eq_ok h
  obtain ⟨fallback, -, h⟩ := bind_eq_ok h
  cases h
  obtain ⟨-, -, hstart⟩ := bind_eq_ok hstart
  cases hstart
  obtain ⟨cases, rfl, hlength, hall⟩ := cases_of_addRoutes hfilled
  refine ⟨rfl, ?_, ?_⟩
  · simpa [Switch.withFallback] using hlength
  · simpa [Switch.withFallback, Dispatches] using hall

theorem spells_handler {receiver : GoType} {m : Method} (h : handler s receiver = .ok m) :
    m.name = "ServeHTTP" ∧ ∃ sw steps, routes s = .ok sw ∧ m.function.body.Spells steps ∧
      [.switch sw] <:+ steps := by
  obtain ⟨sw, hsw, h⟩ := bind_eq_ok h
  obtain ⟨body, hbody, h⟩ := bind_eq_ok h
  obtain ⟨writer, -, h⟩ := bind_eq_ok h
  obtain ⟨request, -, h⟩ := bind_eq_ok h
  obtain ⟨start, hstart, h⟩ := bind_eq_ok h
  cases h
  rw [Method.name_withBody, Method.name_withComment, Method.name_of_new hstart,
    Method.body_withBody]
  have hend : [Step.switch sw] <:+ [.ret, .close, .switch sw] := ⟨[.ret, .close], rfl⟩
  exact ⟨rfl, sw, _, hsw, Block.spells_of_ofSteps hbody, hend.trans (List.suffix_append _ _)⟩

theorem spells_dispatcher {receiver : GoType} {e : Endpoint} {m : Method}
    (h : dispatcher receiver cts e = .ok m) :
    m.name = "serve" ++ e.name ∧ ∃ steps, m.function.body.Spells steps ∧
      ∀ (n : Nat) ct, cts[n]? = some ct → [
        mediaCondition ct n,
        .call ("s.serve" ++ e.name ++ "Content")
          ["ctx", "resp", "req", (binding ct).decoder, (binding ct).encoder],
        .ret] <:+: steps := by
  obtain ⟨body, hbody, h⟩ := bind_eq_ok h
  obtain ⟨params, -, h⟩ := bind_eq_ok h
  obtain ⟨start, hstart, h⟩ := bind_eq_ok h
  cases h
  rw [Method.name_withBody, Method.name_withComment, Method.name_of_new hstart,
    Method.body_withBody]
  refine ⟨rfl, _, Block.spells_of_ofSteps hbody, fun n ct hct ↦ ?_⟩
  obtain ⟨earlier, later, hsplit⟩ :=
    List.append_of_mem (List.mk_mem_zipIdx_iff_getElem?.2 hct : (ct, n) ∈ cts.zipIdx)
  rw [hsplit, List.flatMap_append, List.flatMap_cons, contentHandler_call]
  simp only [List.append_assoc]
  exact (List.infix_append' ..).trans (List.suffix_append ..).isInfix

theorem spells_endpointCall {e : Endpoint} {call : FuncLiteral} (h : endpointCall e = .ok call) :
    call.name.name = "endpointWrapper" ∧ ∃ onPanic, call.body.Spells [
      .recoverGuard "deferWrapper" onPanic,
      .returnCall ("s." ++ e.name) ["ctx", "reqContent"]] := by
  obtain ⟨onPanic, -, h⟩ := bind_eq_ok h
  obtain ⟨start, hstart, h⟩ := bind_eq_ok h
  obtain ⟨body, hbody, h⟩ := bind_eq_ok h
  cases h
  exact ⟨(FuncLiteral.eq_of_new hstart).1, onPanic, Block.spells_of_ofSteps hbody⟩

theorem spells_contentHandler {receiver : GoType} {e : Endpoint} {m : Method}
    (h : contentHandler receiver f e = .ok m) :
    m.name = "serve" ++ e.name ++ "Content" ∧ ∃ steps call, m.function.body.Spells steps ∧
      [.nestedFunc call, .defineCall ["respContent", "err"] "endpointWrapper" []] <:+: steps ∧
      call.name.name = "endpointWrapper" ∧
      ∃ onPanic, call.body.Spells [
        .recoverGuard "deferWrapper" onPanic,
        .returnCall ("s." ++ e.name) ["ctx", "reqContent"]] := by
  obtain ⟨decode, -, h⟩ := bind_eq_ok h
  obtain ⟨call, hcall, h⟩ := bind_eq_ok h
  obtain ⟨encode, -, h⟩ := bind_eq_ok h
  obtain ⟨body, hbody, h⟩ := bind_eq_ok h
  obtain ⟨params, -, h⟩ := bind_eq_ok h
  obtain ⟨decoder, -, h⟩ := bind_eq_ok h
  obtain ⟨encoder, -, h⟩ := bind_eq_ok h
  obtain ⟨start, hstart, h⟩ := bind_eq_ok h
  cases h
  rw [Method.name_withBody, Method.name_withComment, Method.name_of_new hstart,
    Method.body_withBody]
  refine ⟨rfl, _, call, Block.spells_of_ofSteps hbody, ?_, spells_endpointCall hcall⟩
  simp only [List.append_assoc]
  exact (List.infix_append' ..).trans <| (List.suffix_append ..).isInfix.trans <|
    (List.suffix_append ..).isInfix.trans (List.suffix_append ..).isInfix

theorem getElem?_flatten_pair {served : List (List Method)} (h : ∀ p ∈ served, p.length = 2)
    {i : Nat} {d c : Method} (hi : served[i]? = some [d, c]) :
    served.flatten[2 * i]? = some d ∧ served.flatten[2 * i + 1]? = some c := by
  induction served generalizing i with
  | nil => simp at hi
  | cons p served ih =>
    obtain ⟨hp, hrest⟩ := List.forall_mem_cons.1 h
    cases i with
    | zero =>
      cases hi
      exact ⟨rfl, rfl⟩
    | succ i =>
      have hshift : ∀ j, (p :: served).flatten[2 * (i + 1) + j]? = served.flatten[2 * i + j]? := by
        intro j
        rw [List.flatten_cons, List.getElem?_append_right (by omega), hp]
        congr 1
        omega
      have hpair := ih hrest hi
      exact ⟨(hshift 0).trans hpair.1, (hshift 1).trans hpair.2⟩

theorem getElem?_after_two {a b m : Method} {ms rest : List Method} {i : Nat}
    (h : ms[i]? = some m) : ([a, b] ++ ms ++ rest)[2 + i]? = some m := by
  rw [Nat.add_comm, ← h, List.append_assoc]
  exact List.getElem?_append_left (List.getElem?_eq_some_iff.1 h).1

theorem getElem?_methods {receiver : GoType} {ms : List Method}
    (h : methods s receiver f cts data = .ok ms) :
    (∃ m, ms[1]? = some m ∧ handler s receiver = .ok m) ∧
      ∀ (i : Nat) e, s.endpoints[i]? = some e → ∃ d c, ms[2 + 2 * i]? = some d ∧
        ms[3 + 2 * i]? = some c ∧ dispatcher receiver cts e = .ok d ∧
        contentHandler receiver f e = .ok c := by
  obtain ⟨writer, m, served, descriptor, version, rfl, -, hm, hserved, -, -⟩ := methods_eq_ok h
  obtain ⟨hlength, hall⟩ := getElem?_of_mapM_eq_ok hserved
  have hpairs : ∀ (i : Nat) e, s.endpoints[i]? = some e → ∃ d c, served[i]? = some [d, c] ∧
      dispatcher receiver cts e = .ok d ∧ contentHandler receiver f e = .ok c := by
    intro i e he
    obtain ⟨pair, hpair, hmethods⟩ := hall i e he
    obtain ⟨d, hd, hmethods⟩ := bind_eq_ok hmethods
    obtain ⟨c, hc, hmethods⟩ := bind_eq_ok hmethods
    cases hmethods
    exact ⟨d, c, hpair, hd, hc⟩
  have htwo : ∀ p ∈ served, p.length = 2 := by
    intro p hp
    obtain ⟨i, hi⟩ := List.mem_iff_getElem?.1 hp
    have hlt : i < s.endpoints.length := hlength ▸ (List.getElem?_eq_some_iff.1 hi).1
    obtain ⟨d, c, hpair, -, -⟩ := hpairs i _ (List.getElem?_eq_getElem hlt)
    rw [Option.some_inj.1 (hi.symm.trans hpair)]
    rfl
  refine ⟨⟨m, rfl, hm⟩, fun i e he ↦ ?_⟩
  obtain ⟨d, c, hpair, hd, hc⟩ := hpairs i e he
  obtain ⟨hfirst, hsecond⟩ := getElem?_flatten_pair htwo hpair
  have hodd : 3 + 2 * i = 2 + (2 * i + 1) := by omega
  refine ⟨d, c, getElem?_after_two hfirst, ?_, hd, hc⟩
  rw [hodd]
  exact getElem?_after_two hsecond

theorem routes_build (h : (build s f cts data).result = .ok server) :
    server.pathPrefix.name.name = s.pathPrefixConst ∧
    server.pathPrefix.value = goQuoted s.pathPrefix ∧
    ∃ sw, server.Routes sw s.endpoints.length ∧
      ∀ (i : Nat) e, s.endpoints[i]? = some e →
        Dispatches sw i (goQuoted (s.route e)) e.name ∧ server.Serves cts i e.name := by
  obtain ⟨hconst, receiver, hmethods⟩ := methods_of_build h
  obtain ⟨hname, hvalue⟩ := value_of_pathPrefixConst hconst
  obtain ⟨⟨m, hm, hhandler⟩, hall⟩ := getElem?_methods hmethods
  obtain ⟨hserve, sw, steps, hsw, hspells, hend⟩ := spells_handler hhandler
  obtain ⟨hhead, hlength, hdispatches⟩ := dispatches_routes hsw
  refine ⟨hname, hvalue, sw, ⟨hhead, hlength, m, steps, hm, hserve, hspells, hend⟩, fun i e he ↦ ?_⟩
  obtain ⟨d, c, hd, hc, hdispatcher, hcontent⟩ := hall i e he
  exact ⟨hdispatches i e he, ⟨d, hd, spells_dispatcher hdispatcher⟩,
    c, hc, spells_contentHandler hcontent⟩

end ServerStub

/-- Client and server of a service agree on every route, and a route below a root names its package,
service and method. -/
theorem routes_agree {s : Service} {f : Framework} {ct : Wire.ContentType}
    {cts : List Wire.ContentType} {data : ServerMetadata} {client : ClientStub}
    {server : ServerStub} (hclient : (ClientStub.build s f ct).result = .ok client)
    (hserver : (ServerStub.build s f cts data).result = .ok server) :
    (server.pathPrefix.name.name = s.name ++ "PathPrefix" ∧
      client.type.methods.length = s.endpoints.length ∧
      ∃ urls routes, client.Lists server.pathPrefix.name.name urls s.endpoints.length ∧
        server.Routes routes s.endpoints.length ∧
        ∀ (i : Nat) e, s.endpoints[i]? = some e → ∃ suffixLiteral pathLiteral base suffix,
          urls.values[i]? = some ("prefix + " ++ suffixLiteral) ∧
          ServerStub.Dispatches routes i pathLiteral e.name ∧
          goUnquoted? server.pathPrefix.value = some base ∧
          goUnquoted? suffixLiteral = some suffix ∧
          goUnquoted? pathLiteral = some (base ++ suffix) ∧ base ++ suffix = s.route e ∧
          client.Sends ct i e.name ∧ server.Serves cts i e.name) ∧
    ∀ root package service method package' service' method',
      '/' ∉ method.toList → '/' ∉ method'.toList → '.' ∉ service.toList → '.' ∉ service'.toList →
      Wire.methodPath root (Wire.fullServiceName package service) method =
        Wire.methodPath root (Wire.fullServiceName package' service') method' →
      package = package' ∧ service = service' ∧ method = method' := by
  rw [ClientStub.result_build] at hclient
  obtain ⟨urls, hvalues, hlists, hlength, hsends⟩ := ClientStub.lists_buildQuietly hclient
  obtain ⟨hname, hvalue, routes, hroutes, hserves⟩ := ServerStub.routes_build hserver
  refine ⟨⟨hname, hlength, urls, routes, hname ▸ hlists, hroutes, fun i e he ↦ ?_⟩, ?_⟩
  · obtain ⟨hdispatches, hserve⟩ := hserves i e he
    refine ⟨goQuoted e.name, goQuoted (s.route e), s.pathPrefix, e.name, ?_, hdispatches, ?_,
      goUnquoted?_goQuoted _, goUnquoted?_goQuoted _, rfl, hsends i e he, hserve⟩
    · rw [hvalues, List.getElem?_map, he]
      rfl
    · rw [hvalue]
      exact goUnquoted?_goQuoted _
  · intro root package service method package' service' method' hm hm' hs hs' h
    exact Wire.methodPath_inj h hm hm' hs hs'

theorem exists_stubs_caseService :
    ∃ client server, (ClientStub.build caseService (Config.runtime {}) .json).result = .ok client ∧
      (ServerStub.build caseService (Config.runtime {}) [.json, .protobuf]
        ⟨descriptorName 0, version⟩).result = .ok server := by
  obtain ⟨client, hclient⟩ := exists_of_isOk (isOk_client_caseService .json)
  obtain ⟨server, hserver⟩ := exists_of_isOk isOk_server_caseService
  exact ⟨client, server, hclient, hserver⟩

theorem routes_agree_caseService :
    ∃ client server, (ClientStub.build caseService (Config.runtime {}) .json).result = .ok client ∧
      (ServerStub.build caseService (Config.runtime {}) [.json, .protobuf]
        ⟨descriptorName 0, version⟩).result = .ok server ∧
      client.Sends .json 0 "M" ∧ server.Serves [.json, .protobuf] 0 "M" ∧
      ∃ urls routes, client.Lists "SPathPrefix" urls 1 ∧ server.Routes routes 1 := by
  obtain ⟨client, server, hclient, hserver⟩ := exists_stubs_caseService
  obtain ⟨⟨hname, -, urls, routes, hlists, hroutes, hall⟩, -⟩ := routes_agree hclient hserver
  obtain ⟨_, _, _, _, -, -, -, -, -, -, hsends, hserves⟩ := hall 0 _ rfl
  have hconst : caseService.name ++ "PathPrefix" = "SPathPrefix" := by decide
  rw [hname, hconst] at hlists
  exact ⟨client, server, hclient, hserver, hsends, hserves, urls, routes, hlists, hroutes⟩

end Stub

end RpcStubs
