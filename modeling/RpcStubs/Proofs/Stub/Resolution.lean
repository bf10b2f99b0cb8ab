import RpcStubs.Proofs.Schema.PackageNames
import RpcStubs.Proofs.Stub.Links
import RpcStubs.Stub.Header

namespace RpcStubs.Stub

open Text Layout
open Schema (Context File GoPackage)

theorem clean_of_subset {s t : List Char} (h : Clean s) (hs : ∀ c ∈ t, c ∈ s) : Clean t :=
  ⟨fun hc ↦ h.1 (hs _ hc), fun hc ↦ h.2.1 (hs _ hc), fun hc ↦ h.2.2 (hs _ hc)⟩

theorem clean_importPath {f : File} (h : Clean f.goPackage.toList) {path : String}
    (hp : f.importPath? = some path) : Clean path.toList := by
  rw [File.importPath?, File.goPackage?] at hp
  split_ifs at hp
  · cases hp
  · simp only [Option.bind_some, GoPackage.ofOption] at hp
    split at hp
    · cases hp
    · split at hp
      · next before after hcut =>
        cases hp
        obtain ⟨hsplit, -⟩ := cutFirst_eq_some_iff.1 hcut
        rw [String.toList_ofList]
        exact clean_of_subset h fun c hc ↦ hsplit ▸ List.mem_append_left _ hc
      · cases hp
        exact h

theorem importable_importOf? {f : File} (h : Clean f.goPackage.toList) {package : String}
    (hp : isWord package.toList = true) {i : Import}
    (hi : Context.importOf? f package = some i) : Importable i := by
  obtain ⟨path, hpath, hi⟩ := Option.map_eq_some_iff.1 hi
  have hclean := clean_importPath h hpath
  split_ifs at hi
  · cases hi
    exact ⟨hclean, nofun⟩
  · cases hi
    refine ⟨hclean, fun name hname ↦ ?_⟩
    obtain rfl := Option.some_inj.1 hname
    exact hp

theorem yields_file (ctx : Context) (i : Nat) : Yields (ctx.file i) fun f ↦ f ∈ ctx.files := by
  unfold Context.file
  split
  · exact .ok (List.mem_of_getElem? ‹_›)
  · exact .error rfl

/-- The type of a message. If it has an import, that of the message's file, it is written with the
qualifier of the import. -/
structure SchemaType (ctx : Context) (t : GoType) : Prop where
  usable : Usable (· ∈ t.origins) t
  spelled : ∀ i ∈ t.origins, ∃ name, t = .named name (some i.qualifier) (some i) ∧
    isWord name.toList = true ∧ isWord i.qualifier.toList = true
  origin : ∀ i ∈ t.origins, ∃ f ∈ ctx.files, Context.importOf? f i.qualifier = some i

theorem yields_type (ctx : Context) (name : String) : Yields (ctx.type name) (SchemaType ctx) := by
  have hmessage : Yields (ctx.registry.message name) fun _ ↦ True := by
    unfold Schema.Registry.message
    split
    · exact .ok trivial
    · exact .error rfl
  refine hmessage.bind fun d _ ↦ ?_
  split
  · next f package hf _ =>
    split_ifs
    · refine (yields_declared d.goName).mono fun t ht ↦ ?_
      obtain ⟨rfl, hword⟩ := ht
      exact ⟨usable_declared hword, by simp [GoType.origins], by simp [GoType.origins]⟩
    · refine (yields_qualified ..).mono fun t ht ↦ ?_
      obtain ⟨rfl, hp, hn⟩ := ht
      refine ⟨usable_qualified hp hn fun i hi ↦ by simpa [GoType.origins] using hi, ?_, ?_⟩
      all_goals
        intro i hi
        rw [GoType.origins, Option.mem_toList] at hi
        obtain ⟨-, rfl⟩ := Context.importOf?_eq_some hi
      · exact ⟨d.goName, by rw [hi], hn, hp⟩
      · exact ⟨f, List.mem_of_getElem? hf, hi⟩
  · exact .error rfl

theorem SchemaType.importable {ctx : Context} {t : GoType} (h : SchemaType ctx t)
    (hclean : ∀ f ∈ ctx.files, Clean f.goPackage.toList) : ∀ i ∈ t.origins, Importable i := by
  intro i hi
  obtain ⟨f, hf, himport⟩ := h.origin i hi
  obtain ⟨-, -, -, hword⟩ := h.spelled i hi
  exact importable_importOf? (hclean f hf) hword himport

/-- Some method of the file takes or returns a message for which the package is imported. -/
def Depends (ctx : Context) (f : File) (i : Import) : Prop :=
  ∃ s ∈ f.services, ∃ m ∈ s.methods, ∃ name ∈ [m.input, m.output], ∃ t, ctx.type name = .ok t ∧
    i ∈ t.origins

def messageNames (s : Schema.Service) : List String := s.methods.flatMap fun m ↦ [m.input, m.output]

theorem depends_iff_of_mapM {ctx : Context} {f : File} {types : List GoType}
    (h : (f.services.flatMap messageNames).mapM ctx.type = .ok types) {i : Import} :
    Depends ctx f i ↔ i ∈ types.flatMap GoType.origins := by
  simp only [List.mem_flatMap, mem_iff_of_mapM_eq_ok h, messageNames]
  constructor
  · rintro ⟨s, hs, m, hm, name, hname, t, ht, hi⟩
    exact ⟨t, ⟨name, ⟨s, hs, m, hm, hname⟩, ht⟩, hi⟩
  · rintro ⟨t, ⟨name, ⟨s, hs, m, hm, hname⟩, ht⟩, hi⟩
    exact ⟨s, hs, m, hm, name, hname, t, ht, hi⟩

inductive Provided (fw : Framework) (ctx : Context) (f : File) : Import → Prop
  | runtime (p : Package) : Provided fw ctx f (fw.importOf p)
  | context : Provided fw ctx f (.plain "context")
  | http : Provided fw ctx f (.plain "net/http")
  | dependency {i : Import} : Depends ctx f i → Provided fw ctx f i

theorem linked_provided (fw : Framework) (ctx : Context) (f : File) :
    Linked (Provided fw ctx f) fw := ⟨.context, .http, .runtime⟩

theorem Depends.exists_type {ctx : Context} {f : File} {i : Import} (h : Depends ctx f i) :
    ∃ t, SchemaType ctx t ∧ i ∈ t.origins := by
  obtain ⟨-, -, -, -, name, -, t, ht, hi⟩ := h
  have htype := yields_type ctx name
  rw [ht] at htype
  exact ⟨t, htype.of_ok, hi⟩

theorem importable_plain {path : String} (h : Clean path.toList) : Importable (.plain path) :=
  ⟨h, nofun⟩

theorem Provided.importable {fw : Framework} {ctx : Context} {f : File} {i : Import}
    (h : Provided fw ctx f i) (hroot : Clean fw.root.toList)
    (hclean : ∀ f ∈ ctx.files, Clean f.goPackage.toList) : Importable i := by
  cases h with
  | context => exact importable_plain (by unfold Clean; decide)
  | http => exact importable_plain (by unfold Clean; decide)
  | dependency hi =>
    obtain ⟨t, ht, hi⟩ := hi.exists_type
    exact ht.importable hclean i hi
  | runtime p =>
    have hname : Clean ("/" ++ p.name).toList := by
      unfold Clean
      cases p <;> decide
    refine importable_plain ?_
    rw [String.append_assoc, String.toList_append]
    simp only [Clean, List.mem_append, not_or]
    exact ⟨⟨hroot.1, hname.1⟩, ⟨hroot.2.1, hname.2.1⟩, hroot.2.2, hname.2.2⟩

theorem comment_eq_error {r : Schema.Registry} {file : Nat} {path : Schema.Path}
    {failure : Failure} (h : r.comment file path = .error failure) : failure = .emptyComment := by
  unfold Schema.Registry.comment at h
  split at h
  · split_ifs at h
    cases h
    rfl
  · cases h
    rfl

/-- A comment that cannot be had counts as none. -/
theorem exists_commentLines {lookup : Build String}
    (h : ∀ failure, lookup = .error failure → failure = .emptyComment) :
    ∃ comment, commentLines lookup = .ok comment ∧
      ∀ line ∈ comment.getD [], '\n' ∉ line.toList := by
  have hempty : ∀ failure, lookup >>= Schema.prepareComment = .error failure →
      failure = .emptyComment := by
    intro failure hfailure
    cases lookup with
    | error other =>
      cases hfailure
      exact h _ rfl
    | ok text =>
      change Schema.prepareComment text = _ at hfailure
      simp only [Schema.prepareComment] at hfailure
      split_ifs at hfailure
      cases hfailure
      rfl
  unfold commentLines
  split
  · next lines hlines =>
    cases lookup with
    | error other => cases hlines
    | ok text => exact ⟨_, rfl, not_mem_prepareComment hlines⟩
  · exact ⟨none, rfl, by simp⟩
  · next failure hne hfailure => exact absurd (hempty failure hfailure) hne

theorem yields_commentLines {lookup : Build String}
    (h : ∀ failure, lookup = .error failure → failure = .emptyComment) :
    Yields (commentLines lookup) fun comment ↦ ∀ line ∈ comment.getD [], '\n' ∉ line.toList := by
  obtain ⟨comment, hcomment, hlines⟩ := exists_commentLines h
  rw [hcomment]
  exact .ok hlines

/-- Some method of the file takes or returns a message of a package imported as `case`. -/
def CaseImport (ctx : Context) (f : File) : Prop :=
  ∃ s ∈ f.services, ∃ m ∈ s.methods, ∃ name ∈ [m.input, m.output], ∃ t, ctx.type name = .ok t ∧
    ∃ i ∈ t.origins, i.localName = some "case"

theorem caseImport_iff {ctx : Context} {f : File} :
    CaseImport ctx f ↔ ∃ i, Depends ctx f i ∧ i.localName = some "case" := by
  constructor
  · rintro ⟨s, hs, m, hm, name, hname, t, ht, i, hi, hcase⟩
    exact ⟨i, ⟨s, hs, m, hm, name, hname, t, ht, hi⟩, hcase⟩
  · rintro ⟨i, ⟨s, hs, m, hm, name, hname, t, ht, hi⟩, hcase⟩
    exact ⟨s, hs, m, hm, name, hname, t, ht, i, hi, hcase⟩

/-- No other package is imported under a name of its own. -/
theorem Provided.caseImport {fw : Framework} {ctx : Context} {f : File} {i : Import}
    (h : Provided fw ctx f i) (hcase : i.localName = some "case") : CaseImport ctx f := by
  cases h with
  | dependency hi => exact caseImport_iff.2 ⟨i, hi, hcase⟩
  | _ => cases hcase

structure Resolves (ctx : Context) (m : Schema.Method) (e : Endpoint) : Prop where
  input : ctx.type m.input = .ok e.input
  output : ctx.type m.output = .ok e.output

section Services

variable (fw : Framework) {ctx : Context}

theorem yields_endpoint {f : File} {s : Schema.Service} (hs : s ∈ f.services) {m : Schema.Method}
    (hm : m ∈ s.methods) (file service index : Nat) :
    Yields (Service.endpoint ctx file service m index) fun e ↦
      Resolves ctx m e ∧ SoundEndpoint (Provided fw ctx f) e := by
  have husable {name : String} {t : GoType} (h : SchemaType ctx t ∧ ctx.type name = .ok t)
      (hname : name ∈ [m.input, m.output]) : Usable (Provided fw ctx f) t :=
    ⟨h.1.usable.flat, h.1.usable.plain, fun i hi ↦
      .dependency ⟨s, hs, m, hm, name, hname, t, h.2, hi⟩⟩
  refine (yields_type ctx m.input).with_eq.bind fun input hinput ↦ ?_
  refine (yields_type ctx m.output).with_eq.bind fun output houtput ↦ ?_
  refine (yields_commentLines fun _ ↦ comment_eq_error).bind fun comment _ ↦ ?_
  exact yields_pure ⟨⟨hinput.2, houtput.2⟩, husable hinput (by simp), husable houtput (by simp)⟩

/-- The service at a position is sound, and every method of it has an endpoint. -/
theorem yields_resolve {file : Nat} {f : File} (hf : ctx.file file = .ok f) (index : Nat)
    (root : String) :
    Yields (Service.resolve ctx file index root) fun s ↦
      SoundService (Provided fw ctx f) s ∧
        ∀ declared, f.services[index]? = some declared →
          ∀ m ∈ declared.methods, ∃ e ∈ s.endpoints, Resolves ctx m e := by
  unfold Service.resolve
  have hfile : Yields (ctx.file file) (· = f) := hf ▸ .ok rfl
  refine hfile.bind fun f' hf' ↦ ?_
  subst hf'
  split
  · exact .error rfl
  · next declared hdeclared =>
    refine (yields_mapM fun p hp ↦ yields_endpoint fw (List.mem_of_getElem? hdeclared)
      (List.fst_mem_of_mem_zipIdx hp) file index p.2).bind fun endpoints hendpoints ↦ ?_
    refine (yields_commentLines fun _ ↦ comment_eq_error).bind fun comment hcomment ↦ ?_
    refine yields_pure ⟨⟨hcomment, fun e he ↦ ?_⟩, fun declared' hdeclared' m hm ↦ ?_⟩
    · obtain ⟨_, _, _, h⟩ := hendpoints.2 e he
      exact h
    · obtain rfl := Option.some_inj.1 (hdeclared.symm.trans hdeclared')
      obtain ⟨i, hi, hm⟩ := List.mem_iff_getElem.1 hm
      have hp : (m, i) ∈ declared.methods.zipIdx :=
        List.mk_mem_zipIdx_iff_getElem?.2 (List.getElem?_eq_some_iff.2 ⟨hi, hm⟩)
      obtain ⟨e, he, h, _⟩ := hendpoints.1 (m, i) hp
      exact ⟨e, he, h⟩

end Services

theorem mem_of_mem_breakCommentEnd {c : Char} {s : List Char} (h : c ∈ breakCommentEnd s)
    (hc : c ≠ ' ') : c ∈ s := by
  fun_induction breakCommentEnd s <;> simp_all
  all_goals tauto

theorem not_mem_packageComment {comment : Option (List String)}
    (h : ∀ line ∈ comment.getD [], '\n' ∉ line.toList) :
    ∀ line ∈ Header.packageComment comment, '\n' ∉ line.toList := by
  cases comment with
  | none => simp [Header.packageComment]
  | some lines =>
    refine List.forall_mem_cons.2 ⟨by decide, fun line hline ↦ ?_⟩
    obtain ⟨line, hmem, rfl⟩ := List.mem_map.1 hline
    rw [String.toList_ofList]
    exact fun hn ↦ h line hmem (mem_of_mem_breakCommentEnd hn (by decide))

theorem not_mem_version : '\n' ∉ version.toList := not_mem_ofList (by decide)

theorem not_mem_packageIntroduction {package : String} (h : '\n' ∉ package.toList) :
    ∀ line ∈ Header.packageIntroduction package, '\n' ∉ line.toList := by
  simp only [Header.packageIntroduction, List.forall_mem_cons, List.not_mem_nil, false_imp_iff,
    implies_true, and_true]
  exact ⟨by decide, not_mem_append (not_mem_append (not_mem_ofList (by decide)) h)
    (not_mem_ofList (by decide)), not_mem_append (not_mem_ofList (by decide)) not_mem_version⟩

theorem not_mem_sourceList {names : List String} (h : ∀ name ∈ names, '\n' ∉ name.toList) :
    ∀ line ∈ Header.sourceList names, '\n' ∉ line.toList := by
  rw [Header.sourceList, List.forall_mem_append]
  refine ⟨by decide, fun line hline ↦ ?_⟩
  obtain ⟨name, hname, rfl⟩ := List.mem_map.1 hline
  exact not_mem_append (not_mem_ofList (by decide)) (h name hname)

theorem not_mem_banner {name : String} (h : '\n' ∉ name.toList) :
    ∀ line ∈ Header.banner name, '\n' ∉ line.toList := by
  simp only [Header.banner, List.forall_mem_cons, List.not_mem_nil, false_imp_iff, implies_true,
    and_true]
  exact ⟨not_mem_append (not_mem_append (not_mem_ofList (by decide)) not_mem_version)
    (not_mem_ofList (by decide)), not_mem_append (not_mem_ofList (by decide)) h⟩

def SingleNames (ctx : Context) : Prop := ∀ f ∈ ctx.files, '\n' ∉ f.name.toList

theorem yields_packageLines {ctx : Context} (hp : '\n' ∉ ctx.package.toList) (file : Nat) :
    Yields (Header.packageLines ctx file) fun lines ↦
      SingleNames ctx → ∀ line ∈ lines, '\n' ∉ line.toList := by
  refine (yields_commentLines fun _ ↦ comment_eq_error).bind fun comment hcomment ↦ ?_
  refine (yields_mapM_forall fun i _ ↦ yields_file ctx i).bind fun sources hsources ↦ ?_
  refine yields_pure fun hnames ↦ ?_
  rw [List.forall_mem_append, List.forall_mem_append]
  refine ⟨⟨not_mem_packageIntroduction hp, not_mem_packageComment hcomment⟩,
    not_mem_sourceList fun name hname ↦ ?_⟩
  obtain ⟨f, hf, rfl⟩ := List.mem_map.1 hname
  exact hnames f (hsources f hf)

theorem yields_fileHeader {ctx : Context} (hp : '\n' ∉ ctx.package.toList) (file : Nat)
    (first : Bool) :
    Yields (fileHeader ctx file first) fun header ↦ SingleNames ctx → header.Lined := by
  refine (yields_file ctx file).bind fun f hf ↦ ?_
  dsimp only
  split_ifs
  · refine (yields_packageLines hp file).bind fun documentation hdocumentation ↦ ?_
    exact yields_pure fun hnames ↦ lined_ofLines (List.forall_mem_append.2
      ⟨not_mem_banner (hnames f hf), hdocumentation hnames⟩)
  · exact yields_pure fun hnames ↦ lined_ofLines (List.forall_mem_append.2
      ⟨not_mem_banner (hnames f hf), by simp⟩)

theorem yields_agreed (setting : String) (names : List String) :
    Yields (Schema.agreed setting names) fun _ ↦ True := by
  unfold Schema.agreed
  split
  · exact .ok trivial
  · split
    · exact .error rfl
    · exact .ok trivial

theorem yields_deducePackage (files : List File) :
    Yields (Schema.deducePackage files) fun _ ↦ True := by
  refine (yields_agreed _ _).bind fun name _ ↦ ?_
  split
  · exact .ok trivial
  · refine (yields_agreed _ _).bind fun name _ ↦ ?_
    split
    · exact .ok trivial
    · exact .error rfl

theorem yields_positions (files : List File) (names : List String) :
    Yields (Context.positions files names) fun _ ↦ True := by
  induction names with
  | nil => exact .ok trivial
  | cons name names ih =>
    rw [Context.positions]
    split
    · exact ih.bind fun _ _ ↦ yields_pure trivial
    · exact .error rfl

theorem yields_context (files : List File) (names : List String) :
    Yields (Context.resolve files names).result fun ctx ↦ ctx.files = files := by
  have hquiet : Yields (Context.resolveQuietly files names) fun ctx ↦ ctx.files = files :=
    (yields_positions files names).bind fun _ _ ↦ (yields_deducePackage _).bind fun _ _ ↦
      yields_pure rfl
  unfold Context.resolve
  rw [Traced.result_bind]
  exact hquiet.bind fun ctx hctx ↦ yields_pure hctx

end RpcStubs.Stub
