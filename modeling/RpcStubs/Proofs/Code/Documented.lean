import RpcStubs.Proofs.Code.MisplacedCase

namespace RpcStubs

def InterfaceMethod.undocumented (m : InterfaceMethod) : InterfaceMethod :=
  { m with comment := {} }

def Interface.undocumented (d : Interface) : Interface :=
  { d with comment := {}, methods := d.methods.map InterfaceMethod.undocumented }

def GoFile.undocumented (g : GoFile) : GoFile :=
  { g with header := {}, interfaces := g.interfaces.map Interface.undocumented }

theorem Interface.imports_undocumented (d : Interface) : d.undocumented.imports = d.imports := by
  simp only [imports, undocumented, List.flatMap_map]
  rfl

theorem GoFile.declaredImports_undocumented (g : GoFile) :
    g.undocumented.declaredImports = g.declaredImports := by
  simp only [declaredImports, undocumented, List.flatMap_map, Interface.imports_undocumented]
  rfl

/-- One failure, but for comments in the source that it carries and the number of its line. -/
inductive Failure.Alike : Failure → Failure → Prop
  | refl (failure : Failure) : Alike failure failure
  | misplacedCase (line line' : Nat) {source source' : String} :
      Layout.SameCode source.toList source'.toList →
      Alike (RpcStubs.misplacedCase line source) (RpcStubs.misplacedCase line' source')

/-- Both computations succeed, with related results, or both fail alike. -/
inductive Agree {α β : Type} (R : α → β → Prop) : Build α → Build β → Prop
  | ok {a : α} {b : β} : R a b → Agree R (.ok a) (.ok b)
  | error {failure failure' : Failure} :
      failure.Alike failure' → Agree R (.error failure) (.error failure')

section Rules

variable {α β γ δ : Type} {R : α → β → Prop} {S : γ → δ → Prop}

theorem Agree.bind {x : Build α} {y : Build β} {f : α → Build γ} {g : β → Build δ}
    (h : Agree R x y) (hf : ∀ a b, R a b → Agree S (f a) (g b)) :
    Agree S (x >>= f) (y >>= g) := by
  cases h with
  | ok h => exact hf _ _ h
  | error h => exact .error h

theorem agree_foldlM {ι : Type} {f : α → ι → Build α} {g : β → ι → Build β} {l : List ι}
    (h : ∀ i ∈ l, ∀ a b, R a b → Agree R (f a i) (g b i)) {a : α} {b : β} (hab : R a b) :
    Agree R (l.foldlM f a) (l.foldlM g b) := by
  induction l generalizing a b with
  | nil => exact .ok hab
  | cons i l ih =>
    rw [List.foldlM_cons, List.foldlM_cons]
    refine (h i List.mem_cons_self a b hab).bind fun a' b' hab' ↦ ?_
    exact ih (fun j hj ↦ h j (List.mem_cons_of_mem i hj)) hab'

end Rules

namespace Layout

open Text

variable {P P' : Import → Prop}

theorem SoundInterface.undocumented {d : Interface} (h : SoundInterface P d) :
    SoundInterface P d.undocumented := by
  refine ⟨lined_empty, fun m hm ↦ ?_⟩
  obtain ⟨m, hmem, rfl⟩ := List.mem_map.1 hm
  exact ⟨lined_empty, (h.methods m hmem).2⟩

theorem SoundInterface.sameCode_source {d : Interface} (h : SoundInterface P d) :
    SameCode d.undocumented.source.toList d.source.toList := by
  have hmembers : (d.undocumented.methods.map fun m ↦ m.comment.above ++ methodLine m) =
      d.methods.map methodLine := by
    rw [Interface.undocumented, List.map_map]
    exact List.map_congr_left fun m _ ↦ above_of_nil rfl _
  have hhead := (flat_interfaceHead d).text_opening (leads_interfaceHead d) []
  have hbare := source_interface d.undocumented
  rw [hmembers, above_of_nil (c := d.undocumented.comment) rfl] at hbare
  rw [hbare, source_interface d]
  refine sameCode_above h.comment ?_
  rw [toList_members, toList_members]
  refine hhead.sameCode_refl.append (sameCode_terminated (fun m hm ↦ ?_) ?_)
  · obtain ⟨hc, hs⟩ := h.methods m hm
    exact sameCode_above hc (text_methodLine hs []).sameCode_refl
  · have hclose : mark ['\x7d'] = .ok [('\x7d', .code)] := rfl
    exact sameCode_refl hclose

/-- An interface holds the same code with its comments and without them. -/
theorem SoundInterface.exists_render {d : Interface} (h : SoundInterface P d) :
    ∃ bare text, d.undocumented.render = .ok bare ∧ d.render = .ok text ∧
      SameCode bare.toList text.toList := by
  have hrender {d : Interface} (h : SoundInterface P d) :
      ∃ text, d.render = .ok text ∧ SameCode d.source.toList text.toList := by
    have hlast : d.source.toList.getLast? = some '\x7d' := by
      rw [source_interface]
      exact getLast?_above (getLast?_members _)
    obtain ⟨text, -, hfragment, -⟩ := h.text.exists_tidy hlast (by decide)
    refine ⟨text, ?_, h.text.sameCode_fragment hlast (by decide) hfragment⟩
    rw [Interface.render, finish, hfragment]
    rfl
  obtain ⟨bare, hbare, hsame⟩ := hrender h.undocumented
  obtain ⟨text, htext, hsame'⟩ := hrender h
  exact ⟨bare, text, hbare, htext, (hsame.symm.trans h.sameCode_source).trans hsame'⟩

theorem exists_mapM_rel {α β : Type} {f f' : α → Build β} {S : β → β → Prop} {l : List α}
    (h : ∀ a ∈ l, ∃ b b', f a = .ok b ∧ f' a = .ok b' ∧ S b b') :
    ∃ bs bs', l.mapM f = .ok bs ∧ l.mapM f' = .ok bs' ∧ List.Forall₂ S bs bs' := by
  induction l with
  | nil => exact ⟨[], [], rfl, rfl, .nil⟩
  | cons a l ih =>
    obtain ⟨b, b', hb, hb', hs⟩ := h a List.mem_cons_self
    obtain ⟨bs, bs', hbs, hbs', hall⟩ := ih fun c hc ↦ h c (List.mem_cons_of_mem a hc)
    refine ⟨b :: bs, b' :: bs', ?_, ?_, .cons hs hall⟩
    · rw [List.mapM_cons, hb, hbs]
      rfl
    · rw [List.mapM_cons, hb', hbs']
      rfl

theorem SoundFile.exists_bodies {g : GoFile} (h : SoundFile P g) :
    ∃ bare body, g.undocumented.body = .ok bare ∧ g.body = .ok body ∧
      SameCode bare.toList body.toList := by
  obtain ⟨before, after, hs, hsections⟩ := h.exists_sections_around
  obtain ⟨bares, texts, hbares, htexts, hsame⟩ :=
    exists_mapM_rel fun d hd ↦ (h.interfaces d hd).exists_render
  have hrefl {ts : List String} (hts : ∀ t ∈ ts, SoundText [] t.toList []) :
      List.Forall₂ (fun t t' ↦ SameCode t.toList t'.toList) ts ts :=
    List.forall₂_same.2 fun t ht ↦ (hts t ht).sameCode_refl
  rw [List.forall_mem_append] at hs
  refine ⟨_, _, ?_, ?_, sameCode_blocks
    (List.rel_append (List.rel_append (hrefl hs.1) hsame) (hrefl hs.2))⟩
  · rw [← Function.comp_def Interface.render, ← List.mapM_map] at hbares
    have hbare := hsections {} _ _ hbares
    rw [GoFile.body, GoFile.undocumented, hbare]
    rfl
  · have htext : g.sections = _ := hsections g.header _ _ htexts
    rw [GoFile.body, htext]
    rfl

/-- What stands before a body holds the same code with the comment of a header and without it. -/
theorem sameCode_preamble {g : GoFile} (hg : g.header.Lined) {imports : ImportSet}
    (hp : ∀ i ∈ imports, Importable i) :
    SameCode ("\n\n".intercalate (preamble g.undocumented imports)).toList
      ("\n\n".intercalate (preamble g imports)).toList := by
  have hne : preamble g.undocumented imports ≠ [] := by simp [preamble, frontMatter]
  have hrefl := sameCode_preamble_refl (g := g.undocumented) lined_empty hp
  have hpreamble : preamble g imports =
      (if g.header.isEmpty then [] else [g.header.render]) ++ preamble g.undocumented imports := by
    simp only [preamble, frontMatter, List.append_assoc]
    rfl
  rw [hpreamble]
  split_ifs
  · exact hrefl
  · rw [String.toList_intercalate (l := _ ++ _), List.map_append, intercalate_append _ (by simp)
      (by simpa using hne), ← String.toList_intercalate (l := preamble _ _)]
    have habove := (codeless_render hg).above (codeless_nil.above hrefl)
    simpa using habove

/-- Files that differ in comments only come out alike: with the same code, or without a text
because of the same import. -/
theorem SoundFile.agree_finish {g g' : GoFile} (h : SoundFile P g) (h' : SoundFile P' g')
    (hu : g'.undocumented = g.undocumented) (hheader : g.header.Lined)
    (hheader' : g'.header.Lined) (hp : ∀ i, P i → Importable i) (hp' : ∀ i, P' i → Importable i) :
    Agree (fun t t' ↦ SameCode t.toList t'.toList) g.finish.result g'.finish.result := by
  obtain ⟨bare, body, hbare, hbody, hsame⟩ := h.exists_bodies
  obtain ⟨bare', body', hbare', hbody', hsame'⟩ := h'.exists_bodies
  rw [hu] at hbare'
  obtain rfl := Except.ok.inj (hbare.symm.trans hbare')
  have hdeclared : ∀ i ∈ g.declaredImports, Importable i := fun i hi ↦ hp i (h.declaredImports i hi)
  have hdeclared' : ∀ i ∈ g'.declaredImports, Importable i :=
    fun i hi ↦ hp' i (h'.declaredImports i hi)
  have himports : resolveImports body' g'.declaredImports =
      resolveImports body g.declaredImports := by
    rw [resolveImports, (hsame.symm.trans hsame').usedQualifiers_eq,
      ← g'.declaredImports_undocumented, hu, g.declaredImports_undocumented]
    rfl
  have hsource : SameCode (resolvedSource g body).toList (resolvedSource g' body').toList := by
    have hresolved : ∀ i ∈ resolveImports body g.declaredImports, Importable i :=
      importable_of_mem_resolveImports hdeclared
    have hpreamble' := sameCode_preamble hheader' hresolved
    rw [hu] at hpreamble'
    rw [resolvedSource, resolvedSource, himports]
    exact sameCode_assemble ((sameCode_preamble hheader hresolved).symm.trans hpreamble')
      (hsame.symm.trans hsame')
  rw [result_finish hbody, result_finish hbody']
  by_cases hcase : ∃ i ∈ resolveImports body g.declaredImports, i.localName = some "case"
  · obtain ⟨i, hi, hc⟩ := hcase
    obtain ⟨gs, gs', hmark, hmark', -⟩ := id hsource
    obtain ⟨line, hline⟩ := exists_layOut_eq_misplacedCase hheader hdeclared hi hc hmark
    obtain ⟨line', hline'⟩ :=
      exists_layOut_eq_misplacedCase hheader' hdeclared' (himports ▸ hi) hc hmark'
    rw [hline, hline']
    exact .error (.misplacedCase line line' hsource)
  · simp only [not_exists, not_and] at hcase
    obtain ⟨text, htext⟩ := exists_layOut_of_resolved (text_frontMatter hheader)
      (h.text_body hbody) hdeclared hcase
    obtain ⟨text', htext'⟩ := exists_layOut_of_resolved (text_frontMatter hheader')
      (h'.text_body hbody') hdeclared' (himports ▸ hcase)
    rw [htext, htext']
    refine .ok (((sameCode_format (eq_ok_of_inBuilder htext)).symm.trans hsource).trans ?_)
    exact sameCode_format (eq_ok_of_inBuilder htext')

end Layout

end RpcStubs
