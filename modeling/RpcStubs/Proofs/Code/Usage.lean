import RpcStubs.Proofs.Code.Files

namespace RpcStubs

open Text

theorem mem_qualifiersFrom_of_mem {q : String} {found : List String} (h : q ∈ found)
    (before : Before) (word : List Char) (member : Bool) (s : List Char) :
    q ∈ qualifiersFrom before word member found s := by
  induction s generalizing before word member found with
  | nil => exact List.mem_reverse.2 h
  | cons c s ih =>
    rw [qualifiersFrom]
    split_ifs
    · exact ih h _ _ _
    · exact ih h _ _ _
    · exact ih h _ _ _
    · exact ih (List.mem_cons_of_mem _ h) _ _ _
    · exact ih h _ _ _

/-- Whatever has been read, reading goes on in some state. -/
theorem exists_qualifiersFrom_append (before : Before) (word : List Char) (member : Bool)
    (found : List String) (a s : List Char) :
    ∃ before' word' member' found', qualifiersFrom before word member found (a ++ s) =
      qualifiersFrom before' word' member' found' s := by
  induction a generalizing before word member found with
  | nil => exact ⟨before, word, member, found, rfl⟩
  | cons c a ih =>
    rw [List.cons_append, qualifiersFrom]
    split_ifs <;> exact ih _ _ _ _

theorem qualifiersFrom_word {ds : List Char} (hd : ∀ c ∈ ds, Name.isWordChar c = true)
    {word : List Char} (hw : word ≠ []) (before : Before) (member : Bool) (found : List String)
    (s : List Char) :
    ∃ before', qualifiersFrom before word member found (ds ++ s) =
      qualifiersFrom before' (ds.reverse ++ word) member found s := by
  induction ds generalizing before word with
  | nil => exact ⟨before, rfl⟩
  | cons d ds ih =>
    have hword : d :: word ≠ [] := List.cons_ne_nil d word
    obtain ⟨before', h⟩ := ih (fun c hc ↦ hd c (List.mem_cons_of_mem d hc)) hword (before.push d)
    refine ⟨before', ?_⟩
    rw [List.cons_append, qualifiersFrom, if_neg (by simpa using hw),
      if_pos (hd d List.mem_cons_self), h, List.reverse_cons, List.append_assoc]
    rfl

/-- A word between an asterisk and a dot with a further word is a qualifier. -/
theorem mem_qualifiersFrom {name : List Char} (hn : isWord name = true) {c : Char}
    (hc : startsWord c = true) (before : Before) (word : List Char) (member : Bool)
    (found : List String) (a b : List Char) :
    String.ofList name ∈
      qualifiersFrom before word member found (a ++ '*' :: (name ++ '.' :: c :: b)) := by
  obtain ⟨before₁, word₁, member₁, found₁, h₁⟩ := exists_qualifiersFrom_append before word member
    found a ('*' :: (name ++ '.' :: c :: b))
  have hstar : qualifiersFrom before₁ word₁ member₁ found₁ ('*' :: (name ++ '.' :: c :: b)) =
      qualifiersFrom (before₁.push '*') [] false found₁ (name ++ '.' :: c :: b) := by
    rw [qualifiersFrom]
    split_ifs with hw hs hs' hm
    · exact absurd hs (by decide)
    · rfl
    · exact absurd hs' (by decide)
    · simp at hm
    · rfl
  have hword (e : Char) (he : e ∈ name) := isWordChar_of_mem hn he
  obtain ⟨d, ds, rfl, hd⟩ := exists_of_isWord hn
  -- the first character opens the word, which nothing selects
  have hfirst : qualifiersFrom (before₁.push '*') [] false found₁ (d :: ds ++ '.' :: c :: b) =
      qualifiersFrom ((before₁.push '*').push d) [d] false found₁ (ds ++ '.' :: c :: b) := by
    rw [List.cons_append, qualifiersFrom, if_pos (by simp), if_pos hd]
    rfl
  obtain ⟨before₂, h₂⟩ := qualifiersFrom_word (fun e he ↦ hword e (List.mem_cons_of_mem d he))
    (List.cons_ne_nil d []) ((before₁.push '*').push d) false found₁ ('.' :: c :: b)
  rw [h₁, hstar, hfirst, h₂, qualifiersFrom, if_neg (by simp), if_neg (by decide),
    if_pos (by simp [hc])]
  refine mem_qualifiersFrom_of_mem ?_ _ _ _ _
  simp

namespace Layout

variable {P : Import → Prop}

/-- Sound text can be marked, and its plain lines are code. -/
theorem Sound.exists_marked {frames frames' : List Frame} {ts : List (List Char)}
    (h : Sound frames ts frames') (hne : ts ≠ []) :
    ∃ gs q, glyphText gs = List.intercalate ['\n'] ts ∧
      Marked none (.inside .code) gs (.inside q) ∧ q.nextLine = some .code ∧
      ∀ t ∈ ts, (∀ c ∈ t, isPlain c = true) → ∃ a b, gs = a ++ (t.map (·, .code) ++ b) := by
  induction h with
  | nil => exact absurd rfl hne
  | @cons frames frames' frames'' t ts hl _ ih =>
    obtain ⟨⟨gs, after, rfl, ⟨hs, q, hm, hq⟩, -, -⟩, -⟩ := hl
    have hplain (hp : ∀ c ∈ glyphText gs, isPlain c = true) :
        gs = (glyphText gs).map (·, .code) := eq_of_marked_plain hm hp |>.1
    cases ts with
    | nil =>
      refine ⟨gs, q, by simp, hm, hq, fun t ht hp ↦ ⟨[], [], ?_⟩⟩
      obtain rfl := List.mem_singleton.1 ht
      simpa using hplain hp
    | cons t' ts =>
      obtain ⟨gs', q', htext, hm', hq', hlines⟩ := ih (by simp)
      refine ⟨gs ++ ('\n', .code) :: gs', q', ?_, marked_line.2 ⟨⟨q, hm, hq⟩, hm'⟩, hq', ?_⟩
      · rw [List.intercalate_cons_cons, ← htext]
        simp
      · intro t ht hp
        rcases List.mem_cons.1 ht with rfl | ht
        · exact ⟨[], ('\n', .code) :: gs', by rw [← hplain hp]; rfl⟩
        · obtain ⟨a, b, rfl⟩ := hlines t ht hp
          exact ⟨gs ++ ('\n', .code) :: a, b, by simp⟩

theorem mem_usedQualifiers {body : String} (h : SoundText [] body.toList []) {t : List Char}
    (ht : t ∈ pieces '\n' body.toList) (hp : ∀ c ∈ t, isPlain c = true) {name : List Char}
    (hn : isWord name = true) {c : Char} (hc : startsWord c = true) {a b : List Char}
    (he : t = a ++ '*' :: (name ++ '.' :: c :: b)) :
    String.ofList name ∈ usedQualifiers body := by
  obtain ⟨gs, q, htext, hm, hq, hlines⟩ := Sound.exists_marked h (pieces_ne_nil _ _)
  rw [intercalate_pieces] at htext
  obtain ⟨ga, gb, rfl⟩ := hlines t ht hp
  have hcode : codeOnly (ga ++ (t.map (·, .code) ++ gb)) = codeOnly ga ++ t ++ codeOnly gb := by
    have hline : codeOnly (t.map (·, Region.code)) = t := by simp [codeOnly, Function.comp_def]
    conv_rhs => rw [← hline]
    simp [codeOnly]
  rw [usedQualifiers, mark_eq_ok_iff.2 ⟨htext, q, hm, hq⟩]
  simp only [OrderedSet.mem_ofList, hcode]
  have hsplit : codeOnly ga ++ t ++ codeOnly gb =
      (codeOnly ga ++ a) ++ '*' :: (name ++ '.' :: c :: (b ++ codeOnly gb)) := by
    rw [he]
    simp
  rw [hsplit]
  exact mem_qualifiersFrom hn hc _ _ _ _ _ _

theorem infix_intercalate {sep t : List Char} {l : List (List Char)} (h : t ∈ l) :
    t <:+: List.intercalate sep l := by
  induction l with
  | nil => cases h
  | cons u l ih =>
    cases l with
    | nil =>
      obtain rfl := List.mem_singleton.1 h
      simp
    | cons v l =>
      rw [List.intercalate_cons_cons]
      rcases List.mem_cons.1 h with rfl | h
      · exact ((List.prefix_append t sep).trans (List.prefix_append _ _)).isInfix
      · exact (ih h).trans (List.suffix_append _ _).isInfix

theorem infix_valueList {values : List String} {v : String} (h : v ∈ values) :
    v.toList <:+: (Name.valueList values).toList := by
  rw [Name.valueList, String.toList_intercalate]
  exact infix_intercalate (List.mem_map_of_mem h)

theorem infix_parens (s : String) : s.toList <:+: ("(" ++ s ++ ")").toList := by
  rw [String.toList_append, String.toList_append]
  exact ⟨"(".toList, ")".toList, rfl⟩

theorem toList_signature (params : List Parameter) (results : List GoType) :
    (signature params results).toList = ("(" ++ Parameter.list params ++ ")").toList ++
      if (GoType.resultList results).isEmpty then []
      else ' ' :: (GoType.resultList results).toList := by
  unfold signature GoType.withResults
  split_ifs
  · rw [List.append_nil]
  · rw [String.toList_append, String.toList_append, List.append_assoc]
    rfl

theorem infix_signature_param {params : List Parameter} (results : List GoType) {p : Parameter}
    (h : p ∈ params) : p.type.spell.toList <:+: (signature params results).toList := by
  have hp : p.type.spell.toList <:+: p.render.toList := by
    rw [Parameter.render, String.toList_append]
    exact (List.suffix_append _ _).isInfix
  rw [toList_signature]
  exact ((hp.trans (infix_valueList (List.mem_map_of_mem h))).trans (infix_parens _)).trans
    (List.prefix_append _ _).isInfix

theorem infix_resultList {results : List GoType} {t : GoType} (h : t ∈ results) :
    t.spell.toList <:+: (GoType.resultList results).toList := by
  have hlist : t.spell.toList <:+: (Name.valueList (GoType.spellAll results)).toList := by
    rw [spellAll_eq_map]
    exact infix_valueList (List.mem_map_of_mem h)
  unfold GoType.resultList GoType.joinResults
  split
  · cases h
  · split_ifs
    · exact hlist.trans (infix_parens _)
    · exact hlist
  · exact hlist.trans (infix_parens _)

theorem infix_signature_result (params : List Parameter) {results : List GoType} {t : GoType}
    (h : t ∈ results) : t.spell.toList <:+: (signature params results).toList := by
  have hr := infix_resultList h
  rw [toList_signature]
  split_ifs with he
  · rw [String.isEmpty_iff.1 he] at hr
    exact hr.trans (List.nil_infix)
  · exact hr.trans ((List.suffix_cons _ _).trans (List.suffix_append _ _)).isInfix

theorem getLast?_signature (params : List Parameter) {results : List GoType}
    (h : 2 ≤ results.length) : (signature params results).toList.getLast? = some ')' := by
  obtain ⟨t, u, rest, rfl⟩ : ∃ t u rest, results = t :: u :: rest := by
    match results, h with
    | t :: u :: rest, _ => exact ⟨t, u, rest, rfl⟩
  have hlist : GoType.resultList (t :: u :: rest) =
      "(" ++ Name.valueList (GoType.spellAll (t :: u :: rest)) ++ ")" := rfl
  have hne : (GoType.resultList (t :: u :: rest)).isEmpty = false := by
    rw [← Bool.not_eq_true, String.isEmpty_iff, ← String.toList_inj, hlist]
    simp
  rw [toList_signature, if_neg (by simp [hne]), List.getLast?_append, hlist,
    List.getLast?_cons, String.toList_append, List.getLast?_append]
  rfl

theorem plain_signature {params : List Parameter} {results : List GoType}
    (h : SoundSignature P params results) :
    ∀ c ∈ (signature params results).toList, isPlain c = true := by
  have hparams : ∀ c ∈ ("(" ++ Parameter.list params ++ ")").toList, isPlain c = true := by
    refine plain_parens (plain_valueList fun v hv c hc ↦ ?_)
    obtain ⟨p, hp, rfl⟩ := List.mem_map.1 hv
    obtain ⟨hname, htype⟩ := h.params p hp
    simp only [Parameter.render, String.toList_append, List.mem_append] at hc
    rcases hc with (hc | hc) | hc
    · exact isPlain_of_isWordChar (isWordChar_of_mem (isWord_of_legal hname) hc)
    · exact isPlain_of_isBlank (by obtain rfl := List.mem_singleton.1 hc; decide)
    · exact htype.plain c hc
  have hresults : ∀ c ∈ (GoType.resultList results).toList, isPlain c = true :=
    plain_resultList fun t ht ↦ (h.results t ht).plain
  intro c hc
  rw [toList_signature, List.mem_append] at hc
  split_ifs at hc
  · exact hparams c (by simpa using hc)
  · rcases hc with hc | hc
    · exact hparams c hc
    · rcases List.mem_cons.1 hc with rfl | hc
      · decide
      · exact hresults c hc

theorem not_isWord_of_cutFirst {w rest : List Char} (hw : isWord w = true) {sep : Char}
    (hs : Name.isWordChar sep = false) (hne : sep ≠ '(') {a b : List Char}
    (h : cutFirst sep (w ++ '(' :: rest) = some (a, b)) : isWord a = false := by
  obtain ⟨he, -⟩ := cutFirst_eq_some_iff.1 h
  have hparen : '(' ∈ a := by
    rcases List.append_eq_append_iff.1 he with ⟨c, rfl, hc⟩ | ⟨c, rfl, hc⟩
    · cases c with
      | nil => exact absurd (List.cons.inj hc).1.symm hne
      | cons d c =>
        obtain rfl := (List.cons.inj hc).1
        simp
    · cases c with
      | nil => exact absurd (List.cons.inj hc).1 hne
      | cons d c =>
        obtain rfl := (List.cons.inj hc).1
        exact absurd (by simp) (not_mem_of_isWord hw hs)
  by_contra hword
  exact not_mem_of_isWord (by simpa using hword) (by decide) hparen

theorem columnless_of_paren {w rest : List Char} (hw : isWord w = true)
    (ht : Tight (w ++ '(' :: rest)) : Columnless (w ++ '(' :: rest) := by
  constructor
  · rw [ht.trim_eq, fieldCells?]
    split
    · rfl
    · next a b h =>
      have hword := not_isWord_of_cutFirst hw (by decide) (by decide) h
      simp [hword]
  · rw [ht.trim_eq, keyedCells?]
    split
    · rfl
    · next a b h =>
      have hword := not_isWord_of_cutFirst hw (by decide) (by decide) h
      simp [hword]

theorem SoundInterface.exists_method_line {d : Interface} (h : SoundInterface P d)
    {m : InterfaceMethod} (hm : m ∈ d.methods) (hr : 2 ≤ m.results.length) {text : String}
    (ht : d.render = .ok text) :
    ∃ n, List.replicate n '\t' ++ (methodLine m).toList ∈ pieces '\n' text.toList := by
  have hs := (h.methods m hm).2
  have hword := isWord_of_legal m.name.legal
  obtain ⟨rest, hrest⟩ := exists_toList_signature m.params m.results
  have hline : (methodLine m).toList = m.name.name.toList ++ '(' :: rest := by
    rw [methodLine, String.toList_append, hrest]
  have hlast := getLast?_signature m.params hr
  have htight : Tight (m.name.name.toList ++ '(' :: rest) := by
    constructor
    · intro c hc
      obtain ⟨c', w, hw, hstart⟩ := exists_of_isWord hword
      rw [hw] at hc
      obtain rfl : c' = c := by simpa using hc
      exact isBlank_of_isWordChar (isWordChar_of_startsWord hstart)
    · intro c hc
      rw [hrest] at hlast
      rw [List.getLast?_append, hlast] at hc
      obtain rfl : ')' = c := by simpa using hc
      decide
  have hlastSource : d.source.toList.getLast? = some '\x7d' := by
    rw [source_interface]
    exact getLast?_above (getLast?_members _)
  obtain ⟨text', htext', hf⟩ := h.text.exists_fragment hlastSource (by decide)
  have heq : text' = text := by
    rw [Interface.render, finish, htext'] at ht
    exact Except.ok.inj ht
  have hmem := mem_pieces_interface hm hs
  rw [hline] at hmem ⊢
  obtain ⟨n, hn⟩ := hf.kept _ hmem (by rw [htight.trim_eq]; simp) (columnless_of_paren hword htight)
  rw [htight.trim_eq, heq] at hn
  exact ⟨n, hn⟩

theorem mem_pieces_blocks {texts : List String} {t : String} (ht : t ∈ texts) {l : List Char}
    (hl : l ∈ pieces '\n' t.toList) : l ∈ pieces '\n' ("\n\n".intercalate texts).toList := by
  rw [String.toList_intercalate]
  induction texts with
  | nil => cases ht
  | cons u texts ih =>
    cases texts with
    | nil =>
      obtain rfl := List.mem_singleton.1 ht
      simpa using hl
    | cons v texts =>
      have hgap (a b : List Char) : a ++ "\n\n".toList ++ b = a ++ '\n' :: ([] ++ '\n' :: b) := by
        simp
      rw [List.map_cons, List.map_cons, List.intercalate_cons_cons, hgap, pieces_append,
        pieces_append, List.mem_append, List.mem_append]
      rcases List.mem_cons.1 ht with rfl | ht
      · exact .inl hl
      · exact .inr (.inr (ih ht))

/-- A package is used if it qualifies a type to which a method of an interface points. -/
theorem SoundFile.mem_usedQualifiers {g : GoFile} (h : SoundFile P g) {body : String}
    (hb : g.body = .ok body) {d : Interface} (hd : d ∈ g.interfaces) {m : InterfaceMethod}
    (hm : m ∈ d.methods) (hr : 2 ≤ m.results.length) {name package : String}
    {origin : Option Import} (hname : isWord name.toList = true)
    (hpackage : isWord package.toList = true)
    (ht : (∃ p ∈ m.params, p.type = .pointer (.named name (some package) origin)) ∨
      GoType.pointer (.named name (some package) origin) ∈ m.results) :
    package ∈ usedQualifiers body := by
  obtain ⟨texts, hbody, hsound, hrender⟩ := h.exists_body
  obtain rfl : "\n\n".intercalate texts = body := Except.ok.inj (hbody.symm.trans hb)
  obtain ⟨text, htext, hdr⟩ := hrender d hd
  have hi := h.interfaces d hd
  have hs := (hi.methods m hm).2
  obtain ⟨n, hn⟩ := hi.exists_method_line hm hr hdr
  have hinfix : (GoType.pointer (.named name (some package) origin)).spell.toList <:+:
      (signature m.params m.results).toList := by
    rcases ht with ⟨p, hp, htype⟩ | ht
    · have := infix_signature_param m.results hp
      rwa [htype] at this
    · exact infix_signature_result m.params ht
  obtain ⟨a, b, hab⟩ := hinfix
  obtain ⟨c, rest, hrest, hc⟩ := exists_of_isWord hname
  have hspell : (GoType.pointer (.named name (some package) origin)).spell.toList =
      '*' :: (package.toList ++ '.' :: c :: rest) := by
    change ("*" ++ (package ++ "." ++ name)).toList = _
    simp [hrest]
  have hplain : ∀ c ∈ List.replicate n '\t' ++ (methodLine m).toList, isPlain c = true := by
    intro c hc
    rw [methodLine, String.toList_append, List.mem_append, List.mem_append] at hc
    rcases hc with hc | hc | hc
    · rw [List.eq_of_mem_replicate hc]
      decide
    · exact isPlain_of_isWordChar (isWordChar_of_mem (isWord_of_legal m.name.legal) hc)
    · exact plain_signature hs c hc
  have hused := Layout.mem_usedQualifiers
    (text_blocks (List.ne_nil_of_mem htext) hsound) (mem_pieces_blocks htext hn) hplain hpackage hc
    (a := List.replicate n '\t' ++ (m.name.name.toList ++ a)) (b := rest ++ b) (by
      rw [methodLine, String.toList_append, ← hab, hspell]
      simp)
  rwa [String.ofList_toList] at hused

/-- A declared import whose qualifier is used is kept. -/
theorem mem_resolveImports_of_used {body : String} {declared : ImportSet} {i : Import}
    (hi : i ∈ declared) (hu : i.qualifier ∈ usedQualifiers body) :
    i ∈ resolveImports body declared :=
  mem_resolveImports_iff.2 (.inl ⟨hi, hu⟩)

theorem SoundFile.exists_finish {g : GoFile} (h : SoundFile P g)
    (hfront : ∀ t ∈ frontMatter g, SoundText [] t.toList [])
    (hp : ∀ i, P i → Importable i) (hc : ∀ i ∈ g.declaredImports, i.localName ≠ some "case") :
    ∃ text, g.finish.result = .ok text := by
  obtain ⟨texts, hbody, -, -⟩ := h.exists_body
  obtain ⟨text, htext⟩ := exists_layOut hfront (h.text_body hbody)
    (fun i hi ↦ hp i (h.declaredImports i hi)) hc
  exact ⟨text, (result_finish hbody).trans htext⟩

end Layout

end RpcStubs
