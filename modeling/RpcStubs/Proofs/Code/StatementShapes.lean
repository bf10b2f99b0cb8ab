import RpcStubs.Proofs.Code.Outline
import RpcStubs.Proofs.Layout.Alignment

namespace RpcStubs

open Text Layout

def Bare (s : List Char) : Prop := ∀ c ∈ s, c ≠ '\n' ∧ c ≠ '\x60'

theorem Bare.append {a b : List Char} (ha : Bare a) (hb : Bare b) : Bare (a ++ b) :=
  List.forall_mem_append.2 ⟨ha, hb⟩

theorem bare_of_isWord {s : List Char} (h : isWord s = true) : Bare s := by
  intro c hc
  have hword := isWordChar_of_mem h hc
  constructor <;> rintro rfl <;> exact absurd hword (by decide)

theorem bare_of_legal {s : String} (h : identifierFault? s = none) : Bare s.toList :=
  bare_of_isWord (isWord_of_legal h)

theorem bare_intercalate {sep : List Char} (hsep : Bare sep) {pieces : List (List Char)}
    (h : ∀ p ∈ pieces, Bare p) : Bare (List.intercalate sep pieces) := by
  intro c hc
  rcases mem_of_mem_intercalate hc with hc | ⟨p, hp, hc⟩
  · exact hsep c hc
  · exact h p hp c hc

theorem Layout.Selector.bare {s : String} (h : Selector s) : Bare s.toList := by
  rw [← intercalate_pieces '.' s.toList]
  refine bare_intercalate (by unfold Bare; decide) fun w hw ↦ ?_
  have hbare := bare_of_legal (h w hw)
  rwa [String.toList_ofList] at hbare

theorem bare_valueList {values : List String} (h : ∀ v ∈ values, Bare v.toList) :
    Bare (Name.valueList values).toList := by
  rw [Name.valueList, String.toList_intercalate]
  refine bare_intercalate (by unfold Bare; decide) fun p hp ↦ ?_
  obtain ⟨v, hv, rfl⟩ := List.mem_map.1 hp
  exact h v hv

theorem bare_type {P : Import → Prop} {t : GoType} (h : Usable P t) : Bare t.spell.toList := by
  intro c hc
  constructor
  · rintro rfl
    exact h.flat.single hc
  · rintro rfl
    exact absurd (h.plain _ hc) (by decide)

theorem bare_callText {callee : String} (hc : Selector callee) {args : List String}
    (ha : ∀ a ∈ args, IsSelector a) : Bare (Step.callText callee args).toList := by
  have hopen : Bare "(".toList := by unfold Bare; decide
  have hclose : Bare ")".toList := by unfold Bare; decide
  rw [Step.callText, String.toList_append, String.toList_append, String.toList_append]
  exact ((hc.bare.append hopen).append
    (bare_valueList fun a h ↦ (ha a h).selector.bare)).append hclose

def Ends (s : List Char) : Prop := ∃ c, s.getLast? = some c ∧ isBlank c = false

theorem Ends.append {b : List Char} (h : Ends b) (a : List Char) : Ends (a ++ b) := by
  obtain ⟨c, hc, hb⟩ := h
  refine ⟨c, ?_, hb⟩
  rw [List.getLast?_append, hc]
  rfl

theorem ends_paren (s : List Char) : Ends (s ++ [')']) :=
  Ends.append ⟨')', rfl, by decide⟩ s

theorem ends_of_forall {s : List Char} (hne : s ≠ []) (h : ∀ c ∈ s, isBlank c = false) : Ends s :=
  ⟨s.getLast hne, List.getLast?_eq_some_getLast hne, h _ (List.getLast_mem hne)⟩

theorem ends_of_isWord {s : List Char} (h : isWord s = true) : Ends s := by
  obtain ⟨c, rest, rfl, -⟩ := exists_of_isWord h
  exact ends_of_forall (by simp) fun d hd ↦ isBlank_of_isWordChar (isWordChar_of_mem h hd)

theorem Layout.Selector.ends {s : String} (h : Selector s) : Ends s.toList :=
  ends_of_forall h.ne_nil fun _ hc ↦ h.not_isBlank hc

theorem ends_valueList {values : List String} (hne : values ≠ [])
    (h : ∀ v ∈ values, Ends v.toList) : Ends (Name.valueList values).toList :=
  toList_intercalate_closed (fun _ _ _ hb ↦ (hb.append _).append _) hne h

theorem ends_callText (callee : String) (args : List String) :
    Ends (Step.callText callee args).toList := by
  rw [Step.callText, String.toList_append]
  exact ends_paren _

theorem ends_resultList {results : List GoType} (hne : results ≠ [])
    (h : ∀ t ∈ results, Ends t.spell.toList) : Ends (GoType.resultList results).toList := by
  have hnames : Ends (Name.valueList (GoType.spellAll results)).toList := by
    rw [spellAll_eq_map]
    refine ends_valueList (by simpa using hne) fun v hv ↦ ?_
    obtain ⟨t, ht, rfl⟩ := List.mem_map.1 hv
    exact h t ht
  have hparens (s : String) : Ends ("(" ++ s ++ ")").toList := by
    rw [String.toList_append]
    exact ends_paren _
  unfold GoType.resultList GoType.joinResults
  split
  · exact absurd rfl hne
  · split_ifs
    · exact hparens _
    · exact hnames
  · exact hparens _

theorem ends_composite {t element : GoType} {mark : String} (ht : t.spell = mark ++ element.spell)
    (h : Ends element.spell.toList) : Ends t.spell.toList := by
  rw [ht, String.toList_append]
  exact h.append _

theorem GoType.Built.ends {t : GoType} (h : t.Built) : Ends t.spell.toList := by
  induction h with
  | primitive p =>
    change Ends p.name.toList
    cases p <;> exact ends_of_isWord (by decide)
  | @declared name t h =>
    have hy := yields_declared name
    rw [h] at hy
    obtain ⟨rfl, hn⟩ := hy.of_ok
    exact ends_of_isWord hn
  | @qualified package name origin t h =>
    have hy := yields_qualified package name origin
    rw [h] at hy
    obtain ⟨rfl, -, hn⟩ := hy.of_ok
    change Ends (package ++ "." ++ name).toList
    rw [String.toList_append]
    exact (ends_of_isWord hn).append _
  | pointer _ ih | slice _ ih | array _ _ ih | variadic _ ih => exact ends_composite rfl ih
  | map _ _ _ ih => exact ends_composite rfl ih
  | @func params results _ _ _ ih =>
    rw [toList_spell_func]
    split_ifs with he
    · rw [List.append_nil, String.toList_append, ← List.append_assoc]
      exact ends_paren _
    · have hne : results ≠ [] := by
        rintro rfl
        exact he rfl
      rw [← List.singleton_append, ← List.append_assoc]
      exact (ends_resultList hne ih).append _

/-- How a statement begins, and the word in front of its first space if that is all there is. -/
inductive Shape : List Char → Option String → Prop
  | word {w : List Char} : isWord w = true → Shape w none
  | field {w : String} {rest : List Char} {c : Char} : isWord w.toList = true →
      rest.head? = some c → isBlank c = false → Shape (w.toList ++ ' ' :: rest) (some w)
  | other {a rest : List Char} {c d : Char} : a.head? = some c → startsWord c = true → ' ' ∉ a →
      d ≠ ' ' → Name.isWordChar d = false → Shape (a ++ d :: rest) none

theorem Shape.exists_head {t : List Char} {w : Option String} (h : Shape t w) :
    ∃ c, t.head? = some c ∧ startsWord c = true := by
  cases h with
  | word hw =>
    obtain ⟨c, rest, rfl, hc⟩ := exists_of_isWord hw
    exact ⟨c, rfl, hc⟩
  | field hw =>
    obtain ⟨c, rest, hw, hc⟩ := exists_of_isWord hw
    exact ⟨c, by rw [hw]; rfl, hc⟩
  | other ha hc =>
    refine ⟨_, ?_, hc⟩
    rw [List.head?_append, ha]
    rfl

theorem Shape.fieldCells?_eq_none {t : List Char} (h : Shape t none) : fieldCells? t = none := by
  cases h with
  | word hw =>
    have hcut : cutFirst ' ' t = none := by
      cases hcut : cutFirst ' ' t with
      | none => rfl
      | some cut =>
        obtain ⟨rfl, -⟩ := cutFirst_eq_some_iff.1 hcut
        have hspace : ' ' ∉ cut.1 ++ ' ' :: cut.2 := not_mem_of_isWord hw (by decide)
        simp at hspace
    rw [fieldCells?, hcut]
  | @other a rest c d _ _ ha hd hword =>
    cases hcut : cutFirst ' ' (a ++ d :: rest) with
    | none => rw [fieldCells?, hcut]
    | some cut =>
      obtain ⟨name, tail⟩ := cut
      obtain ⟨hsplit, -⟩ := cutFirst_eq_some_iff.1 hcut
      -- the separator comes before the first space, so the name is no word
      have hmem : d ∈ name := by
        rcases List.append_eq_append_iff.1 hsplit with ⟨l, rfl, hl⟩ | ⟨l, rfl, hl⟩
        · cases l with
          | nil => exact absurd (List.cons.inj hl).1 hd
          | cons e l =>
            rw [(List.cons.inj hl).1]
            simp
        · cases l with
          | nil => exact absurd (List.cons.inj hl).1.symm hd
          | cons e l =>
            rw [← (List.cons.inj hl).1] at ha
            simp at ha
      have hname : isWord name = false := by
        by_contra hn
        rw [isWordChar_of_mem (by simpa using hn) hmem] at hword
        cases hword
      rw [fieldCells?, hcut]
      simp [hname]

theorem cutTag_eq_none_of_not_mem {s : List Char} (h : '\x60' ∉ s) : cutTag s = none := by
  induction s with
  | nil => rfl
  | cons c s ih =>
    simp only [List.mem_cons, not_or] at h
    have hhead : s.head? ≠ some '\x60' := fun hs ↦ h.2 (List.mem_of_mem_head? hs)
    rw [cutTag, if_neg (by simp [hhead]), ih h.2]
    rfl

theorem Shape.exists_fieldCells? {t : List Char} {w : String} (h : Shape t (some w))
    (hq : '\x60' ∉ t) :
    ∃ rest, t = w.toList ++ ' ' :: rest ∧ fieldCells? t = some (.field w.toList rest none) := by
  cases h with
  | @field _ rest c hw hc hb =>
    refine ⟨rest, rfl, ?_⟩
    have hcut : cutFirst ' ' (w.toList ++ ' ' :: rest) = some (w.toList, rest) :=
      cutFirst_eq_some_iff.2 ⟨rfl, not_mem_of_isWord hw (by decide)⟩
    have htrim : trimStart rest = rest := dropWhile_of_head fun d hd ↦ by
      obtain rfl := Option.some_inj.1 (hc.symm.trans hd)
      exact hb
    have htag : cutTag rest = none := cutTag_eq_none_of_not_mem fun hmem ↦ hq (by simp [hmem])
    have hne : rest ≠ [] := by
      rintro rfl
      cases hc
    rw [fieldCells?, hcut]
    simp [htrim, htag, hw, hne]

structure Statement (t : List Char) (w : Option String) : Prop where
  shape : Shape t w
  bare : Bare t
  ends : Ends t

theorem Statement.tight {t : List Char} {w : Option String} (h : Statement t w) : Tight t := by
  obtain ⟨c, hc, hstart⟩ := h.shape.exists_head
  obtain ⟨d, hd, hb⟩ := h.ends
  constructor
  · intro e he
    obtain rfl := Option.some_inj.1 (hc.symm.trans he)
    exact isBlank_of_isWordChar (isWordChar_of_startsWord hstart)
  · intro e he
    obtain rfl := Option.some_inj.1 (hd.symm.trans he)
    exact hb

/-- What may follow the first space of a statement. -/
structure Phrase (t : List Char) : Prop where
  first : ∃ c, t.head? = some c ∧ isBlank c = false
  bare : Bare t
  ends : Ends t

def isLeading (t : List Char) : Bool :=
  t.head?.any (fun c ↦ !isBlank c) && t.all fun c ↦ c != '\n' && c != '\x60'

theorem Phrase.behind {t lead : List Char} (hb : Bare t) (he : Ends t)
    (hl : isLeading lead = true) : Phrase (lead ++ t) := by
  simp only [isLeading, Bool.and_eq_true, List.all_eq_true, bne_iff_ne] at hl
  cases lead with
  | nil => exact absurd hl.1 (by decide)
  | cons c lead =>
    exact ⟨⟨c, rfl, by simpa using hl.1⟩, Bare.append hl.2 hb, he.append _⟩

theorem Phrase.append {a b : List Char} (h : Phrase a) (hb : Bare b) (he : Ends b) :
    Phrase (a ++ b) := by
  obtain ⟨c, hc, hblank⟩ := h.first
  exact ⟨⟨c, by rw [List.head?_append, hc]; rfl, hblank⟩, h.bare.append hb, he.append a⟩

theorem Layout.Selector.phrase {s : String} (h : Selector s) : Phrase s.toList := by
  obtain ⟨c, rest, hs⟩ := List.exists_cons_of_ne_nil h.ne_nil
  have hb : isBlank c = false := h.not_isBlank (by rw [hs]; exact List.mem_cons_self)
  exact ⟨⟨c, by rw [hs]; rfl, hb⟩, h.bare, h.ends⟩

theorem phrase_legal {s : String} (h : identifierFault? s = none) : Phrase s.toList := by
  have hword := isWord_of_legal h
  obtain ⟨c, rest, hs, hc⟩ := exists_of_isWord hword
  have hb := isBlank_of_isWordChar (isWordChar_of_startsWord hc)
  exact ⟨⟨c, by rw [hs]; rfl, hb⟩, bare_of_isWord hword, ends_of_isWord hword⟩

theorem phrase_valueList {values : List String} (hne : values ≠ [])
    (h : ∀ v ∈ values, IsSelector v) : Phrase (Name.valueList values).toList := by
  have hends := ends_valueList hne fun v hv ↦ (h v hv).selector.ends
  have hbare := bare_valueList fun v hv ↦ (h v hv).selector.bare
  refine ⟨?_, hbare, hends⟩
  cases values with
  | nil => exact absurd rfl hne
  | cons v values =>
    obtain ⟨c, hc, hb⟩ := (h v List.mem_cons_self).selector.phrase.first
    refine ⟨c, ?_, hb⟩
    rw [Name.valueList, String.toList_intercalate]
    exact head?_intercalate rfl hc

theorem phrase_callText {callee : String} (hc : Selector callee) {args : List String}
    (ha : ∀ a ∈ args, IsSelector a) : Phrase (Step.callText callee args).toList := by
  obtain ⟨c, hhead, hb⟩ := hc.phrase.first
  refine ⟨⟨c, ?_, hb⟩, bare_callText hc ha, ends_callText callee args⟩
  rw [Step.callText, String.append_assoc, String.append_assoc, String.toList_append,
    List.head?_append, hhead]
  rfl

theorem shape_targets {targets : List String} (hne : targets ≠ [])
    (h : ∀ s ∈ targets, identifierFault? s = none) {rest : List Char} {c : Char}
    (hc : rest.head? = some c) (hb : isBlank c = false) :
    Shape ((Name.valueList targets).toList ++ ' ' :: rest) (soleTarget? targets) := by
  rw [Name.valueList, String.toList_intercalate]
  cases targets with
  | nil => exact absurd rfl hne
  | cons s targets =>
    have hword := isWord_of_legal (h s List.mem_cons_self)
    cases targets with
    | nil =>
      have hfield : Shape (s.toList ++ ' ' :: rest) (some s) := .field hword hc hb
      simpa [soleTarget?] using hfield
    | cons s' targets =>
      obtain ⟨d, w, hd, hstart⟩ := exists_of_isWord hword
      have hother : Shape (s.toList ++ ',' :: (' ' :: (List.intercalate ", ".toList
          ((s' :: targets).map String.toList) ++ ' ' :: rest))) none :=
        .other (by rw [hd]; rfl) hstart (not_mem_of_isWord hword (by decide)) (by decide)
        (by decide)
      simpa [soleTarget?] using hother

theorem shape_selector {selector : String} (h : Selector selector) {d : Char} (hd : d ≠ ' ')
    (hw : Name.isWordChar d = false) (rest : List Char) :
    Shape (selector.toList ++ d :: rest) none := by
  obtain ⟨c, s, hs⟩ := List.exists_cons_of_ne_nil h.ne_nil
  have hspace : ' ' ∉ selector.toList := fun hmem ↦ absurd (h.not_isBlank hmem) (by decide)
  refine .other (by rw [hs]; rfl) ?_ hspace hd hw
  obtain ⟨w, ws, hws⟩ := List.exists_cons_of_ne_nil (pieces_ne_nil '.' selector.toList)
  have hlegal := isWord_of_legal (h w (hws ▸ List.mem_cons_self))
  rw [String.toList_ofList] at hlegal
  obtain ⟨e, w', rfl, he⟩ := exists_of_isWord hlegal
  have hjoin := intercalate_pieces '.' selector.toList
  rw [hws, hs] at hjoin
  cases ws with
  | nil =>
    rw [List.intercalate_singleton] at hjoin
    rwa [← (List.cons.inj hjoin).1]
  | cons v ws =>
    rw [List.intercalate_cons_cons, List.append_assoc, List.cons_append] at hjoin
    rwa [← (List.cons.inj hjoin).1]

theorem Statement.ofShape {a rest : List Char} {w : Option String}
    (h : Shape (a ++ ' ' :: rest) w) (ha : Bare a) (hr : Phrase rest) :
    Statement (a ++ ' ' :: rest) w := by
  refine ⟨h, ?_, ?_⟩
  · have hspace : Bare [' '] := by unfold Bare; decide
    exact ha.append (hspace.append hr.bare)
  · rw [← List.singleton_append]
    exact (hr.ends.append _).append _

theorem statement_targets {targets : List String} (hne : targets ≠ [])
    (ht : ∀ s ∈ targets, identifierFault? s = none) {rest : List Char} (hr : Phrase rest) :
    Statement ((Name.valueList targets).toList ++ ' ' :: rest) (soleTarget? targets) := by
  obtain ⟨c, hc, hb⟩ := hr.first
  exact .ofShape (shape_targets hne ht hc hb) (bare_valueList fun s hs ↦ bare_of_legal (ht s hs)) hr

theorem statement_word {w : String} (hw : isWord w.toList = true) {rest : List Char}
    (hr : Phrase rest) : Statement (w.toList ++ ' ' :: rest) (some w) := by
  obtain ⟨c, hc, hb⟩ := hr.first
  exact .ofShape (.field hw hc hb) (bare_of_isWord hw) hr

theorem bare_operator (op : Operator) : Bare op.symbol.toList := by
  unfold Bare
  cases op <;> decide

/-- The text of a plain step is a statement, if its checks do not fail. -/
theorem Step.yields_statement {s : Step} (hp : s.isPlain = true) (h : s.Simple) :
    Yields s.emit fun _ ↦ ∃ text, s.lines = [text] ∧ Statement text.toList s.firstWord? := by
  cases s with
  | call callee args =>
    refine (yields_checkedCall callee args).bind fun _ hc ↦ yields_pure ⟨_, rfl, ?_⟩
    have hshape : Shape (callee.toList ++ '(' :: ((Name.valueList args).toList ++ [')'])) none :=
      shape_selector hc.2 (by decide) (by decide) _
    refine ⟨?_, bare_callText hc.2 h, ends_callText callee args⟩
    simpa [Step.callText, Step.firstWord?] using hshape
  | defineCall targets callee args =>
    refine (yields_callExpr targets callee args).bind fun _ ht ↦ yields_pure ⟨_, rfl, ?_⟩
    obtain ⟨-, hne, hlegal, hc⟩ := ht
    have hphrase : Phrase (":= ".toList ++ (Step.callText callee args).toList) :=
      .behind (bare_callText hc h) (ends_callText callee args) (by decide)
    simpa [Step.firstWord?] using statement_targets hne hlegal hphrase
  | assignCall targets callee args =>
    refine (yields_checkTargets targets).bind fun _ ht ↦ ?_
    refine (yields_checkedCall callee args).bind fun _ hc ↦ yields_pure ⟨_, rfl, ?_⟩
    have hphrase : Phrase ("= ".toList ++ (Step.callText callee args).toList) :=
      .behind (bare_callText hc.2 h) (ends_callText callee args) (by decide)
    simpa [Step.firstWord?] using statement_targets ht.1 ht.2 hphrase
  | deferCall callee args =>
    refine (yields_checkedCall callee args).bind fun _ hc ↦ yields_pure ⟨_, rfl, ?_⟩
    have hword : Statement ("defer".toList ++ ' ' :: (Step.callText callee args).toList) _ :=
      statement_word (by decide) (phrase_callText hc.2 h)
    simpa [Step.firstWord?] using hword
  | returnCall callee args =>
    refine (yields_checkedCall callee args).bind fun _ hc ↦ yields_pure ⟨_, rfl, ?_⟩
    have hword : Statement ("return".toList ++ ' ' :: (Step.callText callee args).toList) _ :=
      statement_word (by decide) (phrase_callText hc.2 h)
    simpa [Step.firstWord?] using hword
  | returnValues values =>
    rw [Step.emit]
    split_ifs with hempty
    · exact .error rfl
    refine (yields_checkArgs values).bind fun _ _ ↦ yields_pure ⟨_, rfl, ?_⟩
    have hword : Statement ("return".toList ++ ' ' :: (Name.valueList values).toList) _ :=
      statement_word (by decide) (phrase_valueList (by simpa using hempty) h)
    simpa [Step.firstWord?] using hword
  | declareVar name type =>
    refine (yields_checkTargets [name]).bind fun _ ht ↦ yields_pure ⟨_, rfl, ?_⟩
    have hspace : Bare [' '] := by unfold Bare; decide
    have hphrase : Phrase (name.toList ++ ([' '] ++ type.spell.toList)) :=
      (phrase_legal (ht.2 name (by simp))).append
        (hspace.append (bare_type (GoType.Built.usable h))) ((GoType.Built.ends h).append _)
    have hword :
        Statement ("var".toList ++ ' ' :: (name.toList ++ ([' '] ++ type.spell.toList))) _ :=
      statement_word (by decide) hphrase
    simpa [Step.firstWord?] using hword
  | newInstance name type =>
    refine (yields_checkTargets [name]).bind fun _ ht ↦ yields_pure ⟨_, rfl, ?_⟩
    have hclose : Bare [')'] := by unfold Bare; decide
    have hphrase : Phrase (":= new(".toList ++ (type.spell.toList ++ [')'])) :=
      .behind ((bare_type (GoType.Built.usable h)).append hclose) (ends_paren _) (by decide)
    simpa [Step.firstWord?] using statement_word (isWord_of_legal (ht.2 name (by simp))) hphrase
  | defineOperation name left op right =>
    refine (yields_checkTargets [name]).bind fun _ ht ↦ ?_
    refine (yields_checkOperandOf ..).bind fun _ _ ↦ ?_
    refine (yields_checkOperandOf ..).bind fun _ _ ↦ ?_
    refine (yields_inBlock (yields_checkBinary op)).bind fun _ _ ↦ ?_
    refine yields_pure ⟨_, rfl, ?_⟩
    have hspace : Bare [' '] := by unfold Bare; decide
    have hphrase : Phrase (":= ".toList ++ (left.toList ++ ([' '] ++ (op.symbol.toList ++
        ([' '] ++ right.toList))))) :=
      .behind (h.1.selector.bare.append (hspace.append ((bare_operator op).append
        (hspace.append h.2.selector.bare))))
        ((((h.2.selector.ends.append _).append _).append _).append _) (by decide)
    simpa [Step.firstWord?] using statement_word (isWord_of_legal (ht.2 name (by simp))) hphrase
  | typeAssert targets value type =>
    refine (yields_checkTargets targets).bind fun _ ht ↦ ?_
    refine (yields_checkOperandOf ..).bind fun _ _ ↦ ?_
    refine yields_pure ⟨_, rfl, ?_⟩
    have hopen : Bare ".(".toList := by unfold Bare; decide
    have hclose : Bare [')'] := by unfold Bare; decide
    have hphrase : Phrase (":= ".toList ++ (value.toList ++ (".(".toList ++ type.spell.toList) ++
        [')'])) :=
      .behind ((h.1.selector.bare.append (hopen.append (bare_type h.2.usable))).append hclose)
        (ends_paren _) (by decide)
    simpa [Step.firstWord?] using statement_targets ht.1 ht.2 hphrase
  | assignField target field value =>
    refine (yields_inBlock (yields_checkSelector ..)).bind fun _ hs ↦ ?_
    refine (yields_checkTargets [field]).bind fun _ ht ↦ ?_
    refine (yields_checkOperandOf ..).bind fun _ _ ↦ ?_
    refine yields_pure ⟨_, rfl, ?_⟩
    have hvalue := IsSelector.selector h
    have hshape :
        Shape (target.toList ++ '.' :: (field.toList ++ " = ".toList ++ value.toList)) none :=
      shape_selector hs (by decide) (by decide) _
    have hdot : Bare ['.'] := by unfold Bare; decide
    have hsep : Bare " = ".toList := by unfold Bare; decide
    have hstatement : Statement (target.toList ++ '.' :: (field.toList ++ " = ".toList ++
        value.toList)) none := by
      refine ⟨hshape, ?_, ?_⟩
      · exact (Selector.bare hs).append (hdot.append
          (((bare_of_legal (ht.2 field (by simp))).append hsep).append hvalue.bare))
      · rw [← List.singleton_append]
        exact ((hvalue.ends.append _).append _).append _
    simpa [Step.firstWord?] using hstatement
  | ret => exact .ok ⟨_, rfl, .word (by decide), by unfold Bare; decide, ends_of_isWord (by decide)⟩
  | _ => cases hp

end RpcStubs
