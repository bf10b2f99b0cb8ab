import RpcStubs.Proofs.Layout.Cells
import RpcStubs.Proofs.Layout.Nesting

namespace RpcStubs.Layout

open Text

theorem of_blanks_append {b : List Char} (hb : Blanks b) (c : Char) (p : List Char) :
    Opener.of c (b ++ p) = Opener.of c p := by
  unfold Opener.of
  simp only [trim_blanks_append hb]
  cases p with
  | nil => simp [trim_eq_nil_iff.2 blanks_nil]
  | cons d p => rw [List.getLast?_append_of_ne_nil _ (List.cons_ne_nil d p)]

theorem turnAt_blanks_append {b : List Char} (hb : Blanks b) (p : List Char) (g : Glyph) :
    turnAt (b ++ p) g = turnAt p g := by
  have hall : b.all isBlank = true := List.all_eq_true.2 hb
  simp only [turnAt, of_blanks_append hb, List.all_append, hall, Bool.true_and]

theorem turns_blanks_append {b : List Char} (hb : Blanks b) (p : List Char) (gs : List Glyph) :
    turns (b ++ p) gs = turns p gs := by
  induction gs generalizing p with
  | nil => rfl
  | cons g gs ih => rw [turns, turns, turnAt_blanks_append hb, List.append_assoc, ih]

def Unbracketed (s : List Char) : Prop := ∀ c ∈ s, isOpening c = false ∧ isClosing c = false

theorem turns_of_unbracketed {gs : List Glyph} (h : Unbracketed (glyphText gs))
    (before : List Char) : turns before gs = [] := by
  induction gs generalizing before with
  | nil => rfl
  | cons g gs ih =>
    obtain ⟨ho, hc⟩ := h g.1 List.mem_cons_self
    rw [turns, ih fun c hc ↦ h c (List.mem_cons_of_mem g.1 hc)]
    simp [turnAt, ho, hc]

theorem isBracket_cases {c : Char} (h : isOpening c = true ∨ isClosing c = true) :
    c = '\x7b' ∨ c = '(' ∨ c = '[' ∨ c = '\x7d' ∨ c = ')' ∨ c = ']' := by
  simp only [isOpening, isClosing, Bool.or_eq_true, beq_iff_eq] at h
  tauto

theorem unbracketed_of_forall {P : Char → Bool} (hp : ∀ c ∈ ['\x7b', '(', '[', '\x7d', ')', ']'],
    P c = false) {s : List Char} (hs : ∀ c ∈ s, P c = true) : Unbracketed s := by
  intro c hc
  by_contra hb
  have hb' : isOpening c = true ∨ isClosing c = true := by
    by_contra hn
    simp only [not_or, Bool.not_eq_true] at hn
    exact hb hn
  have hcs := hs c hc
  rw [hp c (by simpa using isBracket_cases hb')] at hcs
  cases hcs

theorem unbracketed_of_blanks {s : List Char} (h : Blanks s) : Unbracketed s :=
  unbracketed_of_forall (P := isBlank) (by decide) h

theorem unbracketed_of_isWord {s : List Char} (h : isWord s = true) : Unbracketed s :=
  unbracketed_of_forall (P := Name.isWordChar) (by decide) fun _ hc ↦ isWordChar_of_mem h hc

/-- Blanks around a line make no turns and change none. -/
theorem turns_trim {lead core trail : List Glyph} (hl : Blanks (glyphText lead))
    (ht : Blanks (glyphText trail)) : turns [] (lead ++ core ++ trail) = turns [] core := by
  have hc := turns_blanks_append hl [] core
  rw [List.append_nil] at hc
  rw [List.append_assoc, turns_append, turns_append,
    turns_of_unbracketed (unbracketed_of_blanks hl),
    turns_of_unbracketed (unbracketed_of_blanks ht), List.nil_append, List.append_nil,
    List.nil_append, hc]

/-- A word and what ends it are found at the front of a text only if they are there. -/
theorem isPrefixOf_word {word name : List Char} {sep d : Char} {rest tail : List Char}
    (hw : sep ∉ name) (hd : d ∉ word)
    (h : (word ++ sep :: tail).isPrefixOf (name ++ d :: rest) = true) :
    word = name ∧ sep = d := by
  rw [List.isPrefixOf_iff_prefix] at h
  induction word generalizing name with
  | nil =>
    cases name with
    | nil =>
      obtain ⟨t, ht⟩ := h
      exact ⟨rfl, (List.cons.inj ht).1⟩
    | cons c name =>
      obtain ⟨t, ht⟩ := h
      exact absurd (List.cons.inj ht).1 (fun he ↦ hw (he ▸ List.mem_cons_self))
  | cons w word ih =>
    cases name with
    | nil =>
      obtain ⟨t, ht⟩ := h
      exact absurd (List.cons.inj ht).1 (fun he ↦ hd (he ▸ List.mem_cons_self))
    | cons c name =>
      obtain ⟨rfl, hp⟩ := List.cons_prefix_cons.1 h
      obtain ⟨rfl, rfl⟩ := ih (fun hm ↦ hw (List.mem_cons_of_mem w hm))
        (fun hm ↦ hd (List.mem_cons_of_mem w hm)) hp
      exact ⟨rfl, rfl⟩

theorem not_isPrefixOf_word {word name : List Char} {sep d : Char} {rest tail : List Char}
    (hw : sep ∉ name) (hd : d ∉ word) (hne : word ≠ name ∨ sep ≠ d) :
    (word ++ sep :: tail).isPrefixOf (name ++ d :: rest) = false := by
  by_contra h
  obtain ⟨rfl, rfl⟩ := isPrefixOf_word hw hd (by simpa using h)
  simp at hne

theorem ofHead_eq {head : List Char} (h : head.head? ≠ some '\x7d') :
    Opener.ofHead head =
      if "if ".toList.isPrefixOf head || "else if ".toList.isPrefixOf head then .ifBlock
      else if head = "else".toList then .elseBlock
      else if head = "switch".toList || "switch ".toList.isPrefixOf head ||
        head = "select".toList then .switch
      else .block := by
  unfold Opener.ofHead
  extract_lets stripped
  have hs : stripped = head := by
    simp only [stripped]
    split
    · exact absurd rfl h
    · rfl
  simp only [hs]

theorem head?_word_append_ne_brace {name : List Char} (hn : isWord name = true)
    (rest : List Char) : (name ++ rest).head? ≠ some '\x7d' := by
  obtain ⟨c, tail, rfl, hc⟩ := exists_of_isWord hn
  intro h
  obtain rfl : c = '\x7d' := by simpa using h
  exact absurd hc (by decide)

/-- Whether the kind of a block depends on the gap behind the word that begins its line: only
`else if` is told by more than that word. -/
theorem ofHead_word {name rest : List Char} (hn : isWord name = true)
    (he : "else if ".toList.isPrefixOf (name ++ ' ' :: rest) = false) :
    Opener.ofHead (name ++ ' ' :: rest) =
      if name = "if".toList then .ifBlock else if name = "switch".toList then .switch
      else .block := by
  have hs : ' ' ∉ name := not_mem_of_isWord hn (by decide)
  have hp (word : List Char) (hword : ' ' ∉ word) :
      (word ++ [' ']).isPrefixOf (name ++ ' ' :: rest) = decide (name = word) := by
    by_cases h : word = name
    · subst h
      simp [List.isPrefixOf_iff_prefix]
    · rw [not_isPrefixOf_word hs hword (.inl h), decide_eq_false (Ne.symm h)]
  have hne (word : List Char) (hword : ' ' ∉ word) : name ++ ' ' :: rest ≠ word := by
    rintro rfl
    simp at hword
  have hif := hp "if".toList (by decide)
  have hswitch := hp "switch".toList (by decide)
  rw [ofHead_eq (head?_word_append_ne_brace hn _), he,
    show "if ".toList = "if".toList ++ [' '] by decide, hif,
    show "switch ".toList = "switch".toList ++ [' '] by decide, hswitch,
    if_neg (hne _ (by decide)), decide_eq_false (hne _ (by decide)),
    decide_eq_false (hne _ (by decide))]
  simp only [Bool.or_false, Bool.false_or, decide_eq_true_eq]

theorem ofHead_key {key rest : List Char} (hk : isWord key = true) :
    Opener.ofHead (key ++ ':' :: rest) = .block := by
  have hs : ' ' ∉ key := not_mem_of_isWord hk (by decide)
  have hp (word tail : List Char) (hword : ':' ∉ word) :
      (word ++ ' ' :: tail).isPrefixOf (key ++ ':' :: rest) = false :=
    not_isPrefixOf_word hs hword (.inr (by decide))
  have hne (word : List Char) (hword : ':' ∉ word) : key ++ ':' :: rest ≠ word := by
    rintro rfl
    simp at hword
  have hif := hp "if".toList [] (by decide)
  have helse := hp "else".toList "if ".toList (by decide)
  have hswitch := hp "switch".toList [] (by decide)
  rw [ofHead_eq (head?_word_append_ne_brace hk _),
    show "if ".toList = "if".toList ++ [' '] by decide, hif,
    show "else if ".toList = "else".toList ++ ' ' :: "if ".toList by decide, helse,
    show "switch ".toList = "switch".toList ++ [' '] by decide, hswitch, if_neg (by decide),
    if_neg (hne _ (by decide)), if_neg]
  rw [decide_eq_false (hne _ (by decide)), decide_eq_false (hne _ (by decide))]
  decide

/-- A word behind a character that is not in it. -/
theorem isSuffixOf_append_sep {word z p : List Char} {s : Char} (hs : s ∉ word) :
    word.isSuffixOf (z ++ s :: p) = word.isSuffixOf p := by
  rw [Bool.eq_iff_iff, List.isSuffixOf_iff_suffix, List.isSuffixOf_iff_suffix]
  constructor
  · intro h
    have hp : p <:+ z ++ s :: p := (List.suffix_cons s p).trans (List.suffix_append z _)
    rcases Nat.le_total word.length p.length with hle | hle
    · exact List.suffix_of_suffix_length_le h hp hle
    · rcases Nat.eq_or_lt_of_le hle with he | hlt
      · exact List.suffix_of_suffix_length_le h hp he.symm.le
      · have hsp : s :: p <:+ word :=
          List.suffix_of_suffix_length_le (List.suffix_append z _) h
          (by simpa using Nat.succ_le_of_lt hlt)
        exact absurd (hsp.subset List.mem_cons_self) hs
  · intro h
    exact h.trans ((List.suffix_cons s p).trans (List.suffix_append z _))

theorem of_brace (before : List Char) :
    Opener.of '\x7b' before =
      if "struct".toList.isSuffixOf (trim before) then .struct
      else if !(trim before).isEmpty && !(before.getLast?.any isBlank) then .literal
      else .ofHead (trim before) := by
  rw [Opener.of, if_neg (by simp)]

/-- The kind of a brace behind `b` and `p`, where `p` starts a column. -/
theorem of_brace_append {b p z : List Char} {c d s : Char} (hb : b.head? = some c)
    (hc : isBlank c = false) (hz : b = z ++ [s]) (hs : s ∉ "struct".toList)
    (hp : p.head? = some d) (hd : isBlank d = false) :
    Opener.of '\x7b' (b ++ p) =
      if "struct".toList.isSuffixOf (trimEnd p) then .struct
      else if !(p.getLast?.any isBlank) then .literal
      else .ofHead (b ++ trimEnd p) := by
  have hpne : p ≠ [] := by
    rintro rfl
    cases hp
  have htp : trimEnd p ≠ [] := trimEnd_ne_nil (List.mem_of_mem_head? hp) hd
  have hstart : trimStart (b ++ p) = b ++ p := by
    refine dropWhile_of_head fun e he ↦ ?_
    rw [List.head?_append, hb] at he
    cases he
    exact hc
  have htrim : trim (b ++ p) = b ++ trimEnd p := by
    rw [trim, hstart, trimEnd_append_of_ne_nil htp]
  have hsuffix : "struct".toList.isSuffixOf (b ++ trimEnd p) =
      "struct".toList.isSuffixOf (trimEnd p) := by
    rw [hz, List.append_assoc, List.singleton_append, isSuffixOf_append_sep hs]
  have hempty : (b ++ trimEnd p).isEmpty = false := by simp [htp]
  rw [of_brace, htrim, hsuffix, List.getLast?_append_of_ne_nil _ hpne, hempty, Bool.not_false,
    Bool.true_and]

end RpcStubs.Layout
