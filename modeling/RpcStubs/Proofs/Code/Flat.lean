import RpcStubs.Code.GoType
import RpcStubs.Proofs.Layout.Segments
import RpcStubs.Proofs.Layout.Sound
import RpcStubs.Proofs.Text.Pieces
import RpcStubs.Stub.Service

namespace RpcStubs.Layout

open Text

/-- Code on one line in which all brackets match. -/
structure Flat (s : List Char) : Prop where
  single : '\n' ∉ s
  read : ∃ gs, glyphText gs = s ∧ Dyck (bracketsOf gs) ∧
    ∀ next, Marked next (.inside .code) gs (.inside .code)

theorem flat_nil : Flat [] := ⟨by simp, [], rfl, .nil, fun _ ↦ .nil _⟩

theorem Flat.append {a b : List Char} (ha : Flat a) (hb : Flat b) : Flat (a ++ b) := by
  obtain ⟨hsa, gs, rfl, hda, hma⟩ := ha
  obtain ⟨hsb, gs', rfl, hdb, hmb⟩ := hb
  refine ⟨by simp [hsa, hsb], gs ++ gs', by simp, ?_, fun next ↦ (hma _).append (hmb next)⟩
  rw [bracketsOf_append]
  exact hda.append hdb

theorem bracketsOf_map_code (s : List Char) :
    bracketsOf (s.map (·, .code)) = s.filter fun c ↦ isOpening c || isClosing c := by
  rw [bracketsOf, List.filter_map, List.map_map]
  simp [Function.comp_def]

theorem flat_of_plain {s : List Char} (hp : ∀ c ∈ s, isPlain c = true) (hs : '\n' ∉ s)
    (hd : Dyck (s.filter fun c ↦ isOpening c || isClosing c)) : Flat s := by
  refine ⟨hs, s.map (·, .code), glyphText_map_pair _ _, ?_, fun next ↦ marked_plain hp⟩
  rwa [bracketsOf_map_code]

def isFlat (s : List Char) : Bool :=
  s.all isPlain && !s.contains '\n' && openAfter [] (textTurns [] (s.map (·, .code))) == some []

theorem flat_of_isFlat {s : List Char} (h : isFlat s = true) : Flat s := by
  simp only [isFlat, Bool.and_eq_true, List.all_eq_true, Bool.not_eq_true', beq_iff_eq] at h
  obtain ⟨⟨hp, hs⟩, ho⟩ := h
  refine flat_of_plain hp (by simpa using hs) ?_
  rw [← bracketsOf_map_code, dyck_iff]
  exact ho

/-- A given text is checked by its letters. -/
theorem flat_ofList {s : List Char} (h : isFlat s = true) : Flat (String.ofList s).toList := by
  rw [String.toList_ofList]
  exact flat_of_isFlat h

theorem flat_of_quiet {s : List Char} (h : Quiet s) (hs : '\n' ∉ s) : Flat s := by
  refine flat_of_plain h.plain hs ?_
  rw [List.filter_eq_nil_iff.2]
  · exact .nil
  · intro c hc
    obtain ⟨ho, hc⟩ := h.unbracketed c hc
    simp [ho, hc]

def marks : List Char :=
  ['\x7b', '(', '[', '\x7d', ')', ']', '/', '"', '\x60', '\x27', '\n']

/-- Text of which all characters are of a kind that excludes marks. -/
theorem flat_of_forall {P : Char → Bool} (hP : ∀ c ∈ marks, P c = false) {s : List Char}
    (h : ∀ c ∈ s, P c = true) : Flat s := by
  have hne {c d : Char} (hc : c ∈ s) (hd : d ∈ marks) : c ≠ d := by
    rintro rfl
    have hc' := h c hc
    rw [hP c hd] at hc'
    cases hc'
  refine flat_of_quiet ⟨fun c hc ↦ ?_, ?_⟩ fun hn ↦ hne hn (by decide) rfl
  · simp only [isPlain, Bool.and_eq_true, bne_iff_ne]
    exact ⟨⟨⟨hne hc (by decide), hne hc (by decide)⟩, hne hc (by decide)⟩, hne hc (by decide)⟩
  · exact unbracketed_of_forall (P := P) (fun d hd ↦ hP d (List.mem_append_left _ hd)) h

theorem flat_of_wordChars {s : List Char} (h : ∀ c ∈ s, Name.isWordChar c = true) : Flat s :=
  flat_of_forall (by decide) h

theorem flat_of_isWord {s : List Char} (h : isWord s = true) : Flat s :=
  flat_of_wordChars fun _ ↦ isWordChar_of_mem h

theorem Flat.wrap {s : List Char} (h : Flat s) {o c : Char} (hc : closes o c = true) :
    Flat (o :: (s ++ [c])) := by
  obtain ⟨hs, gs, rfl, hd, hm⟩ := h
  have ho : isOpening o = true ∧ isPlain o = true ∧ isClosing c = true ∧ isPlain c = true ∧
      o ≠ '\n' ∧ c ≠ '\n' := by
    simp only [closes, Bool.or_eq_true, Bool.and_eq_true, beq_iff_eq] at hc
    rcases hc with (⟨rfl, rfl⟩ | ⟨rfl, rfl⟩) | ⟨rfl, rfl⟩ <;> decide
  obtain ⟨ho, hop, hcl, hcp, hon, hcn⟩ := ho
  refine ⟨by simp [hs, hon.symm, hcn.symm], (o, .code) :: (gs ++ [(c, .code)]), by simp, ?_, ?_⟩
  · have hbo : bracketsOf [(o, Region.code)] = [o] := by simp [bracketsOf, ho]
    have hbc : bracketsOf [(c, Region.code)] = [c] := by simp [bracketsOf, hcl]
    rw [← List.singleton_append, bracketsOf_append, bracketsOf_append, hbo, hbc]
    exact .wrap hc hd .nil
  · intro next
    have hmo : Marked (upcoming (gs ++ [(c, .code)]) next) (.inside .code) [(o, .code)]
        (.inside .code) := marked_plain (s := [o]) (by simpa using hop)
    have hmc : Marked next (.inside .code) [(c, .code)] (.inside .code) :=
      marked_plain (s := [c]) (by simpa using hcp)
    exact hmo.append ((hm _).append hmc)

theorem flat_intercalate {sep : List Char} (hsep : Flat sep) {pieces : List (List Char)}
    (h : ∀ p ∈ pieces, Flat p) : Flat (List.intercalate sep pieces) := by
  by_cases hne : pieces = []
  · subst hne
    exact flat_nil
  · exact intercalate_closed (fun _ _ ha hb ↦ ha.append (hsep.append hb)) hne h

theorem flat_repr (n : Nat) : Flat (Nat.repr n).toList := by
  refine flat_of_forall (P := Char.isDigit) (by decide) fun c hc ↦ ?_
  rw [Nat.repr, String.toList_ofList] at hc
  exact Nat.isDigit_of_mem_toDigits (by decide) (by decide) hc

theorem flat_valueList {values : List String} (h : ∀ v ∈ values, Flat v.toList) :
    Flat (Name.valueList values).toList := by
  rw [Name.valueList, String.toList_intercalate]
  refine flat_intercalate (flat_ofList (by decide)) fun p hp ↦ ?_
  obtain ⟨v, hv, rfl⟩ := List.mem_map.1 hp
  exact h v hv

/-- What a string literal is made of: characters that mean themselves, and escapes. -/
def LiteralUnit (u : List Char) : Prop :=
  (∃ c, u = [c] ∧ c ≠ '"' ∧ c ≠ '\\' ∧ c ≠ '\n') ∨ ∃ c, u = ['\\', c] ∧ c ≠ '\n'

theorem literalBody_flatten {units : List (List Char)} (h : ∀ u ∈ units, LiteralUnit u) :
    LiteralBody '"' units.flatten := by
  induction units with
  | nil => exact .nil
  | cons u units ih =>
    have ih' := ih fun v hv ↦ h v (List.mem_cons_of_mem u hv)
    rcases h u List.mem_cons_self with ⟨c, rfl, hq, hb, hn⟩ | ⟨c, rfl, hn⟩
    · exact .plain hn hq hb ih'
    · exact .escape hn ih'

theorem marked_literal {units : List (List Char)} (h : ∀ u ∈ units, LiteralUnit u)
    (next : Option Char) :
    Marked next (.inside .code) (('"' :: (units.flatten ++ ['"'])).map (·, .str))
      (.inside .code) :=
  .cons rfl (marked_literalBody (.inl rfl) (literalBody_flatten h) next)

theorem flat_literal {units : List (List Char)} (h : ∀ u ∈ units, LiteralUnit u) :
    Flat ('"' :: (units.flatten ++ ['"'])) := by
  refine ⟨fun hn ↦ ?_, ('"' :: (units.flatten ++ ['"'])).map (·, .str), glyphText_map_pair _ _, ?_,
    marked_literal h⟩
  · simp only [List.mem_cons, List.mem_append, List.mem_flatten, List.not_mem_nil] at hn
    rcases hn with hn | ⟨u, hu, hn⟩ | hn | hn
    · exact absurd hn (by decide)
    · rcases h u hu with ⟨c, rfl, -, -, hc⟩ | ⟨c, rfl, hc⟩
      · exact hc (List.mem_singleton.1 hn).symm
      · have hn' : '\n' = c := by simpa using hn
        exact hc hn'.symm
    · exact absurd hn (by decide)
    · exact hn
  · have hnone (t : List Char) : bracketsOf (t.map (·, Region.str)) = [] := by
      simp [bracketsOf]
    rw [hnone]
    exact .nil

/-- Text that stands for itself between double quotes. -/
def Clean (s : List Char) : Prop := '"' ∉ s ∧ '\\' ∉ s ∧ '\n' ∉ s

instance (s : List Char) : Decidable (Clean s) :=
  inferInstanceAs (Decidable ('"' ∉ s ∧ '\\' ∉ s ∧ '\n' ∉ s))

theorem literalUnit_of_clean {s : List Char} (h : Clean s) :
    ∀ u ∈ s.map fun c ↦ [c], LiteralUnit u := by
  intro u hu
  obtain ⟨c, hc, rfl⟩ := List.mem_map.1 hu
  refine .inl ⟨c, rfl, ?_, ?_, ?_⟩ <;> rintro rfl
  · exact h.1 hc
  · exact h.2.1 hc
  · exact h.2.2 hc

theorem marked_quotedClean {s : List Char} (h : Clean s) (next : Option Char) :
    Marked next (.inside .code) (('"' :: (s ++ ['"'])).map (·, .str)) (.inside .code) := by
  have hm := marked_literal (literalUnit_of_clean h) next
  rwa [← List.flatMap_def, List.flatMap_singleton'] at hm

theorem flat_quotedClean {s : List Char} (h : Clean s) : Flat ('"' :: (s ++ ['"'])) := by
  have hf := flat_literal (literalUnit_of_clean h)
  rwa [← List.flatMap_def, List.flatMap_singleton'] at hf

theorem literalUnit_quoteChar (c : Char) : LiteralUnit (Stub.quoteChar c) := by
  unfold Stub.quoteChar
  split_ifs with hq hb hn ht
  · exact .inr ⟨'"', rfl, by decide⟩
  · exact .inr ⟨'\\', rfl, by decide⟩
  · exact .inr ⟨'n', rfl, by decide⟩
  · exact .inr ⟨'t', rfl, by decide⟩
  · exact .inl ⟨c, rfl, hq, hb, hn⟩

theorem flat_goQuoted (s : String) : Flat (Stub.goQuoted s).toList := by
  have hunits : ∀ u ∈ s.toList.map Stub.quoteChar, LiteralUnit u := by
    intro u hu
    obtain ⟨c, -, rfl⟩ := List.mem_map.1 hu
    exact literalUnit_quoteChar c
  rw [Stub.goQuoted, String.toList_ofList, List.flatMap_def]
  exact flat_literal hunits

theorem flat_primitive (p : Primitive) : Flat (GoType.primitive p).spell.toList := by
  change Flat p.name.toList
  cases p <;> exact flat_ofList (by decide)

theorem flat_named {name : String} (h : isWord name.toList = true) (origin : Option Import) :
    Flat (GoType.named name none origin).spell.toList := by
  change Flat name.toList
  exact flat_of_isWord h

theorem flat_qualified {package name : String} (hp : isWord package.toList = true)
    (hn : isWord name.toList = true) (origin : Option Import) :
    Flat (GoType.named name (some package) origin).spell.toList := by
  change Flat (package ++ "." ++ name).toList
  rw [String.toList_append, String.toList_append]
  exact ((flat_of_isWord hp).append (flat_ofList (by decide))).append (flat_of_isWord hn)

theorem flat_composite {t element : GoType} {mark : String} (ht : t.spell = mark ++ element.spell)
    (hmark : Flat mark.toList) (h : Flat element.spell.toList) : Flat t.spell.toList := by
  rw [ht, String.toList_append]
  exact hmark.append h

theorem flat_slice {t : GoType} (h : Flat t.spell.toList) :
    Flat (GoType.slice t).spell.toList := flat_composite rfl (flat_ofList (by decide)) h

theorem flat_length (n : Nat) : Flat ("[" ++ Nat.repr n ++ "]").toList := by
  have hw := (flat_repr n).wrap (o := '[') (c := ']') (by decide)
  simpa using hw

theorem flat_array {t : GoType} (h : Flat t.spell.toList) (n : Nat) :
    Flat (GoType.array n t).spell.toList := flat_composite rfl (flat_length n) h

theorem flat_parens {s : String} (h : Flat s.toList) : Flat ("(" ++ s ++ ")").toList := by
  have hw := h.wrap (o := '(') (c := ')') (by decide)
  simpa using hw

theorem flat_parameters {params : List Parameter}
    (h : ∀ p ∈ params, Flat p.name.toList ∧ Flat p.type.spell.toList) :
    Flat (Parameter.list params).toList := by
  refine flat_valueList fun v hv ↦ ?_
  obtain ⟨p, hp, rfl⟩ := List.mem_map.1 hv
  obtain ⟨hname, htype⟩ := h p hp
  rw [Parameter.render, String.toList_append, String.toList_append]
  exact (hname.append (flat_ofList (by decide))).append htype

theorem spellAll_eq_map (ts : List GoType) : GoType.spellAll ts = ts.map GoType.spell := by
  induction ts with
  | nil => rfl
  | cons t ts ih => rw [GoType.spellAll, ih, List.map_cons]

theorem flat_resultList {results : List GoType} (h : ∀ t ∈ results, Flat t.spell.toList) :
    Flat (GoType.resultList results).toList := by
  have hlist : Flat (Name.valueList (GoType.spellAll results)).toList := by
    refine flat_valueList fun v hv ↦ ?_
    rw [spellAll_eq_map] at hv
    obtain ⟨t, ht, rfl⟩ := List.mem_map.1 hv
    exact h t ht
  unfold GoType.resultList GoType.joinResults
  split
  · exact flat_nil
  · split_ifs
    · exact flat_parens hlist
    · exact hlist
  · exact flat_parens hlist

theorem flat_signature {params : List Parameter} {results : List GoType}
    (hp : ∀ p ∈ params, Flat p.name.toList ∧ Flat p.type.spell.toList)
    (hr : ∀ t ∈ results, Flat t.spell.toList) : Flat (signature params results).toList := by
  unfold signature GoType.withResults
  split_ifs
  · exact flat_parens (flat_parameters hp)
  · rw [String.toList_append, String.toList_append]
    exact ((flat_parens (flat_parameters hp)).append (flat_ofList (by decide))).append
      (flat_resultList hr)

end RpcStubs.Layout
