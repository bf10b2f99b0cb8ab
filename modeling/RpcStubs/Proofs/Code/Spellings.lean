import RpcStubs.Proofs.Code.Leaves

namespace RpcStubs

theorem Primitive.ofName?_name (p : Primitive) : Primitive.ofName? p.name = some p := by
  cases p <;> decide

theorem Primitive.isWord_name (p : Primitive) : isWord p.name.toList = true := by
  cases p <;> decide

theorem Primitive.ofName?_eq_none {name : String} (h : ∀ p : Primitive, name ≠ p.name) :
    Primitive.ofName? name = none :=
  List.find?_eq_none.2 fun p _ ↦ by simpa using (h p).symm

namespace GoType

def Leaf.withoutOrigin : Leaf → Leaf
  | .primitive p => .primitive p
  | .named name package _ => .named name package none

def withoutOrigins (t : GoType) : GoType := t.mapLeaves Leaf.withoutOrigin

def Leaf.Worded : Leaf → Prop
  | .primitive _ => True
  | .named name none _ => isWord name.toList = true
  | .named name (some package) _ => isWord package.toList = true ∧ isWord name.toList = true

/-- A declared type without a package is not spelled like a predeclared one. -/
def Leaf.Unshadowed : Leaf → Prop
  | .named name none _ => ∀ p : Primitive, name ≠ p.name
  | _ => True

def Legible (t : GoType) : Prop := ∀ l ∈ t.leaves, l.Worded ∧ l.Unshadowed

theorem Built.worded {t : GoType} (h : t.Built) : ∀ l ∈ t.leaves, l.Worded := by
  induction h with
  | primitive p => simp [leaves, Leaf.Worded]
  | @declared name t h =>
    have hy := yields_declared name
    rw [h] at hy
    obtain ⟨rfl, hn⟩ := hy.of_ok
    simpa [leaves, Leaf.Worded] using hn
  | @qualified package name origin t h =>
    have hy := yields_qualified package name origin
    rw [h] at hy
    obtain ⟨rfl, hp, hn⟩ := hy.of_ok
    simpa [leaves, Leaf.Worded] using ⟨hp, hn⟩
  | pointer _ ih => exact ih
  | slice _ ih => exact ih
  | array _ _ ih => exact ih
  | map _ _ ihk ihv => exact List.forall_mem_append.2 ⟨ihk, ihv⟩
  | func _ _ ihp ihr =>
    rw [leaves_func]
    refine List.forall_mem_append.2 ⟨fun l hl ↦ ?_, fun l hl ↦ ?_⟩
    · obtain ⟨t, ht, hl⟩ := List.mem_flatMap.1 hl
      exact ihp t ht l hl
    · obtain ⟨t, ht, hl⟩ := List.mem_flatMap.1 hl
      exact ihr t ht l hl
  | variadic _ ih => exact ih

section Parts

variable {k v : GoType} {params results : List GoType}

theorem legible_map : (GoType.map k v).Legible ↔ k.Legible ∧ v.Legible :=
  List.forall_mem_append

theorem legible_func : (func params results).Legible ↔
    (∀ t ∈ params, t.Legible) ∧ ∀ t ∈ results, t.Legible := by
  have hall (ts : List GoType) : (∀ l ∈ ts.flatMap leaves, l.Worded ∧ l.Unshadowed) ↔
      ∀ t ∈ ts, t.Legible := by
    simp only [List.mem_flatMap, Legible]
    exact ⟨fun h t ht l hl ↦ h l ⟨t, ht, hl⟩, fun h l ⟨t, ht, hl⟩ ↦ h t ht l hl⟩
  rw [Legible, leaves_func, List.forall_mem_append, hall, hall]

end Parts

def text (t : GoType) : List Char := t.spell.toList

def resultText (results : List GoType) : List Char :=
  if (resultList results).isEmpty then [] else ' ' :: (resultList results).toList

/-- What may stand behind a type: a closing bracket or a comma, if anything. -/
def Ended (r : List Char) : Prop := ∀ c ∈ r.head?, c = ']' ∨ c = ',' ∨ c = ')'

def following (ts : List GoType) : List Char := ts.flatMap fun t ↦ ',' :: ' ' :: t.text

def listText (ts : List GoType) : List Char := (Name.valueList (spellAll ts)).toList

theorem text_pointer (t : GoType) : (pointer t).text = '*' :: t.text := by
  simp [text, spell]

theorem text_slice (t : GoType) : (slice t).text = '[' :: ']' :: t.text := by
  simp [text, spell]

theorem text_array (n : Nat) (t : GoType) :
    (array n t).text = '[' :: ((Nat.repr n).toList ++ ']' :: t.text) := by
  simp [text, spell]

theorem text_map (k v : GoType) :
    (GoType.map k v).text = "map".toList ++ '[' :: (k.text ++ ']' :: v.text) := by
  simp [text, spell]

theorem text_variadic (t : GoType) : (variadic t).text = '.' :: '.' :: '.' :: t.text := by
  simp [text, spell]

theorem text_qualified (name package : String) (origin : Option Import) :
    (named name (some package) origin).text = package.toList ++ '.' :: name.toList := by
  simp [text, spell]

theorem text_func (params results : List GoType) :
    (func params results).text =
      "func".toList ++ '(' :: (listText params ++ ')' :: resultText results) := by
  rw [text, Layout.toList_spell_func, resultText, listText]
  simp

theorem listText_cons (t : GoType) (ts : List GoType) :
    listText (t :: ts) = t.text ++ following ts := by
  induction ts generalizing t with
  | nil => simp [listText, spellAll, following, text, Name.valueList]
  | cons u ts ih =>
    have hu := ih u
    simp only [listText, spellAll, Name.valueList, String.intercalate_cons_cons,
      String.toList_append] at hu ⊢
    rw [hu]
    simp [following, text]

theorem forall_mem_head?_cons {P : Char → Prop} {c : Char} {r : List Char} (h : P c) :
    ∀ d ∈ (c :: r).head?, P d := by
  intro d hd
  obtain rfl := Option.some_inj.1 hd
  exact h

theorem not_wordChar_cons {c : Char} {r : List Char} (h : Name.isWordChar c = false) :
    ∀ d ∈ (c :: r).head?, Name.isWordChar d = false :=
  forall_mem_head?_cons h

theorem not_wordChar_dot (r : List Char) :
    ∀ c ∈ ('.' :: r).head?, Name.isWordChar c = false :=
  not_wordChar_cons (by decide +kernel)

theorem not_ended_dot (r : List Char) : ¬Ended ('.' :: r) := fun h ↦
  absurd (h '.' rfl) (by decide)

theorem ended_cons {c : Char} {r : List Char} (h : c = ']' ∨ c = ',' ∨ c = ')') :
    Ended (c :: r) :=
  forall_mem_head?_cons h

theorem takeWhile_append_rest {p : Char → Bool} {w r : List Char} (hw : ∀ c ∈ w, p c = true)
    (hr : ∀ c ∈ r.head?, p c = false) : (w ++ r).takeWhile p = w ∧ (w ++ r).dropWhile p = r := by
  rw [List.takeWhile_append_of_pos hw, List.dropWhile_append_of_pos hw]
  cases r with
  | nil => simp
  | cons c r =>
    have hc : p c = false := hr c rfl
    simp [hc]

/-- Where a stretch of characters of one class ends is clear from the text. -/
theorem stretch_append_inj {p : Char → Bool} {w w' r r' : List Char} (hw : ∀ c ∈ w, p c = true)
    (hw' : ∀ c ∈ w', p c = true) (hr : ∀ c ∈ r.head?, p c = false)
    (hr' : ∀ c ∈ r'.head?, p c = false) (h : w ++ r = w' ++ r') : w = w' ∧ r = r' := by
  obtain ⟨htake, hdrop⟩ := takeWhile_append_rest hw hr
  obtain ⟨htake', hdrop'⟩ := takeWhile_append_rest hw' hr'
  rw [h] at htake hdrop
  exact ⟨htake.symm.trans htake', hdrop.symm.trans hdrop'⟩

theorem Ended.not_wordChar {r : List Char} (h : Ended r) :
    ∀ c ∈ r.head?, Name.isWordChar c = false := by
  intro c hc
  rcases h c hc with rfl | rfl | rfl <;> decide +kernel

theorem word_append_inj {w w' : String} (hw : isWord w.toList = true)
    (hw' : isWord w'.toList = true) {r r' : List Char}
    (hr : ∀ c ∈ r.head?, Name.isWordChar c = false)
    (hr' : ∀ c ∈ r'.head?, Name.isWordChar c = false) (h : w.toList ++ r = w'.toList ++ r') :
    w = w' ∧ r = r' := by
  obtain ⟨hword, hrest⟩ := stretch_append_inj (fun _ hc ↦ isWordChar_of_mem hw hc)
    (fun _ hc ↦ isWordChar_of_mem hw' hc) hr hr' h
  exact ⟨String.toList_inj.1 hword, hrest⟩

def kindOfWord (word : List Char) : List Char → Kind
  | '[' :: _ => .map
  | '(' :: _ => .func
  | '.' :: _ => .named
  | _ => if (Primitive.ofName? (String.ofList word)).isSome then .primitive else .named

def kindAt : List Char → Kind
  | '*' :: _ => .pointer
  | '.' :: _ => .variadic
  | '[' :: ']' :: _ => .slice
  | '[' :: _ => .array
  | s => kindOfWord (s.takeWhile Name.isWordChar) (s.dropWhile Name.isWordChar)

theorem kindAt_word {w r : List Char} (hw : isWord w = true)
    (hr : ∀ c ∈ r.head?, Name.isWordChar c = false) : kindAt (w ++ r) = kindOfWord w r := by
  obtain ⟨htake, hdrop⟩ := takeWhile_append_rest (fun _ hc ↦ isWordChar_of_mem hw hc) hr
  obtain ⟨c, rest, rfl, hc⟩ := exists_of_isWord hw
  have hne {d : Char} (hd : startsWord d = false) : c ≠ d := by
    rintro rfl
    rw [hc] at hd
    cases hd
  rw [List.cons_append] at htake hdrop ⊢
  unfold kindAt
  split
  · next heq => exact absurd (List.cons.inj heq).1 (hne (by decide +kernel))
  · next heq => exact absurd (List.cons.inj heq).1 (hne (by decide +kernel))
  · next heq => exact absurd (List.cons.inj heq).1 (hne (by decide +kernel))
  · next heq => exact absurd (List.cons.inj heq).1 (hne (by decide +kernel))
  · rw [htake, hdrop]

theorem kindOfWord_ended {w : String} {r : List Char} (hr : Ended r) :
    kindOfWord w.toList r = if (Primitive.ofName? w).isSome then .primitive else .named := by
  unfold kindOfWord
  split
  · exact absurd (hr '[' rfl) (by decide)
  · exact absurd (hr '(' rfl) (by decide)
  · exact absurd (hr '.' rfl) (by decide)
  · rw [String.ofList_toList]

theorem isDigit_of_mem_repr (n : Nat) : ∀ c ∈ (Nat.repr n).toList, c.isDigit = true := by
  intro c hc
  rw [Nat.repr, String.toList_ofList] at hc
  exact Nat.isDigit_of_mem_toDigits (by decide) (by decide) hc

theorem eq_of_toList_repr_eq {n m : Nat} (h : (Nat.repr n).toList = (Nat.repr m).toList) :
    n = m := by
  rw [Nat.repr, Nat.repr, String.toList_ofList, String.toList_ofList] at h
  have hvalue := congrArg (Nat.ofDigitChars 10 · 0) h
  simpa only [Nat.ofDigitChars_toDigits (b := 10) (by decide) (by decide)] using hvalue

theorem exists_digits (n : Nat) : ∃ d rest, (Nat.repr n).toList = d :: rest ∧ d ≠ ']' := by
  cases h : (Nat.repr n).toList with
  | nil =>
    rw [Nat.repr, String.toList_ofList] at h
    exact absurd h Nat.toDigits_ne_nil
  | cons d rest =>
    refine ⟨d, rest, rfl, ?_⟩
    rintro rfl
    exact absurd (isDigit_of_mem_repr n ']' (by simp [h])) (by decide)

/-- The first characters of a spelling show the kind of the type. -/
theorem kindAt_text {t : GoType} (ht : t.Legible) {r : List Char} (hr : Ended r) :
    kindAt (t.text ++ r) = t.kind := by
  cases t with
  | primitive p =>
    refine (kindAt_word p.isWord_name hr.not_wordChar).trans ?_
    rw [kindOfWord_ended hr, Primitive.ofName?_name]
    rfl
  | named name package origin =>
    obtain ⟨hworded, hunshadowed⟩ := ht _ (List.mem_singleton.2 rfl)
    cases package with
    | none =>
      refine (kindAt_word hworded hr.not_wordChar).trans ?_
      rw [kindOfWord_ended hr, Primitive.ofName?_eq_none hunshadowed]
      rfl
    | some package =>
      rw [text_qualified, List.append_assoc]
      exact (kindAt_word hworded.1 (not_wordChar_dot _)).trans rfl
  | pointer t => rw [text_pointer]; rfl
  | slice t => rw [text_slice]; rfl
  | array n t =>
    obtain ⟨d, rest, hdigits, hd⟩ := exists_digits n
    rw [text_array, hdigits]
    simp [kindAt, hd, kind]
  | map k v =>
    rw [text_map, List.append_assoc]
    exact (kindAt_word (by decide) (not_wordChar_cons (by decide +kernel))).trans rfl
  | func params results =>
    rw [text_func, List.append_assoc]
    exact (kindAt_word (by decide) (not_wordChar_cons (by decide +kernel))).trans rfl
  | variadic t => rw [text_variadic]; rfl

/-- No other type is spelled alike in front of any text that may follow. -/
def Readable (t : GoType) : Prop :=
  ∀ (u : GoType) (r s : List Char), u.Legible → Ended r → Ended s → t.text ++ r = u.text ++ s →
    t.withoutOrigins = u.withoutOrigins ∧ r = s

theorem exists_cons_text {t : GoType} (ht : t.Legible) :
    ∃ c rest, t.text = c :: rest ∧ c ≠ ')' ∧ c ≠ '(' := by
  have hword {w r : List Char} (hw : isWord w = true) :
      ∃ c rest, w ++ r = c :: rest ∧ c ≠ ')' ∧ c ≠ '(' := by
    obtain ⟨c, rest, rfl, hc⟩ := exists_of_isWord hw
    refine ⟨c, rest ++ r, rfl, ?_, ?_⟩ <;> rintro rfl <;> revert hc <;> decide +kernel
  cases t with
  | primitive p => simpa [text, spell] using hword (r := []) p.isWord_name
  | named name package origin =>
    have hworded := (ht _ (List.mem_singleton.2 rfl)).1
    cases package with
    | none => simpa [text, spell] using hword (r := []) hworded
    | some package =>
      rw [text_qualified]
      exact hword hworded.1
  | pointer t => exact ⟨_, _, text_pointer t, by decide, by decide⟩
  | slice t => exact ⟨_, _, text_slice t, by decide, by decide⟩
  | array n t => exact ⟨_, _, text_array n t, by decide, by decide⟩
  | map k v => exact ⟨_, _, text_map k v, by decide, by decide⟩
  | func params results => exact ⟨_, _, text_func params results, by decide, by decide⟩
  | variadic t => exact ⟨_, _, text_variadic t, by decide, by decide⟩

section Lists

variable {ts us : List GoType} {r s : List Char}

theorem ended_following (ts : List GoType) (r : List Char) : Ended (following ts ++ ')' :: r) := by
  cases ts with
  | nil => exact ended_cons (.inr (.inr rfl))
  | cons t ts => exact ended_cons (.inr (.inl rfl))

theorem following_append_inj (hts : ∀ t ∈ ts, t.Readable) (hus : ∀ u ∈ us, u.Legible)
    (h : following ts ++ ')' :: r = following us ++ ')' :: s) :
    ts.map withoutOrigins = us.map withoutOrigins ∧ r = s := by
  induction ts generalizing us with
  | nil =>
    cases us with
    | nil => exact ⟨rfl, (List.cons.inj h).2⟩
    | cons u us => exact absurd (List.cons.inj h).1 (by decide)
  | cons t ts ih =>
    cases us with
    | nil => exact absurd (List.cons.inj h).1 (by decide)
    | cons u us =>
      obtain ⟨ht, hts⟩ := List.forall_mem_cons.1 hts
      obtain ⟨hu, hus⟩ := List.forall_mem_cons.1 hus
      have htext : t.text ++ (following ts ++ ')' :: r) = u.text ++ (following us ++ ')' :: s) := by
        simpa [following] using h
      obtain ⟨hhead, htail⟩ := ht u _ _ hu (ended_following ts r) (ended_following us s) htext
      obtain ⟨hrest, hrs⟩ := ih hts hus htail
      exact ⟨congrArg₂ List.cons hhead hrest, hrs⟩

/-- A list of types ends at the bracket that closes it. -/
theorem listText_append_inj (hts : ∀ t ∈ ts, t.Legible) (hread : ∀ t ∈ ts, t.Readable)
    (hus : ∀ u ∈ us, u.Legible) (h : listText ts ++ ')' :: r = listText us ++ ')' :: s) :
    ts.map withoutOrigins = us.map withoutOrigins ∧ r = s := by
  -- A type does not start with a bracket, so an empty list is told from others.
  have hstart {t : GoType} (ht : t.Legible) (ts : List GoType) (r s : List Char) :
      listText (t :: ts) ++ r ≠ ')' :: s := by
    obtain ⟨c, rest, htext, hc, -⟩ := exists_cons_text ht
    rw [listText_cons, htext]
    exact fun heq ↦ hc (List.cons.inj heq).1
  cases ts with
  | nil =>
    cases us with
    | nil => exact ⟨rfl, (List.cons.inj h).2⟩
    | cons u us => exact (hstart (hus u List.mem_cons_self) us _ _ h.symm).elim
  | cons t ts =>
    cases us with
    | nil => exact (hstart (hts t List.mem_cons_self) ts _ _ h).elim
    | cons u us =>
      obtain ⟨ht, hread⟩ := List.forall_mem_cons.1 hread
      obtain ⟨hu, hus⟩ := List.forall_mem_cons.1 hus
      rw [listText_cons, listText_cons, List.append_assoc, List.append_assoc] at h
      obtain ⟨hhead, htail⟩ := ht u _ _ hu (ended_following ts r) (ended_following us s) h
      obtain ⟨hrest, hrs⟩ := following_append_inj hread hus htail
      exact ⟨congrArg₂ List.cons hhead hrest, hrs⟩

end Lists

inductive ResultForm : List GoType → List Char → Prop
  | none : ResultForm [] []
  | bare (t : GoType) : ResultForm [t] (' ' :: t.text)
  | tuple (ts : List GoType) : ResultForm ts (' ' :: '(' :: (listText ts ++ [')']))

theorem resultForm (results : List GoType) (h : ∀ t ∈ results, t.Legible) :
    ResultForm results (resultText results) := by
  have htuple {ts : List GoType}
      (hlist : resultList ts = "(" ++ Name.valueList (spellAll ts) ++ ")") :
      ResultForm ts (resultText ts) := by
    have htext : resultText ts = ' ' :: '(' :: (listText ts ++ [')']) := by
      rw [resultText, hlist, listText]
      simp
    rw [htext]
    exact .tuple ts
  match results with
  | [] => exact .none
  | [t] =>
    by_cases hfunc : t.kind = .func
    · exact htuple (if_pos hfunc)
    · have hlist : resultList [t] = t.spell := by
        rw [resultList, joinResults, if_neg hfunc]
        exact String.intercalate_singleton
      have htext : resultText [t] = ' ' :: t.text := by
        obtain ⟨c, rest, htext, -⟩ := exists_cons_text (h t List.mem_cons_self)
        have hne : t.spell.isEmpty = false := by
          rw [← Bool.not_eq_true, String.isEmpty_iff]
          intro hempty
          rw [text, hempty] at htext
          cases htext
        rw [resultText, hlist, hne]
        rfl
      rw [htext]
      exact .bare t
  | _ :: _ :: _ => exact htuple rfl

/-- Where the results end is clear, since a type does not start with a parenthesis. -/
theorem resultForm_append_inj {ts us : List GoType} {w x r s : List Char} (ht : ResultForm ts w)
    (hu : ResultForm us x) (hts : ∀ t ∈ ts, t.Legible) (hread : ∀ t ∈ ts, t.Readable)
    (hus : ∀ u ∈ us, u.Legible) (hr : Ended r) (hs : Ended s) (h : w ++ r = x ++ s) :
    ts.map withoutOrigins = us.map withoutOrigins ∧ r = s := by
  have hspace {r s : List Char} (hr : Ended r) : r ≠ ' ' :: s := by
    rintro rfl
    exact absurd (hr ' ' rfl) (by decide)
  have hparen {t : GoType} (ht : t.Legible) {r s : List Char} : t.text ++ r ≠ '(' :: s := by
    obtain ⟨c, rest, htext, -, hc⟩ := exists_cons_text ht
    rw [htext]
    exact fun heq ↦ hc (List.cons.inj heq).1
  cases ht with
  | none =>
    cases hu with
    | none => exact ⟨rfl, h⟩
    | bare u => exact (hspace hr h).elim
    | tuple us => exact (hspace hr h).elim
  | bare t =>
    cases hu with
    | none => exact (hspace hs h.symm).elim
    | bare u =>
      obtain ⟨htu, hrs⟩ := hread t List.mem_cons_self u r s (hus u List.mem_cons_self) hr hs
        (List.cons.inj h).2
      exact ⟨congrArg (· :: []) htu, hrs⟩
    | tuple us => exact (hparen (hts t List.mem_cons_self) (List.cons.inj h).2).elim
  | tuple ts =>
    cases hu with
    | none => exact (hspace hs h.symm).elim
    | bare u => exact (hparen (hus u List.mem_cons_self) (List.cons.inj h).2.symm).elim
    | tuple us =>
      refine listText_append_inj hts hread hus ?_
      simpa using h

section Kinds

variable {t k v : GoType} {params results : List GoType}

/-- Types of another kind start otherwise. -/
theorem readable_of_kind (ht : t.Legible)
    (h : ∀ (u : GoType) (r s : List Char), u.kind = t.kind → u.Legible → Ended r → Ended s →
      t.text ++ r = u.text ++ s → t.withoutOrigins = u.withoutOrigins ∧ r = s) : t.Readable := by
  intro u r s hu hr hs heq
  refine h u r s ?_ hu hr hs heq
  rw [← kindAt_text ht hr, heq, kindAt_text hu hs]

theorem readable_primitive (p : Primitive) : (primitive p).Readable := by
  have hlegible : (primitive p).Legible := by simp [Legible, leaves, Leaf.Worded, Leaf.Unshadowed]
  refine readable_of_kind hlegible fun u r s hk _ hr hs h ↦ ?_
  cases u with
  | primitive q =>
    obtain ⟨hname, hrs⟩ := word_append_inj p.isWord_name q.isWord_name hr.not_wordChar
      hs.not_wordChar h
    have hpq := congrArg Primitive.ofName? hname
    rw [Primitive.ofName?_name, Primitive.ofName?_name] at hpq
    obtain rfl := Option.some_inj.1 hpq
    exact ⟨rfl, hrs⟩
  | _ => cases hk

theorem readable_named {name : String} {package : Option String} {origin : Option Import}
    (ht : (named name package origin).Legible) : (named name package origin).Readable := by
  refine readable_of_kind ht fun u r s hk hu hr hs h ↦ ?_
  have hworded := (ht _ (List.mem_singleton.2 rfl)).1
  cases u with
  | named name' package' origin' =>
    have hworded' := (hu _ (List.mem_singleton.2 rfl)).1
    cases package with
    | none =>
      cases package' with
      | none =>
        obtain ⟨rfl, hrs⟩ := word_append_inj hworded hworded' hr.not_wordChar hs.not_wordChar h
        exact ⟨rfl, hrs⟩
      | some package' =>
        rw [text_qualified, List.append_assoc] at h
        obtain ⟨-, rfl⟩ := word_append_inj hworded hworded'.1 hr.not_wordChar (not_wordChar_dot _) h
        exact (not_ended_dot _ hr).elim
    | some package =>
      rw [text_qualified, List.append_assoc] at h
      cases package' with
      | none =>
        obtain ⟨-, hrs⟩ := word_append_inj hworded.1 hworded' (not_wordChar_dot _) hs.not_wordChar h
        exact (not_ended_dot _ (hrs ▸ hs)).elim
      | some package' =>
        rw [text_qualified, List.append_assoc] at h
        obtain ⟨rfl, hname⟩ := word_append_inj hworded.1 hworded'.1 (not_wordChar_dot _)
          (not_wordChar_dot _) h
        obtain ⟨rfl, hrs⟩ := word_append_inj hworded.2 hworded'.2 hr.not_wordChar hs.not_wordChar
          (List.cons.inj hname).2
        exact ⟨rfl, hrs⟩
  | _ => cases hk

theorem Readable.pointer (ht : t.Legible) (h : t.Readable) : (pointer t).Readable := by
  refine readable_of_kind ht fun u r s hk hu hr hs heq ↦ ?_
  cases u with
  | pointer u =>
    rw [text_pointer, text_pointer] at heq
    obtain ⟨htu, hrs⟩ := h u r s hu hr hs (List.cons.inj heq).2
    exact ⟨congrArg GoType.pointer htu, hrs⟩
  | _ => cases hk

theorem Readable.slice (ht : t.Legible) (h : t.Readable) : (slice t).Readable := by
  refine readable_of_kind ht fun u r s hk hu hr hs heq ↦ ?_
  cases u with
  | slice u =>
    rw [text_slice, text_slice] at heq
    obtain ⟨htu, hrs⟩ := h u r s hu hr hs (List.cons.inj (List.cons.inj heq).2).2
    exact ⟨congrArg GoType.slice htu, hrs⟩
  | _ => cases hk

theorem Readable.array (n : Nat) (ht : t.Legible) (h : t.Readable) : (array n t).Readable := by
  have hbracket (r : List Char) : ∀ c ∈ (']' :: r).head?, c.isDigit = false :=
    forall_mem_head?_cons (by decide)
  refine readable_of_kind ht fun u r s hk hu hr hs heq ↦ ?_
  cases u with
  | array m u =>
    rw [text_array, text_array, List.cons_append, List.cons_append, List.append_assoc,
      List.append_assoc] at heq
    obtain ⟨hdigits, helement⟩ := stretch_append_inj (isDigit_of_mem_repr n)
      (isDigit_of_mem_repr m) (hbracket _) (hbracket _) (List.cons.inj heq).2
    obtain rfl := eq_of_toList_repr_eq hdigits
    obtain ⟨htu, hrs⟩ := h u r s hu hr hs (List.cons.inj helement).2
    exact ⟨congrArg (GoType.array n) htu, hrs⟩
  | _ => cases hk

theorem Readable.map (ht : (GoType.map k v).Legible) (hk : k.Readable) (hv : v.Readable) :
    (GoType.map k v).Readable := by
  have hbracket (r : List Char) : Ended (']' :: r) := ended_cons (.inl rfl)
  refine readable_of_kind ht fun u r s hkind hu hr hs heq ↦ ?_
  cases u with
  | map k' v' =>
    obtain ⟨hk', hv'⟩ := legible_map.1 hu
    rw [text_map, text_map, List.append_assoc, List.append_assoc] at heq
    have hkey : k.text ++ (']' :: (v.text ++ r)) = k'.text ++ (']' :: (v'.text ++ s)) := by
      simpa using heq
    obtain ⟨hkk, hvalue⟩ := hk k' _ _ hk' (hbracket _) (hbracket _) hkey
    obtain ⟨hvv, hrs⟩ := hv v' r s hv' hr hs (List.cons.inj hvalue).2
    exact ⟨congrArg₂ GoType.map hkk hvv, hrs⟩
  | _ => cases hkind

theorem withoutOrigins_func (params results : List GoType) :
    (func params results).withoutOrigins =
      .func (params.map withoutOrigins) (results.map withoutOrigins) := by
  rw [withoutOrigins, mapLeaves_func]
  rfl

theorem Readable.func (ht : (GoType.func params results).Legible)
    (hp : ∀ t ∈ params, t.Readable) (hres : ∀ t ∈ results, t.Readable) :
    (GoType.func params results).Readable := by
  obtain ⟨hparams, hresults⟩ := legible_func.1 ht
  refine readable_of_kind ht fun u r s hk hu hr hs heq ↦ ?_
  cases u with
  | func params' results' =>
    obtain ⟨hparams', hresults'⟩ := legible_func.1 hu
    have hlist : listText params ++ ')' :: (resultText results ++ r) =
        listText params' ++ ')' :: (resultText results' ++ s) := by
      rw [text_func, text_func] at heq
      simpa using heq
    obtain ⟨hpp, hrest⟩ := listText_append_inj hparams hp hparams' hlist
    obtain ⟨hrr, hrs⟩ := resultForm_append_inj (resultForm results hresults)
      (resultForm results' hresults') hresults hres hresults' hr hs hrest
    rw [withoutOrigins_func, withoutOrigins_func, hpp, hrr]
    exact ⟨rfl, hrs⟩
  | _ => cases hk

theorem Readable.variadic (ht : t.Legible) (h : t.Readable) : (variadic t).Readable := by
  refine readable_of_kind ht fun u r s hk hu hr hs heq ↦ ?_
  cases u with
  | variadic u =>
    rw [text_variadic, text_variadic] at heq
    obtain ⟨htu, hrs⟩ := h u r s hu hr hs (by simpa using heq)
    exact ⟨congrArg GoType.variadic htu, hrs⟩
  | _ => cases hk

end Kinds

theorem Legible.readable {t : GoType} (ht : t.Legible) : t.Readable := by
  induction t using GoType.induction with
  | primitive p => exact readable_primitive p
  | named name package origin => exact readable_named ht
  | pointer t ih => exact .pointer ht (ih ht)
  | slice t ih => exact .slice ht (ih ht)
  | array n t ih => exact .array n ht (ih ht)
  | map k v ihk ihv =>
    obtain ⟨hk, hv⟩ := legible_map.1 ht
    exact .map ht (ihk hk) (ihv hv)
  | func params results ihp ihr =>
    obtain ⟨hp, hr⟩ := legible_func.1 ht
    exact .func ht (fun t h ↦ ihp t h (hp t h)) fun t h ↦ ihr t h (hr t h)
  | variadic t ih => exact .variadic ht (ih ht)

theorem spell_withoutOrigins (t : GoType) : t.withoutOrigins.spell = t.spell := by
  have hall {ts : List GoType} (h : ∀ t ∈ ts, t.withoutOrigins.spell = t.spell) :
      spellAll (ts.map withoutOrigins) = spellAll ts := by
    rw [Layout.spellAll_eq_map, Layout.spellAll_eq_map, List.map_map]
    exact List.map_congr_left h
  have hkind (t : GoType) : t.withoutOrigins.kind = t.kind := by
    cases t <;> rfl
  have hjoin (results : List GoType) (names : List String) :
      joinResults (results.map withoutOrigins) names = joinResults results names := by
    match results with
    | [] => rfl
    | [t] => rw [List.map_singleton, joinResults, joinResults, hkind]
    | _ :: _ :: _ => rfl
  induction t using GoType.induction with
  | primitive p => rfl
  | named name package origin => cases package <;> rfl
  | pointer t ih => exact congrArg ("*" ++ ·) ih
  | slice t ih => exact congrArg ("[]" ++ ·) ih
  | array n t ih => exact congrArg ("[" ++ Nat.repr n ++ "]" ++ ·) ih
  | map k v ihk ihv =>
    exact congrArg₂ (fun key value ↦ "map[" ++ key ++ "]" ++ value) ihk ihv
  | func params results ihp ihr =>
    rw [withoutOrigins_func, spell, spell, hall ihp, hall ihr, hjoin]
  | variadic t ih => exact congrArg ("..." ++ ·) ih

/-- Two types are spelled alike exactly when they differ in nothing but imports, provided that no
type of the package itself is named like a predeclared one. -/
theorem spell_eq_iff_withoutOrigins {t u : GoType} (ht : t.Built) (hu : u.Built)
    (hnamed : ∀ l ∈ t.leaves, l.Unshadowed) (hnamed' : ∀ l ∈ u.leaves, l.Unshadowed) :
    t.spell = u.spell ↔ t.withoutOrigins = u.withoutOrigins := by
  have hlegible : t.Legible := fun l hl ↦ ⟨ht.worded l hl, hnamed l hl⟩
  have hlegible' : u.Legible := fun l hl ↦ ⟨hu.worded l hl, hnamed' l hl⟩
  constructor
  · intro h
    have htext : t.text ++ [] = u.text ++ [] := by rw [text, text, h]
    exact (hlegible.readable u [] [] hlegible' nofun nofun htext).1
  · intro h
    rw [← spell_withoutOrigins t, h, spell_withoutOrigins]

def handlerOf (origin : Option Import) : GoType :=
  .func [.map (.primitive .string) (.pointer (.named "Request" (some "http") origin)),
    .variadic (.named "Option" none none)] [.func [] [.primitive .error]]

theorem built_handlerOf (origin : Option Import) : (handlerOf origin).Built := by
  have hrequest : qualified "http" "Request" origin = .ok (.named "Request" (some "http") origin) :=
    rfl
  have hoption : declared "Option" = .ok (.named "Option" none none) := rfl
  refine .func (List.forall_mem_cons.2 ⟨?_, List.forall_mem_singleton.2 ?_⟩)
    (List.forall_mem_singleton.2 ?_)
  · exact .map (.primitive _) (.pointer (.qualified hrequest))
  · exact .variadic (.declared hoption)
  · exact .func nofun (List.forall_mem_singleton.2 (.primitive _))

theorem unshadowed_handlerOf (origin : Option Import) :
    ∀ l ∈ (handlerOf origin).leaves, l.Unshadowed := by
  have hoption : ∀ p : Primitive, "Option" ≠ p.name := by
    intro p
    cases p <;> decide
  simpa [handlerOf, leaves, leavesAll, Leaf.Unshadowed] using hoption

theorem spell_eq_iff_withoutOrigins_handlerOf :
    (handlerOf none).Built ∧ (handlerOf (some (.plain "net/http"))).Built ∧
      (∀ l ∈ (handlerOf none).leaves, l.Unshadowed) ∧
      (∀ l ∈ (handlerOf (some (.plain "net/http"))).leaves, l.Unshadowed) ∧
      (handlerOf none).spell = "func(map[string]*http.Request, ...Option) (func() error)" ∧
      (handlerOf none).withoutOrigins = (handlerOf (some (.plain "net/http"))).withoutOrigins := by
  refine ⟨built_handlerOf _, built_handlerOf _, unshadowed_handlerOf _, unshadowed_handlerOf _,
    by decide +kernel, ?_⟩
  exact (spell_eq_iff_withoutOrigins (built_handlerOf none) (built_handlerOf _)
    (unshadowed_handlerOf none) (unshadowed_handlerOf _)).1 rfl

end GoType

end RpcStubs
