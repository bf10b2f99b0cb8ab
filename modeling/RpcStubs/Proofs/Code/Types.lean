import RpcStubs.Proofs.Code.Bodies

namespace RpcStubs.Layout

open Text

variable {P : Import → Prop}

theorem plain_of_isWord {s : List Char} (h : isWord s = true) : ∀ c ∈ s, isPlain c = true :=
  fun _ hc ↦ isPlain_of_isWordChar (isWordChar_of_mem h hc)

theorem plain_mark {mark s : String} (hm : ∀ c ∈ mark.toList, isPlain c = true)
    (h : ∀ c ∈ s.toList, isPlain c = true) : ∀ c ∈ (mark ++ s).toList, isPlain c = true := by
  intro c hc
  rw [String.toList_append, List.mem_append] at hc
  exact hc.elim (hm c) (h c)

theorem plain_valueList {values : List String}
    (h : ∀ v ∈ values, ∀ c ∈ v.toList, isPlain c = true) :
    ∀ c ∈ (Name.valueList values).toList, isPlain c = true := by
  have hsep : ∀ c ∈ ", ".toList, isPlain c = true := by decide
  intro c hc
  rw [Name.valueList, String.toList_intercalate] at hc
  rcases mem_of_mem_intercalate hc with hc | ⟨t, ht, hc⟩
  · exact hsep c hc
  · obtain ⟨v, hv, rfl⟩ := List.mem_map.1 ht
    exact h v hv c hc

theorem plain_parens {s : String} (h : ∀ c ∈ s.toList, isPlain c = true) :
    ∀ c ∈ ("(" ++ s ++ ")").toList, isPlain c = true := by
  have hopen : ∀ c ∈ "(".toList, isPlain c = true := by decide
  have hclose : ∀ c ∈ ")".toList, isPlain c = true := by decide
  intro c hc
  simp only [String.toList_append, List.mem_append] at hc
  rcases hc with (hc | hc) | hc
  · exact hopen c hc
  · exact h c hc
  · exact hclose c hc

theorem plain_resultList {results : List GoType}
    (h : ∀ t ∈ results, ∀ c ∈ t.spell.toList, isPlain c = true) :
    ∀ c ∈ (GoType.resultList results).toList, isPlain c = true := by
  have hnames : ∀ c ∈ (Name.valueList (GoType.spellAll results)).toList, isPlain c = true := by
    refine plain_valueList fun v hv ↦ ?_
    rw [spellAll_eq_map] at hv
    obtain ⟨t, ht, rfl⟩ := List.mem_map.1 hv
    exact h t ht
  unfold GoType.resultList GoType.joinResults
  split
  · simp
  · split_ifs
    · exact plain_parens hnames
    · exact hnames
  · exact plain_parens hnames

theorem usable_primitive (p : Primitive) : Usable P (.primitive p) where
  flat := flat_primitive p
  plain := by
    change ∀ c ∈ p.name.toList, isPlain c = true
    cases p <;> decide
  imports := nofun

theorem usable_declared {name : String} (h : isWord name.toList = true) :
    Usable P (.named name none none) where
  flat := flat_named h none
  plain := plain_of_isWord h
  imports := nofun

theorem usable_qualified {package name : String} {origin : Option Import}
    (hp : isWord package.toList = true) (hn : isWord name.toList = true)
    (ho : ∀ i ∈ origin, P i) : Usable P (.named name (some package) origin) where
  flat := flat_qualified hp hn origin
  plain := by
    change ∀ c ∈ (package ++ "." ++ name).toList, isPlain c = true
    intro c hc
    rw [String.toList_append, String.toList_append, List.mem_append, List.mem_append] at hc
    rcases hc with (hc | hc) | hc
    · exact plain_of_isWord hp c hc
    · obtain rfl := List.mem_singleton.1 hc
      decide
    · exact plain_of_isWord hn c hc
  imports := fun i hi ↦ ho i (Option.mem_toList.1 hi)

theorem usable_composite {t element : GoType} {mark : String}
    (ht : t.spell = mark ++ element.spell) (horigins : t.origins = element.origins)
    (hflat : Flat mark.toList) (hplain : ∀ c ∈ mark.toList, isPlain c = true)
    (h : Usable P element) : Usable P t where
  flat := flat_composite ht hflat h.flat
  plain := by
    rw [ht]
    exact plain_mark hplain h.plain
  imports := by
    rw [horigins]
    exact h.imports

theorem usable_pointer {t : GoType} (h : Usable P t) : Usable P (.pointer t) :=
  usable_composite rfl rfl (flat_ofList (by decide)) (by decide) h

theorem usable_slice {t : GoType} (h : Usable P t) : Usable P (.slice t) :=
  usable_composite rfl rfl (flat_ofList (by decide)) (by decide) h

theorem usable_variadic {t : GoType} (h : Usable P t) : Usable P (.variadic t) :=
  usable_composite rfl rfl (flat_ofList (by decide)) (by decide) h

theorem usable_array {t : GoType} (h : Usable P t) (n : Nat) : Usable P (.array n t) := by
  have hdigits : ∀ c ∈ (Nat.repr n).toList, isPlain c = true := by
    intro c hc
    rw [Nat.repr, String.toList_ofList] at hc
    have hd := Nat.isDigit_of_mem_toDigits (by decide) (by decide) hc
    simp only [isPlain, Bool.and_eq_true, bne_iff_ne]
    refine ⟨⟨⟨?_, ?_⟩, ?_⟩, ?_⟩ <;> rintro rfl <;> exact absurd hd (by decide)
  refine usable_composite rfl rfl (flat_length n) (fun c hc ↦ ?_) h
  rw [String.toList_append, List.mem_append] at hc
  rcases hc with hc | hc
  · exact plain_mark (by decide) hdigits c hc
  · obtain rfl := List.mem_singleton.1 hc
    decide

theorem yields_usable_declared (name : String) :
    Yields (GoType.declared name) (Usable P) :=
  (yields_declared name).mono fun t h ↦ by
    rw [h.1]
    exact usable_declared h.2

theorem yields_imported {origin : Import} (h : P origin) (name : String) :
    Yields (GoType.imported origin name) (Usable P) := by
  refine (yields_qualified ..).mono fun t ht ↦ ?_
  obtain ⟨rfl, hp, hn⟩ := ht
  exact usable_qualified hp hn fun i hi ↦ by obtain rfl := Option.some_inj.1 hi; exact h

theorem usable_map {k v : GoType} (hk : Usable P k) (hv : Usable P v) : Usable P (.map k v) where
  flat := by
    have hkey : Flat ("[" ++ k.spell ++ "]").toList := by
      have hw := hk.flat.wrap (o := '[') (c := ']') (by decide)
      simpa using hw
    have hsplit : (GoType.map k v).spell.toList =
        "map".toList ++ (("[" ++ k.spell ++ "]").toList ++ v.spell.toList) := by
      change ("map[" ++ k.spell ++ "]" ++ v.spell).toList = _
      simp
    rw [hsplit]
    exact (flat_ofList (by decide)).append (hkey.append hv.flat)
  plain := by
    have hopen : ∀ c ∈ "map[".toList, isPlain c = true := by decide
    have hclose : ∀ c ∈ "]".toList, isPlain c = true := by decide
    change ∀ c ∈ ("map[" ++ k.spell ++ "]" ++ v.spell).toList, isPlain c = true
    intro c hc
    simp only [String.toList_append, List.mem_append] at hc
    rcases hc with ((hc | hc) | hc) | hc
    · exact hopen c hc
    · exact hk.plain c hc
    · exact hclose c hc
    · exact hv.plain c hc
  imports := fun i hi ↦ (List.mem_append.1 hi).elim (hk.imports i) (hv.imports i)

theorem mem_originsAll {i : Import} {ts : List GoType} :
    i ∈ GoType.originsAll ts ↔ ∃ t ∈ ts, i ∈ t.origins := by
  induction ts with
  | nil => simp [GoType.originsAll]
  | cons t ts ih => simp [GoType.originsAll, ih]

/-- The spelling of a function type, without results or with them. -/
theorem toList_spell_func (params results : List GoType) :
    (GoType.func params results).spell.toList =
      ("func".toList ++ ("(" ++ Name.valueList (GoType.spellAll params) ++ ")").toList) ++
        if (GoType.resultList results).isEmpty then []
        else ' ' :: (GoType.resultList results).toList := by
  change (GoType.withResults ("func(" ++ Name.valueList (GoType.spellAll params) ++ ")")
    (GoType.resultList results)).toList = _
  rw [GoType.withResults]
  split_ifs <;> simp

theorem usable_func {params results : List GoType} (hp : ∀ t ∈ params, Usable P t)
    (hr : ∀ t ∈ results, Usable P t) : Usable P (.func params results) where
  flat := by
    have hparams : Flat (Name.valueList (GoType.spellAll params)).toList := by
      refine flat_valueList fun v hv ↦ ?_
      rw [spellAll_eq_map] at hv
      obtain ⟨t, ht, rfl⟩ := List.mem_map.1 hv
      exact (hp t ht).flat
    have hhead := (flat_of_isFlat (s := "func".toList) (by decide)).append (flat_parens hparams)
    rw [toList_spell_func]
    split_ifs
    · rwa [List.append_nil]
    · have hspace : Flat [' '] := flat_of_isFlat (by decide)
      exact hhead.append (hspace.append (flat_resultList fun t ht ↦ (hr t ht).flat))
  plain := by
    have hfunc : ∀ c ∈ "func".toList, isPlain c = true := by decide
    have hparams : ∀ c ∈ (Name.valueList (GoType.spellAll params)).toList, isPlain c = true := by
      refine plain_valueList fun v hv ↦ ?_
      rw [spellAll_eq_map] at hv
      obtain ⟨t, ht, rfl⟩ := List.mem_map.1 hv
      exact (hp t ht).plain
    intro c hc
    rw [toList_spell_func, List.mem_append, List.mem_append] at hc
    rcases hc with (hc | hc) | hc
    · exact hfunc c hc
    · exact plain_parens hparams c hc
    · split_ifs at hc
      · cases hc
      · rcases List.mem_cons.1 hc with rfl | hc
        · decide
        · exact plain_resultList (fun t ht ↦ (hr t ht).plain) c hc
  imports := by
    intro i hi
    rcases List.mem_append.1 hi with hi | hi
    · obtain ⟨t, ht, hi⟩ := mem_originsAll.1 hi
      exact (hp t ht).imports i hi
    · obtain ⟨t, ht, hi⟩ := mem_originsAll.1 hi
      exact (hr t ht).imports i hi

end RpcStubs.Layout

namespace RpcStubs

/-- Types that the constructors build: names are checked, anything may stand around them. -/
inductive GoType.Built : GoType → Prop
  | primitive (p : Primitive) : Built (.primitive p)
  | declared {name : String} {t : GoType} : GoType.declared name = .ok t → Built t
  | qualified {package name : String} {origin : Option Import} {t : GoType} :
      GoType.qualified package name origin = .ok t → Built t
  | pointer {t : GoType} : Built t → Built (.pointer t)
  | slice {t : GoType} : Built t → Built (.slice t)
  | array {t : GoType} (n : Nat) : Built t → Built (.array n t)
  | map {k v : GoType} : Built k → Built v → Built (.map k v)
  | func {params results : List GoType} : (∀ t ∈ params, Built t) → (∀ t ∈ results, Built t) →
      Built (.func params results)
  | variadic {t : GoType} : Built t → Built (.variadic t)

theorem GoType.Built.usable {t : GoType} (h : t.Built) : Layout.Usable (fun _ ↦ True) t := by
  induction h with
  | primitive p => exact Layout.usable_primitive p
  | @declared name t h =>
    have hy := yields_declared name
    rw [h] at hy
    obtain ⟨rfl, hn⟩ := hy.of_ok
    exact Layout.usable_declared hn
  | @qualified package name origin t h =>
    have hy := yields_qualified package name origin
    rw [h] at hy
    obtain ⟨rfl, hp, hn⟩ := hy.of_ok
    exact Layout.usable_qualified hp hn fun _ _ ↦ trivial
  | pointer _ ih => exact Layout.usable_pointer ih
  | slice _ ih => exact Layout.usable_slice ih
  | array n _ ih => exact Layout.usable_array ih n
  | map _ _ ihk ihv => exact Layout.usable_map ihk ihv
  | func _ _ ihp ihr => exact Layout.usable_func ihp ihr
  | variadic _ ih => exact Layout.usable_variadic ih

end RpcStubs
