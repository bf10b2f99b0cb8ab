import RpcStubs.Proofs.Schema.PackageNames
import RpcStubs.Proofs.Stub.Runs

namespace RpcStubs

namespace Text

variable {sep : Char} {d s : List Char}

def IsDirectory (sep : Char) (d : List Char) : Prop := d = [] ∨ ∃ t, d = t ++ [sep]

def throughLast (sep : Char) (s : List Char) : List Char :=
  match cutLast sep s with
  | some (before, _) => before ++ [sep]
  | none => []

theorem isDirectory_throughLast (sep : Char) (s : List Char) :
    IsDirectory sep (throughLast sep s) := by
  unfold throughLast
  split
  · exact .inr ⟨_, rfl⟩
  · exact .inl rfl

theorem throughLast_append_afterLast (sep : Char) (s : List Char) :
    throughLast sep s ++ afterLast sep s = s := by
  unfold throughLast afterLast
  cases hcut : cutLast sep s with
  | none => rfl
  | some cut =>
    obtain ⟨hs, -⟩ := cutLast_eq_some_iff.1 hcut
    simp [hs]

theorem not_mem_afterLast (sep : Char) (s : List Char) : sep ∉ afterLast sep s := by
  unfold afterLast
  split
  · next hcut => exact (cutLast_eq_some_iff.1 hcut).2
  · next hcut => exact cutLast_eq_none_iff.1 hcut

theorem afterLast_append (hd : IsDirectory sep d) (hs : sep ∉ s) : afterLast sep (d ++ s) = s := by
  rcases hd with rfl | ⟨t, rfl⟩
  · rw [List.nil_append, afterLast, cutLast_eq_none_iff.2 hs]
  · have hcut : cutLast sep (t ++ [sep] ++ s) = some (t, s) :=
      cutLast_eq_some_iff.2 ⟨by simp, hs⟩
    rw [afterLast, hcut]

/-- A text is cut into a directory and a last segment in one way. -/
theorem append_inj_of_isDirectory {d' s' : List Char} (hd : IsDirectory sep d)
    (hd' : IsDirectory sep d') (hs : sep ∉ s) (hs' : sep ∉ s') (h : d ++ s = d' ++ s') :
    d = d' ∧ s = s' := by
  have hlast : s = s' := by
    rw [← afterLast_append hd hs, h, afterLast_append hd' hs']
  subst hlast
  exact ⟨List.append_cancel_right h, rfl⟩

theorem eq_of_ofNat_eq_slash {n : Nat} (h : Char.ofNat n = '/') : n = 47 := by
  by_cases hvalid : n.isValidChar
  · rw [Char.ofNat, dif_pos hvalid] at h
    exact congrArg Char.toNat h
  · rw [Char.ofNat, dif_neg hvalid] at h
    cases h

/-- Only a slash has a slash in its lower case. -/
theorem slash_not_mem_toLower {c : Char} (hc : c ≠ '/') : '/' ∉ toLower c := by
  have hshifts : ∀ s ∈ lowerShifts, s.hi + s.offset < 47 ∨ 47 < s.lo + s.offset := by
    decide +kernel
  have hgrowth : ∀ p ∈ lowerGrowth, '/' ∉ p.2.map Char.ofNat := by decide +kernel
  rw [toLower, mapCase]
  split
  · next s hfind =>
    have hcovers := List.find?_some hfind
    simp only [CaseShift.covers, Bool.and_eq_true, decide_eq_true_eq] at hcovers
    have hs := hshifts s (List.mem_of_find?_eq_some hfind)
    rw [List.mem_singleton]
    intro h
    have hcode := eq_of_ofNat_eq_slash h.symm
    omega
  · split
    · next codes hlookup =>
      obtain ⟨l, l', hsplit, -⟩ := List.lookup_eq_some_iff.1 hlookup
      exact hgrowth (c.toNat, codes) (by rw [hsplit]; simp)
    · simpa using hc.symm

end Text

namespace Name

theorem slash_not_mem_snakeChars {first : Bool} {s : List Char} (h : '/' ∉ s) :
    '/' ∉ snakeChars first s := by
  induction s generalizing first with
  | nil => exact h
  | cons c s ih =>
    obtain ⟨hc, hs⟩ := not_or.1 (mt List.mem_cons.2 h)
    rw [snakeChars, List.mem_append, List.mem_append]
    rintro ((hmark | hlower) | hrest)
    · split_ifs at hmark
      · exact absurd hmark (by decide)
      · cases hmark
    · exact Text.slash_not_mem_toLower (Ne.symm hc) hlower
    · exact ih hs hrest

end Name

namespace Stub

open Schema (Context File)

namespace Request

theorem sublist_names {names : List String} (r : Request) :
    ((names.filterMap fun name ↦ (r.file? name).filter fun f ↦ !f.services.isEmpty).map
      (·.name)).Sublist names := by
  induction names with
  | nil => exact .slnil
  | cons name names ih =>
    rw [List.filterMap_cons]
    split
    · exact ih.cons name
    · next f hf =>
      have hfound := List.find?_some (Option.eq_some_of_filter_eq_some hf)
      rw [List.map_cons, beq_iff_eq.1 hfound]
      exact ih.cons_cons name

theorem sublist_served (r : Request) : (r.served.map (·.name)).Sublist r.filesToGenerate :=
  r.sublist_names

end Request

namespace Config

variable {c : Config} {r : Request} {f f' : File} {made : List GeneratedFile}

/-- The directory of an output, with the slash after it: the import path if it counts and there is
one, or the directory of the schema file. -/
def outputDirectory (c : Config) (f : File) : String :=
  match c.paths, f.importPath? with
  | .importPath, some path => path ++ "/"
  | _, _ => String.ofList (Text.throughLast '/' f.name.toList)

/-- What of a schema file the name of its output depends on. -/
def placement (c : Config) (f : File) : String × String :=
  (c.outputDirectory f, Name.snakeCase (lastSegment f.name))

theorem isDirectory_outputDirectory (c : Config) (f : File) :
    Text.IsDirectory '/' (c.outputDirectory f).toList := by
  unfold outputDirectory
  split
  · exact .inr ⟨_, String.toList_append⟩
  · rw [String.toList_ofList]
    exact Text.isDirectory_throughLast '/' f.name.toList

theorem slash_not_mem_stem (f : File) :
    '/' ∉ (Name.snakeCase (lastSegment f.name)).toList := by
  rw [Name.snakeCase, lastSegment, String.toList_ofList, String.toList_ofList]
  exact Name.slash_not_mem_snakeChars (Text.not_mem_afterLast '/' f.name.toList)

theorem goFile_eq (s : String) : Name.goFile s =
    String.ofList (Text.throughLast '/' s.toList) ++ Name.snakeCase (lastSegment s) ++ ".go" := by
  unfold Name.goFile lastSegment Text.throughLast Text.afterLast
  cases Text.cutLast '/' s.toList with
  | none => simp
  | some cut => simp [String.ofList_append]

/-- A last segment is in no directory. -/
theorem goFile_lastSegment (s : String) :
    Name.goFile (lastSegment s) = Name.snakeCase (lastSegment s) ++ ".go" := by
  have hcut : Text.cutLast '/' (lastSegment s).toList = none := by
    rw [lastSegment, String.toList_ofList]
    exact Text.cutLast_eq_none_iff.2 (Text.not_mem_afterLast '/' s.toList)
  rw [Name.goFile, hcut]

theorem outputName_goFile (c : Config) (f : File) : c.outputName f (Name.goFile f.name) =
    c.outputDirectory f ++ Name.snakeCase (lastSegment f.name) ++ ".go" := by
  unfold outputName outputDirectory
  cases c.paths with
  | sourceRelative => exact goFile_eq f.name
  | importPath =>
    cases f.importPath? with
    | none => exact goFile_eq f.name
    | some path =>
      rw [goFile_lastSegment]
      exact String.append_assoc.symm

theorem outputName_eq_iff : c.outputName f (Name.goFile f.name) =
    c.outputName f' (Name.goFile f'.name) ↔ c.placement f = c.placement f' := by
  rw [outputName_goFile, outputName_goFile, String.append_left_inj, placement, placement,
    Prod.mk.injEq]
  constructor
  · intro h
    -- the stem has no slash, so the last slash of a name ends its directory
    have hparts := congrArg String.toList h
    rw [String.toList_append, String.toList_append] at hparts
    obtain ⟨hdirectory, hstem⟩ := Text.append_inj_of_isDirectory
      (isDirectory_outputDirectory c f) (isDirectory_outputDirectory c f')
      (slash_not_mem_stem f) (slash_not_mem_stem f') hparts
    exact ⟨String.toList_inj.1 hdirectory, String.toList_inj.1 hstem⟩
  · rintro ⟨hdirectory, hstem⟩
    rw [hdirectory, hstem]

/-- Every output of a run has the name that its schema file gives it. -/
theorem map_name_of_generate [Compressor] (h : (c.generate r).result = .ok made) :
    made.map (·.name) = r.served.map fun f ↦ c.outputName f (Name.goFile f.name) := by
  obtain ⟨ctx, -, houts⟩ := exists_outputs_of_generate h
  have hnames : List.Forall₂ (fun name out ↦ name = out.name)
      (r.served.zipIdx.map fun entry ↦ c.outputName entry.1 (Name.goFile entry.1.name)) made := by
    refine List.forall₂_map_left_iff.2 (houts.imp ?_)
    rintro entry out ⟨g, body, hout⟩
    obtain ⟨file, hf, hg⟩ := hout.numbered
    rw [hout.name, (vars_of_draft hf hg).1]
  rw [← List.forall₂_map_right_iff, List.forall₂_eq_eq_eq] at hnames
  rw [← hnames, ← Function.comp_def (fun f : File ↦ c.outputName f (Name.goFile f.name)) Prod.fst,
    ← List.map_map, List.zipIdx_map_fst]

/-- The outputs of a run have different names exactly if their schema files are placed in different
directories or under different stems. -/
theorem nodup_names_iff [Compressor] (h : (c.generate r).result = .ok made) :
    (made.map (·.name)).Nodup ↔ (r.served.map c.placement).Nodup := by
  rw [map_name_of_generate h, List.Nodup, List.Nodup, List.pairwise_map, List.pairwise_map]
  exact List.Pairwise.iff fun _ _ ↦ not_congr outputName_eq_iff

def nestedFiles : List File :=
  [plainFile "api/FooBar.proto" ["S"], plainFile "foo_bar.proto" ["T"]]

theorem exists_generate_nestedFiles [Compressor] :
    ∃ made, (bareConfig.generate (plainRequest nestedFiles)).result = .ok made := by
  have hquotable : Quotable bareConfig (plainRequest nestedFiles) := by decide
  refine exists_generate_plainRequest hquotable rfl fun i (hi : i ∈ [0, 1]) ↦ ?_
  simp only [List.mem_cons, List.not_mem_nil, or_false] at hi
  rcases hi with rfl | rfl
  all_goals refine ready_plainFile rfl rfl (by decide) (by decide +kernel) ?_
  all_goals exact List.forall_mem_singleton.2 ⟨by decide, rfl⟩

theorem nodup_names_iff_nestedFiles :
    ∃ made, (bareConfig.generate (plainRequest nestedFiles)).result = .ok made ∧
      (made.map (·.name)).Nodup := by
  obtain ⟨made, hmade⟩ := exists_generate_nestedFiles
  exact ⟨made, hmade, (nodup_names_iff hmade).2 (by decide)⟩

/-- Two schema files of different names are generated to one name. -/
theorem exists_names_not_nodup :
    ¬∀ (c : Config) (r : Request) (made : List GeneratedFile), r.filesToGenerate.Nodup →
      (c.generate r).result = .ok made → (made.map (·.name)).Nodup := by
  intro hall
  obtain ⟨made, hmade⟩ := exists_generate_mixedFiles
  have hnames := hall bareConfig (plainRequest mixedFiles) made (by decide) hmade
  rw [map_name_of_generate hmade] at hnames
  exact absurd hnames (by decide)

/-- Beside the schema files, names that snake case leaves as they are stay different. -/
theorem nodup_names_of_snakeCase [Compressor] (hpaths : c.paths = .sourceRelative)
    (hnames : r.filesToGenerate.Nodup) (hsnake : ∀ f ∈ r.served,
      Name.snakeCase (lastSegment f.name) = lastSegment f.name)
    (h : (c.generate r).result = .ok made) : (made.map (·.name)).Nodup := by
  rw [map_name_of_generate h]
  have hmap : (r.served.map fun f ↦ c.outputName f (Name.goFile f.name)) =
      (r.served.map (·.name)).map (· ++ ".go") := by
    rw [List.map_map]
    refine List.map_congr_left fun f hf ↦ ?_
    rw [outputName_goFile, hsnake f hf, outputDirectory, hpaths, lastSegment,
      ← String.ofList_append,
      Text.throughLast_append_afterLast, String.ofList_toList]
    rfl
  rw [hmap]
  exact (hnames.sublist r.sublist_served).map fun _ _ ↦ (String.append_left_inj _).1

end Config

end Stub

end RpcStubs
