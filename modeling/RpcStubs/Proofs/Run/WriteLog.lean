import RpcStubs.Proofs.Stub.OutputNames
import RpcStubs.Proofs.Text.Pieces
import RpcStubs.Run.Offline

namespace RpcStubs

namespace FilePath

variable {out name : String}

def steps (path : String) : List String := (segments path).filter (!isIdle ·)

/-- A path that goes through the directory and from there only downwards. -/
structure Inside (out path : String) : Prop where
  absolute : isAbsolute path = isAbsolute out
  below : ∃ rest, steps path = steps out ++ rest ∧ ".." ∉ rest

theorem segments_slash (a b : String) : segments (a ++ "/" ++ b) = segments a ++ segments b := by
  have htext : (a ++ "/" ++ b).toList = a.toList ++ '/' :: b.toList := by simp
  rw [segments, htext, Text.pieces_append, List.map_append]
  rfl

theorem steps_slash (a b : String) : steps (a ++ "/" ++ b) = steps a ++ steps b := by
  rw [steps, segments_slash, List.filter_append]
  rfl

theorem exists_of_getLast?_eq_slash (h : out.toList.getLast? = some '/') :
    ∃ dir, out = dir ++ "/" := by
  obtain ⟨dir, hdir⟩ := List.getLast?_eq_some_iff.1 h
  refine ⟨String.ofList dir, ?_⟩
  rw [← String.toList_inj, hdir]
  simp

theorem steps_join (out name : String) : steps (join out name) = steps out ++ steps name := by
  unfold join
  split_ifs with hout
  · rcases hout with hempty | hslash
    · obtain rfl : out = "" := by simpa using hempty
      rw [String.empty_append]
      rfl
    · obtain ⟨dir, rfl⟩ := exists_of_getLast?_eq_slash hslash
      have hdir : steps (dir ++ "/") = steps dir := by
        have hend := steps_slash dir ""
        rw [String.append_empty] at hend
        rw [hend]
        exact List.append_nil _
      rw [steps_slash, hdir]
  · exact steps_slash out name

theorem isAbsolute_join (h : isAbsolute name = false) :
    isAbsolute (join out name) = isAbsolute out := by
  by_cases hempty : out = ""
  · subst hempty
    have hjoin : join "" name = name := by
      rw [join, if_pos (.inl rfl), String.empty_append]
    rw [hjoin, h]
    rfl
  · obtain ⟨c, rest, hcons⟩ := List.exists_cons_of_ne_nil (mt String.toList_eq_nil_iff.1 hempty)
    unfold isAbsolute join
    split_ifs
    · simp [hcons]
    · simp [hcons]

/-- A name that does not escape stays inside every directory. -/
theorem inside_join (h : escapes name = false) : Inside out (join out name) := by
  rw [escapes, Bool.or_eq_false_iff] at h
  obtain ⟨habsolute, hparent⟩ := h
  refine ⟨isAbsolute_join habsolute, steps name, steps_join out name, fun hmem ↦ ?_⟩
  have hcontains := List.contains_iff_mem.2 (List.mem_of_mem_filter hmem)
  rw [hparent] at hcontains
  cases hcontains

end FilePath

namespace Offline

open Stub FilePath

variable {out : String} {read : String → Except String (List UInt8)} {files : List GeneratedFile}

inductive Operation where
  | createDirectories (path : String)
  | write (path : String) (data : List UInt8)
  deriving DecidableEq, Repr

/-- Storage in which storing works and is written down. The empty path is the directory that is
there already. -/
def logged (read : String → Except String (List UInt8)) : Storage (StateM (List Operation)) where
  read path := return read path
  createDirectories path := do
    unless path.isEmpty do modify (· ++ [.createDirectories path])
    return true
  write path data := do
    modify (· ++ [.write path data])
    return true

def written (done : List Operation) : List (String × List UInt8) :=
  done.filterMap fun
    | .write path data => some (path, data)
    | .createDirectories _ => none

def accepted (g : GeneratedFile) : Bool := !escapes g.name

def placed (out : String) (g : GeneratedFile) : String × List UInt8 :=
  (join out g.name, Text.utf8Bytes g.content)

def operations (out : String) (g : GeneratedFile) : List Operation :=
  let dir := parent (join out g.name)
  (if dir.isEmpty then [] else [.createDirectories dir]) ++
    [.write (placed out g).1 (placed out g).2]

theorem outputPath_of_accepted {g : GeneratedFile} (h : accepted g = true) :
    outputPath out g.name = .ok (join out g.name) := by
  rw [accepted, Bool.not_eq_true'] at h
  rw [outputPath, h]
  rfl

theorem outputPath_of_rejected {g : GeneratedFile} (h : accepted g = false) :
    outputPath out g.name = .error (.escapingName g.name) := by
  rw [accepted, Bool.not_eq_false'] at h
  rw [outputPath, if_pos h]

theorem createDirectories_logged (dir : String) (done : List Operation) :
    ((logged read).createDirectories dir).run done =
      pure (true, done ++ if dir.isEmpty then [] else [.createDirectories dir]) := by
  unfold logged
  by_cases hdir : dir.isEmpty = true
  · simp only [hdir, if_true, List.append_nil]
    rfl
  · simp only [hdir]
    rfl

theorem writeFile_of_accepted {g : GeneratedFile} (h : accepted g = true) (done : List Operation) :
    (writeFile (logged read) out g).run done =
      (.ok (join out g.name), done ++ operations out g) := by
  rw [writeFile, outputPath_of_accepted h]
  dsimp only
  rw [StateT.run_bind, createDirectories_logged, operations, ← List.append_assoc]
  simp only [pure_bind, Bool.or_true, Bool.not_true]
  rfl

theorem writeFile_of_rejected {g : GeneratedFile} (h : accepted g = false) (done : List Operation) :
    (writeFile (logged read) out g).run done = (.error (.escapingName g.name), done) := by
  rw [writeFile, outputPath_of_rejected h]
  rfl

/-- Files are stored in turn, up to the first that is rejected. -/
theorem writeAll_logged (files : List GeneratedFile) (done : List Operation) :
    (writeAll (logged read) out files).run done =
      ({ paths := (files.takeWhile accepted).map fun g ↦ join out g.name
         failure := (files.find? (!accepted ·)).map fun g ↦ .escapingName g.name },
        done ++ (files.takeWhile accepted).flatMap (operations out)) := by
  induction files generalizing done with
  | nil =>
    rw [writeAll, List.takeWhile_nil, List.flatMap_nil, List.append_nil]
    rfl
  | cons g files ih =>
    rw [writeAll, StateT.run_bind]
    cases hg : accepted g with
    | false =>
      rw [writeFile_of_rejected hg, List.takeWhile_cons_of_neg (by simp [hg]),
        List.find?_cons_of_pos (by simp [hg]), List.flatMap_nil, List.append_nil]
      rfl
    | true =>
      rw [writeFile_of_accepted hg, List.takeWhile_cons_of_pos hg,
        List.find?_cons_of_neg (by simp [hg]), List.flatMap_cons, List.map_cons,
        ← List.append_assoc]
      -- a file that is stored leaves the loop over the others
      change (StateT.run (do
        let more ← writeAll (logged read) out files
        return { more with paths := join out g.name :: more.paths }) (done ++ operations out g)) = _
      rw [StateT.run_bind, ih]
      rfl

variable {l l' : Logger} {j : Job}

def configs (read : String → Except String (List UInt8)) (parameter : Option String) :
    String → Build Config :=
  match parameter.bind Config.fileOf? with
  | some path => fun name ↦ Config.ofFile name (read path)
  | none => fun _ ↦ .ok {}

theorem loader_logged (parameter : Option String) (done : List Operation) :
    ((logged read).loader parameter).run done = pure (configs read parameter, done) := by
  rw [Storage.loader, configs]
  cases parameter.bind Config.fileOf? <;> rfl

def outcome [Compressor] (read : String → Except String (List UInt8)) (l : Logger) (j : Job) :
    Except RunFailure (List String) × List Operation :=
  let (returned, done) := (run (logged read) l j).run []
  (returned.2, done)

def stored (out : String) (files : List GeneratedFile) :
    Except RunFailure (List String) × List Operation :=
  (match files.find? (!accepted ·) with
    | some g => .error (.escapingName g.name)
    | none => .ok ((files.takeWhile accepted).map fun g ↦ join out g.name),
    (files.takeWhile accepted).flatMap (operations out))

theorem outcome_of_ok [Compressor]
    (h : generate (configs read j.parameter) l j (read j.descriptorSet) = (l', .ok files)) :
    outcome read l j = stored j.out files := by
  have hread : (logged read).read j.descriptorSet = pure (read j.descriptorSet) := rfl
  rw [outcome, run, StateT.run_bind, loader_logged, pure_bind, hread]
  simp only [pure_bind, h]
  rw [StateT.run_bind, writeAll_logged, stored]
  cases files.find? (!accepted ·) <;> rfl

/-- A run that fails before there are files does nothing. -/
theorem outcome_of_error [Compressor] {failure : RunFailure}
    (h : generate (configs read j.parameter) l j (read j.descriptorSet) = (l', .error failure)) :
    outcome read l j = (.error failure, []) := by
  have hread : (logged read).read j.descriptorSet = pure (read j.descriptorSet) := rfl
  rw [outcome, run, StateT.run_bind, loader_logged, pure_bind, hread]
  simp only [pure_bind, h]
  rfl

theorem isOk_outputPath (out : String) (g : GeneratedFile) :
    (outputPath out g.name).isOk = accepted g := by
  cases hg : accepted g with
  | false =>
    rw [outputPath_of_rejected hg]
    rfl
  | true =>
    rw [outputPath_of_accepted hg]
    rfl

theorem written_append (a b : List Operation) : written (a ++ b) = written a ++ written b :=
  List.filterMap_append

theorem written_operations (out : String) (g : GeneratedFile) :
    written (operations out g) = [placed out g] := by
  rw [operations, written_append]
  split <;> rfl

theorem written_flatMap_operations (out : String) (files : List GeneratedFile) :
    written (files.flatMap (operations out)) = files.map (placed out) := by
  induction files with
  | nil => rfl
  | cons g files ih =>
    rw [List.flatMap_cons, written_append, written_operations, ih]
    rfl

/-- What a run has stored: the files before the first that is rejected, inside the directory. -/
structure StoredInside (out : String) (files : List GeneratedFile)
    (done : List Operation) : Prop where
  before : written done = (files.takeWhile fun g ↦ (outputPath out g.name).isOk).map (placed out)
  inside : ∀ file ∈ written done, Inside out file.1

theorem storedInside (out : String) (files : List GeneratedFile) :
    StoredInside out files (stored out files).2 := by
  have hwritten := written_flatMap_operations out (files.takeWhile accepted)
  refine ⟨?_, fun file hfile ↦ ?_⟩
  · simp only [isOk_outputPath]
    exact hwritten
  · rw [stored, hwritten] at hfile
    obtain ⟨g, hg, rfl⟩ := List.mem_map.1 hfile
    have hpasses := List.mem_takeWhile_imp hg
    rw [accepted, Bool.not_eq_true'] at hpasses
    exact inside_join hpasses

/-- Either every name passes the check, and exactly the generated files are written, inside the
directory, or the run fails and nothing is done. -/
structure AllOrNothing (out : String) (files : List GeneratedFile)
    (result : Except RunFailure (List String)) (done : List Operation) : Prop where
  nothing : (∃ g ∈ files, (outputPath out g.name).isOk = false) →
    (∃ failure, result = .error failure) ∧ done = []
  all : (∀ g ∈ files, (outputPath out g.name).isOk = true) →
    result = .ok (files.map fun g ↦ join out g.name) ∧
      written done = files.map (placed out) ∧ ∀ file ∈ written done, Inside out file.1

theorem stored_of_accepted (h : ∀ g ∈ files, accepted g = true) :
    stored out files =
      (.ok (files.map fun g ↦ join out g.name), files.flatMap (operations out)) := by
  have hnone : files.find? (!accepted ·) = none := List.find?_eq_none.2 fun g hg ↦ by simp [h g hg]
  rw [stored, hnone, List.takeWhile_eq_self_iff.2 h]

theorem operations_ne_nil (out : String) (g : GeneratedFile) : operations out g ≠ [] := by
  simp [operations]

theorem stored_eq_nil_iff : (stored out files).2 = [] ↔
    ∀ g, files.head? = some g → accepted g = false := by
  rw [stored]
  cases files with
  | nil => simp
  | cons g files =>
    cases hg : accepted g with
    | false => simp [hg]
    | true => simp [hg, operations_ne_nil]

theorem error_of_rejected (h : ∃ g ∈ files, accepted g = false) :
    ∃ failure, (stored out files).1 = .error failure := by
  obtain ⟨g, hg, hrejected⟩ := h
  have hsome : (files.find? (!accepted ·)).isSome = true :=
    List.find?_isSome.2 ⟨g, hg, by simp [hrejected]⟩
  obtain ⟨first, hfirst⟩ := Option.isSome_iff_exists.1 hsome
  exact ⟨.escapingName first.name, by rw [stored, hfirst]⟩

theorem allOrNothing_iff : AllOrNothing out files (stored out files).1 (stored out files).2 ↔
    (∀ g ∈ files, accepted g = true) ∨ ∃ g, files.head? = some g ∧ accepted g = false := by
  constructor
  · intro h
    by_cases hall : ∀ g ∈ files, accepted g = true
    · exact .inl hall
    · right
      simp only [not_forall, Bool.not_eq_true] at hall
      obtain ⟨g, hg, hrejected⟩ := hall
      obtain ⟨-, hdone⟩ := h.nothing ⟨g, hg, (isOk_outputPath out g).trans hrejected⟩
      -- had the first file passed, it would have been stored before the rejected one was looked at
      obtain ⟨first, rest, rfl⟩ := List.exists_cons_of_ne_nil (List.ne_nil_of_mem hg)
      exact ⟨first, rfl, stored_eq_nil_iff.1 hdone first rfl⟩
  · rintro (hall | ⟨first, hfirst, hrejected⟩)
    · refine ⟨fun ⟨g, hg, hfails⟩ ↦ ?_, fun _ ↦ ?_⟩
      · rw [isOk_outputPath, hall g hg] at hfails
        cases hfails
      · have hinside := storedInside out files
        rw [stored_of_accepted hall] at hinside ⊢
        exact ⟨rfl, written_flatMap_operations out files, hinside.inside⟩
    · have hmem := List.mem_of_head? hfirst
      refine ⟨fun _ ↦ ⟨error_of_rejected ⟨first, hmem, hrejected⟩, ?_⟩, fun hall ↦ ?_⟩
      · refine stored_eq_nil_iff.2 fun g hg ↦ ?_
        obtain rfl := Option.some_inj.1 (hg.symm.trans hfirst)
        exact hrejected
      · have hpasses := hall first hmem
        rw [isOk_outputPath, hrejected] at hpasses
        cases hpasses

/-- A run fails if a name is rejected. It has then stored the files before the first such name, and
nothing at all exactly if that is the first of all files. -/
theorem run_allOrNothing_iff [Compressor]
    (h : generate (configs read j.parameter) l j (read j.descriptorSet) = (l', .ok files)) :
    StoredInside j.out files (outcome read l j).2 ∧
      ((∃ g ∈ files, (outputPath j.out g.name).isOk = false) ↔
        ∃ failure, (outcome read l j).1 = .error failure) ∧
      (AllOrNothing j.out files (outcome read l j).1 (outcome read l j).2 ↔
        (∀ g ∈ files, (outputPath j.out g.name).isOk = true) ∨
          ∃ g, files.head? = some g ∧ (outputPath j.out g.name).isOk = false) := by
  rw [outcome_of_ok h]
  simp only [isOk_outputPath]
  refine ⟨storedInside j.out files, ⟨error_of_rejected, fun ⟨failure, hfails⟩ ↦ ?_⟩,
    allOrNothing_iff⟩
  by_contra hnone
  simp only [not_exists, not_and, Bool.not_eq_false] at hnone
  rw [stored_of_accepted hnone] at hfails
  cases hfails

def plainJob : Job where
  descriptorSet := "set.binpb"
  out := "out"
  parameter := some "mode=server,content_types=json"

theorem exists_generate_plainJob [Compressor] {files : List Schema.File} {bytes : List UInt8}
    (hdecode : filesOf? bytes = some files)
    (hmade : ∃ made, (Config.bareConfig.generate (Config.plainRequest files)).result = .ok made) :
    ∃ l' made, generate (configs (fun _ ↦ .ok bytes) plainJob.parameter) {} plainJob (.ok bytes) =
      (l', .ok made) ∧ (Config.bareConfig.generate (Config.plainRequest files)).result =
        .ok made := by
  obtain ⟨made, hmade⟩ := hmade
  have hconfig : (plainJob.request files).config (configs (fun _ ↦ .ok bytes) plainJob.parameter) =
      .ok Config.bareConfig := rfl
  have hrun : (Config.bareConfig.generate (plainJob.request files)).result = .ok made := hmade
  have hok : (generate (configs (fun _ ↦ .ok bytes) plainJob.parameter) {} plainJob
      (.ok bytes)).2 = .ok made := by
    simp only [generate, hdecode, Request.generateLogged, hconfig, hrun]
    rfl
  exact ⟨_, made, Prod.ext rfl hok, hmade⟩

def nestedSet : List UInt8 := [
  10, 26, 10, 16, 97, 112, 105, 47, 70, 111, 111, 66, 97, 114, 46, 112, 114, 111, 116, 111, 18, 1,
  114, 50, 3, 10, 1, 83, 10, 23, 10, 13, 102, 111, 111, 95, 98, 97, 114, 46, 112, 114, 111, 116,
  111, 18, 1, 114, 50, 3, 10, 1, 84]

theorem filesOf?_nestedSet : filesOf? nestedSet = some Config.nestedFiles := by rfl

theorem run_allOrNothing_iff_nestedSet :
    ∃ l' files, generate (configs (fun _ ↦ .ok nestedSet) plainJob.parameter) {} plainJob
        (.ok nestedSet) = (l', .ok files) ∧
      files.map (·.name) = ["api/foo_bar.proto.go", "foo_bar.proto.go"] ∧
      AllOrNothing "out" files (outcome (fun _ ↦ .ok nestedSet) {} plainJob).1
        (outcome (fun _ ↦ .ok nestedSet) {} plainJob).2 := by
  obtain ⟨l', files, hfiles, hmade⟩ :=
    exists_generate_plainJob filesOf?_nestedSet Config.exists_generate_nestedFiles
  have hnames : files.map (·.name) = ["api/foo_bar.proto.go", "foo_bar.proto.go"] := by
    rw [Config.map_name_of_generate hmade]
    decide +kernel
  have hnested : ∀ name ∈ ["api/foo_bar.proto.go", "foo_bar.proto.go"], (!escapes name) = true := by
    decide
  refine ⟨l', files, hfiles, hnames, ?_⟩
  refine (run_allOrNothing_iff hfiles).2.2.2 (.inl fun g hg ↦ ?_)
  have hname := List.mem_map_of_mem (f := (·.name)) hg
  rw [hnames] at hname
  rw [isOk_outputPath]
  exact hnested g.name hname

def strayFiles : List Schema.File :=
  [Config.plainFile "a.proto" ["S"], Config.plainFile "../b.proto" ["T"]]

def straySet : List UInt8 := [
  10, 17, 10, 7, 97, 46, 112, 114, 111, 116, 111, 18, 1, 114, 50, 3, 10, 1, 83, 10, 20, 10, 10, 46,
  46, 47, 98, 46, 112, 114, 111, 116, 111, 18, 1, 114, 50, 3, 10, 1, 84]

theorem filesOf?_straySet : filesOf? straySet = some strayFiles := by rfl

theorem exists_generate_strayFiles [Compressor] :
    ∃ made, (Config.bareConfig.generate (Config.plainRequest strayFiles)).result = .ok made := by
  have hquotable : Config.Quotable Config.bareConfig (Config.plainRequest strayFiles) := by decide
  refine Config.exists_generate_plainRequest hquotable rfl fun i (hi : i ∈ [0, 1]) ↦ ?_
  simp only [List.mem_cons, List.not_mem_nil, or_false] at hi
  rcases hi with rfl | rfl
  all_goals refine Config.ready_plainFile rfl rfl (by decide) (by decide +kernel) ?_
  all_goals exact List.forall_mem_singleton.2 ⟨by decide, rfl⟩

/-- A run that fails over a name has stored a file before. -/
theorem not_forall_allOrNothing :
    ¬∀ (read : String → Except String (List UInt8)) (l l' : Logger) (j : Job)
      (files : List GeneratedFile),
      generate (configs read j.parameter) l j (read j.descriptorSet) = (l', .ok files) →
      AllOrNothing j.out files (outcome read l j).1 (outcome read l j).2 := by
  intro hall
  obtain ⟨l', files, hfiles, hmade⟩ :=
    exists_generate_plainJob filesOf?_straySet exists_generate_strayFiles
  have hnames : files.map (·.name) = ["a.proto.go", "../b.proto.go"] := by
    rw [Config.map_name_of_generate hmade]
    decide +kernel
  have hatomic := hall (fun _ ↦ .ok straySet) {} l' plainJob files hfiles
  rw [outcome_of_ok hfiles] at hatomic
  obtain ⟨first, rest, rfl, hfirst, hrest⟩ := List.map_eq_cons_iff.1 hnames
  obtain ⟨second, further, rfl, hsecond, -⟩ := List.map_eq_cons_iff.1 hrest
  rcases allOrNothing_iff.1 hatomic with hpasses | ⟨g, hg, hrejected⟩
  · have hstray := hpasses second (List.mem_cons_of_mem first List.mem_cons_self)
    rw [accepted, hsecond] at hstray
    exact absurd hstray (by decide)
  · obtain rfl := Option.some_inj.1 hg
    rw [accepted, hfirst] at hrejected
    exact absurd hrejected (by decide)

end Offline

end RpcStubs
