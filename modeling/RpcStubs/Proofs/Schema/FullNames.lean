import Mathlib.Data.List.Nodup
import Mathlib.Data.List.Perm.Basic
import Mathlib.Tactic.Common
import RpcStubs.Schema.Registry

namespace RpcStubs.Schema

mutual

def Message.fullNames (scope : String) : Message → List String
  | ⟨name, nested⟩ => (scope ++ "." ++ name) :: Message.allFullNames (scope ++ "." ++ name) nested

def Message.allFullNames (scope : String) : List Message → List String
  | [] => []
  | m :: rest => m.fullNames scope ++ Message.allFullNames scope rest

end

namespace File

def messageNames (f : File) : List String := Message.allFullNames f.scope f.messages

def definitions (f : File) (i : Nat) : List (String × Definition) :=
  registerAll i f.scope [] [4] 0 f.messages

end File

/-- Files that names tell apart, with messages that their full names tell apart. -/
structure Distinct (files : List File) : Prop where
  names : (files.map (·.name)).Nodup
  messages : (files.flatMap File.messageNames).Nodup

theorem keys_registerAll (i : Nat) (scope : String) (lineage : List String) (path : Path)
    (position : Nat) (messages : List Message) :
    ((registerAll i scope lineage path position messages).map Prod.fst).Perm
      (Message.allFullNames scope messages) := by
  refine registerAll.induct
    (fun scope lineage path m ↦
      ((register i scope lineage path m).map Prod.fst).Perm (m.fullNames scope))
    (fun scope lineage path position messages ↦
      ((registerAll i scope lineage path position messages).map Prod.fst).Perm
        (Message.allFullNames scope messages)) ?_ ?_ ?_ scope lineage path position messages
  · intro scope lineage path name nested ih
    rw [register, Message.fullNames, List.map_append]
    exact (ih.append_right _).trans List.perm_append_comm
  · intro scope lineage path position
    rw [registerAll, Message.allFullNames]
    exact .nil
  · intro scope lineage path position m rest hm hrest
    rw [registerAll, Message.allFullNames, List.map_append]
    exact hm.append hrest

def Definition.movedTo (i : Nat) (d : Definition) : Definition := { d with fileIndex := i }

/-- The position of the file enters a definition nowhere else. -/
theorem registerAll_moved (i j : Nat) (scope : String) (lineage : List String) (path : Path)
    (position : Nat) (messages : List Message) :
    registerAll j scope lineage path position messages =
      (registerAll i scope lineage path position messages).map
        (Prod.map id (Definition.movedTo j)) := by
  refine registerAll.induct
    (fun scope lineage path m ↦ register j scope lineage path m =
      (register i scope lineage path m).map (Prod.map id (Definition.movedTo j)))
    (fun scope lineage path position messages ↦ registerAll j scope lineage path position messages =
      (registerAll i scope lineage path position messages).map
        (Prod.map id (Definition.movedTo j))) ?_ ?_ ?_ scope lineage path position messages
  · intro scope lineage path name nested ih
    rw [register, register, List.map_append, ih]
    rfl
  · intro scope lineage path position
    rw [registerAll, registerAll]
    rfl
  · intro scope lineage path position m rest hm hrest
    rw [registerAll, registerAll, List.map_append, hm, hrest]

variable {files : List File} {f : File} {name : String} {d : Definition}

theorem File.fileIndex_of_mem_definitions {i : Nat} (h : (name, d) ∈ f.definitions i) :
    d.fileIndex = i := by
  rw [definitions, registerAll_moved i i] at h
  obtain ⟨p, -, hp⟩ := List.mem_map.1 h
  exact congrArg (Definition.fileIndex ∘ Prod.snd) hp.symm

theorem File.movedTo_mem_definitions {i : Nat} (h : (name, d) ∈ f.definitions i) (j : Nat) :
    (name, d.movedTo j) ∈ f.definitions j := by
  rw [definitions, registerAll_moved i j]
  exact List.mem_map_of_mem h

namespace Registry

theorem keys_ofFiles (files : List File) :
    ((ofFiles files).definitions.map Prod.fst).Perm (files.flatMap File.messageNames) := by
  have hkeys : (ofFiles files).definitions.map Prod.fst =
      files.zipIdx.flatMap fun p ↦ (p.1.definitions p.2).map Prod.fst := List.map_flatMap
  have hnames : files.flatMap File.messageNames =
      files.zipIdx.flatMap fun p ↦ p.1.messageNames := by
    conv_lhs => rw [← List.zipIdx_map_fst 0 files, List.flatMap_map]
  rw [hkeys, hnames]
  exact List.Perm.flatMap_left _ fun p _ ↦ keys_registerAll ..

theorem mem_ofFiles_iff :
    (name, d) ∈ (ofFiles files).definitions ↔
      ∃ f, files[d.fileIndex]? = some f ∧ (name, d) ∈ f.definitions d.fileIndex := by
  rw [ofFiles, List.mem_flatMap]
  constructor
  · rintro ⟨⟨f, i⟩, hf, hd⟩
    obtain rfl := File.fileIndex_of_mem_definitions hd
    exact ⟨f, List.mk_mem_zipIdx_iff_getElem?.1 hf, hd⟩
  · rintro ⟨f, hf, hd⟩
    exact ⟨(f, d.fileIndex), List.mk_mem_zipIdx_iff_getElem?.2 hf, hd⟩

/-- Which of two definitions under one name counts does not matter where there is only one. -/
theorem lookup_reverse_eq_some_iff {β : Type} {l : List (String × β)} {b : β}
    (h : (l.map Prod.fst).Nodup) : l.reverse.lookup name = some b ↔ (name, b) ∈ l := by
  have hmem {b : β} (hb : l.reverse.lookup name = some b) : (name, b) ∈ l := by
    obtain ⟨before, after, hl, -⟩ := List.lookup_eq_some_iff.1 hb
    rw [← List.mem_reverse, hl]
    simp
  refine ⟨hmem, fun hb ↦ ?_⟩
  cases hlookup : l.reverse.lookup name with
  | none =>
    have := List.lookup_eq_none_iff.1 hlookup _ (List.mem_reverse.2 hb)
    simp at this
  | some b' =>
    have heq := List.inj_on_of_nodup_map h (hmem hlookup) hb rfl
    rw [(Prod.mk.inj heq).2]

theorem message_ofFiles_eq_ok_iff (h : Distinct files) :
    (ofFiles files).message name = .ok d ↔
      ∃ f, files[d.fileIndex]? = some f ∧ (name, d) ∈ f.definitions d.fileIndex := by
  have hkeys := (keys_ofFiles files).nodup_iff.2 h.messages
  rw [← mem_ofFiles_iff, ← lookup_reverse_eq_some_iff hkeys, message]
  split
  · next d' hd' => simp [hd']
  · next hnone => simp [hnone]

theorem message_eq_error {r : Registry} {failure : Failure} (h : r.message name = .error failure) :
    failure = .unknownMessage name := by
  rw [message] at h
  split at h
  · cases h
  · cases h
    rfl

end Registry

end RpcStubs.Schema
