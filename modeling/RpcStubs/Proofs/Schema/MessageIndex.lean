import Mathlib.Data.Prod.Lex
import Mathlib.Data.Set.Card
import RpcStubs.Proofs.Schema.FullNames

namespace RpcStubs

theorem OrderedSet.size_eq_ncard {α : Type} [Ord α] [Std.TransOrd α] (s : OrderedSet α) :
    s.size = {a | a ∈ s}.ncard := by
  classical
  have hset : {a | a ∈ s} = (s.items.toFinset : Set α) := by
    ext a
    simp [mem_def]
  rw [hset, Set.ncard_coe_finset, List.toFinset_card_of_nodup s.nodup_items, size]

namespace Schema

/-- The path leads from a message inwards and passes the messages of the trail, itself first. Each
step is the field of nested messages and a position. -/
inductive Message.Leads : Message → Path → List Message → Prop
  | here (m : Message) : Leads m [] [m]
  | nested {m inner : Message} {j : Nat} {path : Path} {trail : List Message} :
      m.nested[j]? = some inner → Leads inner path trail → Leads m (3 :: j :: path) (m :: trail)

inductive File.Leads (f : File) : Path → List Message → Prop
  | top {m : Message} {i : Nat} {path : Path} {trail : List Message} :
      f.messages[i]? = some m → m.Leads path trail → File.Leads f (4 :: i :: path) trail

def File.fullName (f : File) (names : List String) : String :=
  (if f.package.isEmpty then "." else "." ++ f.package ++ ".") ++ ".".intercalate names

def NamedAt (files : List File) (name : String) (i : Nat) (path : Path) : Prop :=
  ∃ f trail, files[i]? = some f ∧ f.Leads path trail ∧ f.fullName (trail.map (·.name)) = name

def fullNames (files : List File) : Set String := {name | ∃ i path, NamedAt files name i path}

/-- No more messages than positions of 32 bits can count, at the top and in every message. -/
structure File.Narrow (f : File) : Prop where
  messages : f.messages.length < 2 ^ 31
  nested : ∀ path trail, f.Leads path trail → ∀ m ∈ trail, m.nested.length < 2 ^ 31

/-- What is nested in a message comes before it, and otherwise the first position that differs
decides. -/
inductive Path.Before : Path → Path → Prop
  | inside (n : Int) (p : Path) : Path.Before (n :: p) []
  | position {i j : Int} (p q : Path) : i < j → Path.Before (i :: p) (j :: q)
  | deeper (n : Int) {p q : Path} : Path.Before p q → Path.Before (n :: p) (n :: q)

abbrev Earlier : Nat × Path → Nat × Path → Prop := Prod.Lex (· < ·) Path.Before

def Definition.place (d : Definition) : Nat × Path := (d.fileIndex, d.path)

theorem Path.Before.append_left {p q : Path} (h : Path.Before p q) (path : Path) :
    Path.Before (path ++ p) (path ++ q) := by
  induction path with
  | nil => exact h
  | cons n path ih => exact .deeper n ih

theorem Message.Leads.exists_cons {m : Message} {path : Path} {trail : List Message}
    (h : m.Leads path trail) : ∃ inner, trail = m :: inner := by
  cases h with
  | here => exact ⟨_, rfl⟩
  | nested => exact ⟨_, rfl⟩

theorem Message.Leads.mem_bounds {m : Message} {path : Path} {trail : List Message}
    (h : m.Leads path trail) (hnarrow : ∀ m ∈ trail, m.nested.length < 2 ^ 31) :
    ∀ n ∈ path, 0 ≤ n ∧ n < 2 ^ 31 := by
  induction h with
  | here => simp
  | @nested m inner j path trail hj _ ih =>
    have hlength : m.nested.length < 2 ^ 31 := hnarrow m List.mem_cons_self
    have hposition : j < m.nested.length := (List.getElem?_eq_some_iff.1 hj).1
    have hpath := ih fun m hm ↦ hnarrow m (List.mem_cons_of_mem _ hm)
    intro n hn
    rcases List.mem_cons.1 hn with rfl | hn
    · decide
    rcases List.mem_cons.1 hn with rfl | hn
    · omega
    · exact hpath n hn

/-- Every number of a path in a narrow file fits into 32 bits. -/
theorem File.Leads.mem_bounds {f : File} {path : Path} {trail : List Message}
    (h : f.Leads path trail) (hnarrow : f.Narrow) : ∀ n ∈ path, 0 ≤ n ∧ n < 2 ^ 31 := by
  have hnested := hnarrow.nested path trail h
  cases h with
  | @top m i path trail hi hm =>
    have hlength := hnarrow.messages
    have hposition : i < f.messages.length := (List.getElem?_eq_some_iff.1 hi).1
    intro n hn
    rcases List.mem_cons.1 hn with rfl | hn
    · decide
    rcases List.mem_cons.1 hn with rfl | hn
    · omega
    · exact hm.mem_bounds hnested n hn

/-- What is registered for the last message of a trail, when the trail starts inside a scope. -/
structure Entry (i : Nat) (scope : String) (lineage : List String) (path : Path)
    (trail : List Message) (entry : String × Definition) : Prop where
  name : entry.1 = scope ++ "." ++ ".".intercalate (trail.map (·.name))
  place : entry.2.place = (i, path)
  names : entry.2.lineage ++ [entry.2.name] = lineage ++ trail.map (·.name)

section Entries

variable {i : Nat} {scope : String} {lineage : List String} {path : Path} {m : Message}
  {entry : String × Definition}

theorem entry_singleton_iff :
    Entry i scope lineage path [m] entry ↔
      entry = (scope ++ "." ++ m.name, ⟨i, m.name, lineage, path⟩) := by
  obtain ⟨name, fileIndex, last, around, place⟩ := entry
  constructor
  · rintro ⟨hname, hplace, hnames⟩
    obtain ⟨rfl, rfl⟩ := Prod.mk.inj hplace
    obtain ⟨rfl, hlast⟩ := List.append_inj' hnames rfl
    obtain rfl := List.singleton_inj.1 hlast
    exact congrArg₂ Prod.mk hname rfl
  · rintro h
    cases h
    exact ⟨rfl, rfl, rfl⟩

/-- The messages around a trail can be counted to the scope or to the trail. -/
theorem entry_cons_iff {trail : List Message} (h : trail ≠ []) :
    Entry i scope lineage path (m :: trail) entry ↔
      Entry i (scope ++ "." ++ m.name) (lineage ++ [m.name]) path trail entry := by
  have hne : trail.map (·.name) ≠ [] := by simpa using h
  have hname : scope ++ "." ++ ".".intercalate ((m :: trail).map (·.name)) =
      scope ++ "." ++ m.name ++ "." ++ ".".intercalate (trail.map (·.name)) := by
    rw [List.map_cons, String.intercalate_cons_of_ne_nil hne]
    simp only [String.append_assoc]
  have hnames : lineage ++ (m :: trail).map (·.name) =
      lineage ++ [m.name] ++ trail.map (·.name) := by simp
  constructor
  · rintro ⟨h₁, h₂, h₃⟩
    exact ⟨hname ▸ h₁, h₂, hnames ▸ h₃⟩
  · rintro ⟨h₁, h₂, h₃⟩
    exact ⟨hname ▸ h₁, h₂, hnames ▸ h₃⟩

def EntryIn (i : Nat) (scope : String) (lineage : List String) (path : Path) (m : Message)
    (entry : String × Definition) : Prop :=
  ∃ rest trail, m.Leads rest trail ∧ Entry i scope lineage (path ++ rest) trail entry

def EntryFrom (i : Nat) (scope : String) (lineage : List String) (path : Path) (position : Nat)
    (messages : List Message) (entry : String × Definition) : Prop :=
  ∃ (k : Nat) (m : Message) (rest : Path) (trail : List Message), messages[k]? = some m ∧
    m.Leads rest trail ∧ Entry i scope lineage (path ++ ↑(position + k) :: rest) trail entry

theorem entryIn_iff {name : String} {nested : List Message} :
    EntryIn i scope lineage path ⟨name, nested⟩ entry ↔
      EntryFrom i (scope ++ "." ++ name) (lineage ++ [name]) (path ++ [3]) 0 nested entry ∨
        entry = (scope ++ "." ++ name, ⟨i, name, lineage, path⟩) := by
  constructor
  · rintro ⟨rest, trail, hm, he⟩
    cases hm with
    | here => exact .inr (by simpa using entry_singleton_iff.1 he)
    | @nested _ m j rest trail hj hm =>
      obtain ⟨inner, rfl⟩ := hm.exists_cons
      refine .inl ⟨j, m, rest, _, hj, hm, ?_⟩
      simpa using (entry_cons_iff (by simp)).1 he
  · rintro (⟨j, m, rest, trail, hj, hm, he⟩ | he)
    · obtain ⟨inner, rfl⟩ := hm.exists_cons
      refine ⟨3 :: j :: rest, _, .nested hj hm, (entry_cons_iff (by simp)).2 ?_⟩
      simpa using he
    · exact ⟨[], _, .here _, entry_singleton_iff.2 (by simpa using he)⟩

theorem not_entryFrom_nil {position : Nat} :
    ¬EntryFrom i scope lineage path position [] entry := by
  rintro ⟨k, m, rest, trail, hk, -, -⟩
  cases hk

theorem entryFrom_cons_iff {position : Nat} {messages : List Message} :
    EntryFrom i scope lineage path position (m :: messages) entry ↔
      EntryIn i scope lineage (path ++ [(position : Int)]) m entry ∨
        EntryFrom i scope lineage path (position + 1) messages entry := by
  have hposition (k : Nat) : position + (k + 1) = position + 1 + k := by omega
  constructor
  · rintro ⟨k, m', rest, trail, hk, hlead, he⟩
    cases k with
    | zero =>
      obtain rfl := Option.some_inj.1 hk
      exact .inl ⟨rest, trail, hlead, by simpa using he⟩
    | succ k => exact .inr ⟨k, m', rest, trail, hk, hlead, hposition k ▸ he⟩
  · rintro (⟨rest, trail, hlead, he⟩ | ⟨k, m', rest, trail, hk, hlead, he⟩)
    · exact ⟨0, m, rest, trail, rfl, hlead, by simpa using he⟩
    · exact ⟨k + 1, m', rest, trail, hk, hlead, hposition k ▸ he⟩

theorem EntryFrom.exists_path {position : Nat} {messages : List Message}
    (h : EntryFrom i scope lineage path position messages entry) :
    ∃ (k : Nat) (rest : Path), entry.2.path = path ++ ↑(position + k) :: rest := by
  obtain ⟨k, m, rest, trail, -, -, he⟩ := h
  exact ⟨k, rest, congrArg Prod.snd he.place⟩

theorem EntryIn.exists_path (h : EntryIn i scope lineage path m entry) :
    ∃ rest, entry.2.path = path ++ rest := by
  obtain ⟨rest, trail, -, he⟩ := h
  exact ⟨rest, congrArg Prod.snd he.place⟩

end Entries

/-- What is registered are the messages to which paths lead. -/
theorem mem_register_iff (i : Nat) (entry : String × Definition) :
    (∀ scope lineage path m,
        entry ∈ register i scope lineage path m ↔ EntryIn i scope lineage path m entry) ∧
      ∀ scope lineage path position messages,
        entry ∈ registerAll i scope lineage path position messages ↔
          EntryFrom i scope lineage path position messages entry := by
  refine register.mutual_induct
    (fun scope lineage path m ↦
      entry ∈ register i scope lineage path m ↔ EntryIn i scope lineage path m entry)
    (fun scope lineage path position messages ↦
      entry ∈ registerAll i scope lineage path position messages ↔
        EntryFrom i scope lineage path position messages entry) ?_ ?_ ?_
  · intro scope lineage path name nested ih
    rw [register, List.mem_append, ih, List.mem_singleton, entryIn_iff]
  · intro scope lineage path position
    rw [registerAll, List.mem_nil_iff, false_iff]
    exact not_entryFrom_nil
  · intro scope lineage path position m messages hm hmessages
    rw [registerAll, List.mem_append, hm, hmessages, entryFrom_cons_iff]

theorem pairwise_registerAll (i : Nat) (scope : String) (lineage : List String) (path : Path)
    (position : Nat) (messages : List Message) :
    (registerAll i scope lineage path position messages).Pairwise
      fun a b ↦ Path.Before a.2.path b.2.path := by
  refine registerAll.induct
    (fun scope lineage path m ↦ (register i scope lineage path m).Pairwise
      fun a b ↦ Path.Before a.2.path b.2.path)
    (fun scope lineage path position messages ↦
      (registerAll i scope lineage path position messages).Pairwise
        fun a b ↦ Path.Before a.2.path b.2.path) ?_ ?_ ?_ scope lineage path position messages
  · intro scope lineage path name nested ih
    rw [register]
    refine List.pairwise_append.2 ⟨ih, List.pairwise_singleton _ _, fun a ha b hb ↦ ?_⟩
    obtain ⟨k, rest, hpath⟩ := (((mem_register_iff i a).2 ..).1 ha).exists_path
    obtain rfl := List.mem_singleton.1 hb
    rw [hpath, List.append_assoc]
    simpa using (Path.Before.inside 3 (↑(0 + k) :: rest)).append_left path
  · intro scope lineage path position
    rw [registerAll]
    exact .nil
  · intro scope lineage path position m messages hm hmessages
    rw [registerAll]
    refine List.pairwise_append.2 ⟨hm, hmessages, fun a ha b hb ↦ ?_⟩
    -- The positions of the messages that follow are greater.
    obtain ⟨rest, ha⟩ := (((mem_register_iff i a).1 ..).1 ha).exists_path
    obtain ⟨k, rest', hb⟩ := (((mem_register_iff i b).2 ..).1 hb).exists_path
    rw [ha, hb, List.append_assoc]
    exact (Path.Before.position rest rest' (by omega)).append_left path

theorem File.scope_append (f : File) (names : List String) :
    f.scope ++ "." ++ ".".intercalate names = f.fullName names := by
  unfold File.scope File.fullName
  split_ifs
  · rw [String.empty_append]
  · rfl

theorem File.mem_definitions_iff {f : File} {i : Nat} {entry : String × Definition} :
    entry ∈ f.definitions i ↔
      ∃ path trail, f.Leads path trail ∧ Entry i f.scope [] path trail entry := by
  rw [definitions, (mem_register_iff i entry).2]
  constructor
  · rintro ⟨k, m, rest, trail, hk, hm, he⟩
    refine ⟨4 :: k :: rest, trail, .top hk hm, ?_⟩
    rwa [Nat.zero_add] at he
  · rintro ⟨path, trail, hlead, he⟩
    cases hlead with
    | @top m k rest trail hk hm =>
      refine ⟨k, m, rest, trail, hk, hm, ?_⟩
      rwa [Nat.zero_add]

namespace Registry

variable {files : List File} {name : String} {d : Definition}

/-- What is registered under a name are the messages that have it. -/
theorem mem_ofFiles_iff_leads :
    (name, d) ∈ (ofFiles files).definitions ↔
      ∃ f trail, files[d.fileIndex]? = some f ∧ f.Leads d.path trail ∧
        f.fullName (trail.map (·.name)) = name ∧
        d.lineage ++ [d.name] = trail.map (·.name) := by
  rw [mem_ofFiles_iff]
  constructor
  · rintro ⟨f, hf, hd⟩
    obtain ⟨path, trail, hlead, he⟩ := File.mem_definitions_iff.1 hd
    obtain rfl : d.path = path := congrArg Prod.snd he.place
    exact ⟨f, trail, hf, hlead, (f.scope_append _).symm.trans he.name.symm, he.names⟩
  · rintro ⟨f, trail, hf, hlead, hname, hnames⟩
    refine ⟨f, hf, File.mem_definitions_iff.2 ⟨d.path, trail, hlead, ?_, rfl, hnames⟩⟩
    exact hname.symm.trans (f.scope_append _).symm

theorem exists_mem_ofFiles_iff {i : Nat} {path : Path} :
    (∃ d, d.place = (i, path) ∧ (name, d) ∈ (ofFiles files).definitions) ↔
      NamedAt files name i path := by
  constructor
  · rintro ⟨d, hplace, hd⟩
    obtain ⟨rfl, rfl⟩ := Prod.mk.inj hplace
    obtain ⟨f, trail, hf, hlead, hname, -⟩ := mem_ofFiles_iff_leads.1 hd
    exact ⟨f, trail, hf, hlead, hname⟩
  · rintro ⟨f, trail, hf, hlead, hname⟩
    have hne : trail.map (·.name) ≠ [] := by
      cases hlead with
      | top _ hm =>
        obtain ⟨inner, rfl⟩ := hm.exists_cons
        simp
    refine ⟨⟨i, (trail.map (·.name)).getLast hne, (trail.map (·.name)).dropLast, path⟩, rfl, ?_⟩
    exact mem_ofFiles_iff_leads.2
      ⟨f, trail, hf, hlead, hname, List.dropLast_append_getLast hne⟩

theorem pairwise_snd_zipIdx {α : Type} (l : List α) :
    l.zipIdx.Pairwise fun a b ↦ a.2 < b.2 := by
  have h : (l.zipIdx.map Prod.snd).Pairwise (· < ·) := by
    rw [List.zipIdx_map_snd]
    exact List.pairwise_lt_range' 1
  exact List.pairwise_map.1 h

/-- Definitions are registered in the order of their places. -/
theorem pairwise_ofFiles (files : List File) :
    (ofFiles files).definitions.Pairwise fun a b ↦ Earlier a.2.place b.2.place := by
  refine List.pairwise_flatMap.2 ⟨fun p _ ↦ ?_, (pairwise_snd_zipIdx files).imp ?_⟩
  · refine (pairwise_registerAll ..).imp_of_mem fun ha hb hab ↦ ?_
    have hindex : _ = _ := (File.fileIndex_of_mem_definitions (f := p.1) ha).trans
      (File.fileIndex_of_mem_definitions (f := p.1) hb).symm
    exact Prod.lex_def.2 (.inr ⟨hindex, hab⟩)
  · intro p q hpq a ha b hb
    have hleft : a.2.fileIndex = p.2 := File.fileIndex_of_mem_definitions (f := p.1) ha
    have hright : b.2.fileIndex = q.2 := File.fileIndex_of_mem_definitions (f := q.1) hb
    refine Prod.lex_def.2 (.inl ?_)
    change a.2.fileIndex < b.2.fileIndex
    rwa [hleft, hright]

theorem exists_message_eq_ok_iff {r : Registry} :
    (∃ d, r.message name = .ok d) ↔ ∃ d, (name, d) ∈ r.definitions := by
  rw [message]
  constructor
  · rintro ⟨d, hd⟩
    split at hd
    · next d' hlookup =>
      obtain ⟨before, after, hsplit, -⟩ := List.lookup_eq_some_iff.1 hlookup
      exact ⟨d', List.mem_reverse.1 (by simp [hsplit])⟩
    · cases hd
  · rintro ⟨d, hd⟩
    split
    · next d' _ => exact ⟨d', rfl⟩
    · next hnone =>
      have := List.lookup_eq_none_iff.1 hnone _ (List.mem_reverse.2 hd)
      simp at this

/-- The definition that is found is registered, and under its name nothing is registered later. -/
theorem last_of_message_eq_ok (h : (ofFiles files).message name = .ok d) :
    (name, d) ∈ (ofFiles files).definitions ∧
      ∀ e, (name, e) ∈ (ofFiles files).definitions → e = d ∨ Earlier e.place d.place := by
  rw [message] at h
  split at h
  · next d' hlookup =>
    cases h
    obtain ⟨later, earlier, hsplit, hother⟩ := List.lookup_eq_some_iff.1 hlookup
    have hdefinitions : (ofFiles files).definitions =
        earlier.reverse ++ (name, d) :: later.reverse := by
      rw [← List.reverse_reverse (ofFiles files).definitions, hsplit]
      simp
    have hordered := pairwise_ofFiles files
    rw [hdefinitions, List.pairwise_append] at hordered
    refine ⟨by simp [hdefinitions], fun e he ↦ ?_⟩
    rw [hdefinitions, List.mem_append, List.mem_cons, List.mem_reverse, List.mem_reverse] at he
    rcases he with he | he | he
    · exact .inr (hordered.2.2 _ (List.mem_reverse.2 he) _ List.mem_cons_self)
    · exact .inl (Prod.mk.inj he).2
    · have hne := hother _ he
      simp at hne
  · cases h

theorem mem_fullNames_iff :
    name ∈ fullNames files ↔ ∃ d, (name, d) ∈ (ofFiles files).definitions := by
  constructor
  · rintro ⟨i, path, h⟩
    obtain ⟨d, -, hd⟩ := exists_mem_ofFiles_iff.2 h
    exact ⟨d, hd⟩
  · rintro ⟨d, hd⟩
    exact ⟨_, _, exists_mem_ofFiles_iff.1 ⟨d, rfl, hd⟩⟩

theorem messageCount_ofFiles (files : List File) :
    (ofFiles files).messageCount = (fullNames files).ncard := by
  have hmem (name : String) : name ∈ fullNames files ↔
      name ∈ OrderedSet.ofList ((ofFiles files).definitions.map Prod.fst) := by
    rw [mem_fullNames_iff, OrderedSet.mem_ofList, List.mem_map]
    simp
  rw [messageCount, OrderedSet.size_eq_ncard]
  exact congrArg Set.ncard (Set.ext fun name ↦ (hmem name).symm)

/-- A registry finds a message exactly by its fully qualified name. The path of the definition leads
to the message, past those that its lineage and its Go name list; of several messages with one name
it is the one registered last. Names that are shared count once. -/
theorem message_ofFiles_leads (h : ∀ f ∈ files, f.Narrow) (name : String) :
    ((∃ d, (ofFiles files).message name = .ok d) ↔ name ∈ fullNames files) ∧
      (∀ d, (ofFiles files).message name = .ok d →
        (∃ f trail, files[d.fileIndex]? = some f ∧ f.Leads d.path trail ∧
          f.fullName (trail.map (·.name)) = name ∧
          d.lineage ++ [d.name] = trail.map (·.name) ∧
          d.goName = "_".intercalate (trail.map (·.name))) ∧
        (∀ n ∈ d.path, 0 ≤ n ∧ n < 2 ^ 31) ∧
        ∀ i path, NamedAt files name i path →
          (i, path) = d.place ∨ Earlier (i, path) d.place) ∧
      (ofFiles files).messageCount = (fullNames files).ncard := by
  refine ⟨exists_message_eq_ok_iff.trans mem_fullNames_iff.symm, fun d hd ↦ ?_,
    messageCount_ofFiles files⟩
  obtain ⟨hmem, hlast⟩ := last_of_message_eq_ok hd
  obtain ⟨f, trail, hf, hlead, hname, hnames⟩ := mem_ofFiles_iff_leads.1 hmem
  refine ⟨⟨f, trail, hf, hlead, hname, hnames, ?_⟩, ?_, fun i path hplace ↦ ?_⟩
  · rw [Definition.goName, hnames]
  · exact hlead.mem_bounds (h f (List.mem_of_getElem? hf))
  · obtain ⟨e, he, hmem⟩ := exists_mem_ofFiles_iff.2 hplace
    rw [← he]
    exact (hlast e hmem).imp_left (congrArg Definition.place)

def sameNames : List File := [
  { (default : File) with package := "p", messages := [⟨"Q.R", []⟩, ⟨"Q", [⟨"R", []⟩]⟩] },
  { (default : File) with package := "p.Q", messages := [⟨"R", []⟩] }]

theorem narrow_sameNames : ∀ f ∈ sameNames, f.Narrow := by
  have hleaf {name : String} {path : Path} {trail : List Message}
      (h : Message.Leads ⟨name, []⟩ path trail) : ∀ m ∈ trail, m.nested.length < 2 ^ 31 := by
    cases h with
    | here => simp
    | nested hj => cases hj
  have houter {path : Path} {trail : List Message}
      (h : Message.Leads ⟨"Q", [⟨"R", []⟩]⟩ path trail) :
      ∀ m ∈ trail, m.nested.length < 2 ^ 31 := by
    cases h with
    | here => simp
    | nested hj hinner =>
      obtain rfl := List.mem_singleton.1 (List.mem_of_getElem? hj)
      simpa using hleaf hinner
  intro f hf
  refine ⟨?_, fun path trail h ↦ ?_⟩
  · rcases List.mem_pair.1 hf with rfl | rfl <;> decide
  · obtain ⟨hi, hlead⟩ := h
    have hm := List.mem_of_getElem? hi
    rcases List.mem_pair.1 hf with rfl | rfl
    · rcases List.mem_pair.1 hm with rfl | rfl
      · exact hleaf hlead
      · exact houter hlead
    · obtain rfl := List.mem_singleton.1 hm
      exact hleaf hlead

theorem message_ofFiles_leads_sameNames :
    (∀ f ∈ sameNames, f.Narrow) ∧
      (ofFiles sameNames).message ".p.Q.R" = .ok ⟨1, "R", [], [4, 0]⟩ ∧
      (∀ i path, NamedAt sameNames ".p.Q.R" i path →
        (i, path) = (1, [4, 0]) ∨ Earlier (i, path) (1, [4, 0])) ∧
      NamedAt sameNames ".p.Q.R" 0 [4, 1, 3, 0] ∧ (fullNames sameNames).ncard = 2 := by
  obtain ⟨-, hfound, hcount⟩ := message_ofFiles_leads narrow_sameNames ".p.Q.R"
  have hmessage : (ofFiles sameNames).message ".p.Q.R" = .ok ⟨1, "R", [], [4, 0]⟩ := by
    decide +kernel
  have hinner : NamedAt sameNames ".p.Q.R" 0 [4, 1, 3, 0] :=
    ⟨_, _, rfl, .top (i := 1) rfl (.nested (j := 0) rfl (.here _)), by decide +kernel⟩
  exact ⟨narrow_sameNames, hmessage, (hfound _ hmessage).2.2, hinner,
    hcount.symm.trans (by decide +kernel)⟩

end Registry

end Schema

end RpcStubs
