import Mathlib.Data.List.Nodup
import RpcStubs.Proofs.Code.Inversion
import RpcStubs.Proofs.Code.Success
import RpcStubs.Proofs.Stub.Drafts

namespace RpcStubs.Stub.Config

variable {α : Type} {b c c' : Config} {es : List Entry}

def entryTexts (parameter : String) : List (List Char) :=
  ((Text.pieces ',' parameter.toList).map Text.trim).filter (!·.isEmpty)

def keyValue? (text : List Char) : Option Entry :=
  (Text.cutFirst '=' text).map fun (key, value) ↦ (trimmed key, trimmed value)

def readEntries (parameter : String) : List Entry := (entryTexts parameter).filterMap keyValue?

/-- The entries are read if all texts are entries. -/
theorem entries_eq_ok_iff {parameter : String} : entries parameter = .ok es ↔
    (∀ text ∈ entryTexts parameter, (keyValue? text).isSome) ∧ readEntries parameter = es := by
  unfold entries readEntries
  rw [← entryTexts]
  generalize entryTexts parameter = texts
  induction texts generalizing es with
  | nil =>
    constructor
    · intro h
      cases h
      simp
    · rintro ⟨-, rfl⟩
      rfl
  | cons text texts ih =>
    rw [List.mapM_cons, List.forall_mem_cons]
    cases hcut : Text.cutFirst '=' text with
    | none =>
      constructor
      · intro h
        cases h
      · rintro ⟨⟨h, -⟩, -⟩
        simp [keyValue?, hcut] at h
    | some parts =>
      have hentry : keyValue? text = some (trimmed parts.1, trimmed parts.2) := by
        simp [keyValue?, hcut]
      rw [hentry, List.filterMap_cons_some hentry]
      constructor
      · intro h
        obtain ⟨e, he, h⟩ := bind_eq_ok h
        obtain ⟨rest, hrest, h⟩ := bind_eq_ok h
        cases he
        cases h
        obtain ⟨hall, rfl⟩ := ih.1 hrest
        exact ⟨⟨rfl, hall⟩, rfl⟩
      · rintro ⟨⟨-, hall⟩, rfl⟩
        exact congrArg (· >>= fun rest ↦ pure ((trimmed parts.1, trimmed parts.2) :: rest))
          (ih.2 ⟨hall, rfl⟩)

theorem perm_readEntries {p q : String}
    (h : ((entryTexts p).map keyValue?).Perm ((entryTexts q).map keyValue?)) :
    (readEntries p).Perm (readEntries q) := by
  have hread (texts : List (List Char)) :
      texts.filterMap keyValue? = (texts.map keyValue?).filterMap id := by simp [List.filterMap_map]
  rw [readEntries, readEntries, hread, hread]
  exact h.filterMap id

theorem readValue_eq_ok_iff {read : Option α} {set : α → Config} {failure : Failure} :
    (match read with
      | some a => .ok (set a)
      | none => .error failure) = (.ok c : Build Config) ↔ ∃ a, read = some a ∧ c = set a := by
  cases read <;> simp [eq_comm]

/-- An entry changes the setting of its key, if its value can be read; other keys are unknown. -/
theorem apply_eq_ok_iff {key value : String} : apply c (key, value) = .ok c' ↔
    key = "config" ∧ c' = c ∨
    key = "mode" ∧ (∃ mode, Mode.ofWord? value = some mode ∧ c' = { c with mode }) ∨
    key = "framework" ∧ c' = { c with framework := value } ∨
    key = "path_prefix" ∧ c' = { c with pathPrefix := value } ∨
    key = "log_level" ∧ (∃ logLevel, levelWord? value = some logLevel ∧ c' = { c with logLevel }) ∨
    key = "paths" ∧ (∃ paths, PathsMode.ofWord? value = some paths ∧ c' = { c with paths }) ∨
    key = "content_types" ∧
      (∃ contentTypes, contentTypesOf? value = some contentTypes ∧
        c' = { c with contentTypes }) := by
  simp only [apply]
  split
  case h_1 | h_3 | h_4 => simp [eq_comm]
  case h_8 => simp_all
  all_goals
    simp only [String.reduceEq, false_and, true_and, false_or, or_false]
    exact readValue_eq_ok_iff

def Accepted (e : Entry) : Prop := ∃ c c', apply c e = .ok c'

/-- The configuration plays no part in whether an entry is accepted. -/
theorem Accepted.isOk_apply {e : Entry} (h : Accepted e) (c : Config) :
    (apply c e).isOk = true := by
  obtain ⟨key, value⟩ := e
  obtain ⟨d, d', h⟩ := h
  suffices hany : ∃ c', apply c (key, value) = .ok c' by
    obtain ⟨c', hc'⟩ := hany
    rw [hc']
    rfl
  simp only [apply_eq_ok_iff] at h ⊢
  rcases h with ⟨hk, -⟩ | ⟨hk, a, ha, -⟩ | ⟨hk, -⟩ | ⟨hk, -⟩ | ⟨hk, a, ha, -⟩ | ⟨hk, a, ha, -⟩ |
    ⟨hk, a, ha, -⟩ <;> simp [*]

theorem exists_foldlM_apply_iff : (∃ c, es.foldlM apply b = .ok c) ↔ ∀ e ∈ es, Accepted e := by
  constructor
  · rintro ⟨c, h⟩
    induction es generalizing b with
    | nil => simp
    | cons e es ih =>
      obtain ⟨b', hb', hrest⟩ := foldlM_cons_eq_ok h
      exact List.forall_mem_cons.2 ⟨⟨b, b', hb'⟩, ih hrest⟩
  · intro h
    exact exists_of_isOk (isOk_foldlM (fun e he c ↦ (h e he).isOk_apply c) b)

/-- An entry with the key gives its value, and any other one leaves the value that there was. -/
def Sets (key : String) (read : String → Option α) (get : Config → α) (e : Entry)
    (c c' : Config) : Prop :=
  e.1 = key ∧ read e.2 = some (get c') ∨ e.1 ≠ key ∧ get c' = get c

structure SetsParts (e : Entry) (c c' : Config) : Prop where
  mode : Sets "mode" Mode.ofWord? Config.mode e c c'
  framework : Sets "framework" some Config.framework e c c'
  pathPrefix : Sets "path_prefix" some Config.pathPrefix e c c'
  logLevel : Sets "log_level" levelWord? Config.logLevel e c c'
  paths : Sets "paths" PathsMode.ofWord? Config.paths e c c'
  contentTypes : Sets "content_types" contentTypesOf? Config.contentTypes e c c'

theorem setsParts_of_apply {e : Entry} (h : apply c e = .ok c') : SetsParts e c c' := by
  obtain ⟨key, value⟩ := e
  rcases apply_eq_ok_iff.1 h with ⟨rfl, rfl⟩ | ⟨rfl, a, ha, rfl⟩ | ⟨rfl, rfl⟩ | ⟨rfl, rfl⟩ |
    ⟨rfl, a, ha, rfl⟩ | ⟨rfl, a, ha, rfl⟩ | ⟨rfl, a, ha, rfl⟩
  all_goals constructor <;> simp [Sets, *]

/-- A part of the configuration that the entries of one key set, and only they. -/
structure Setting (α : Type) where
  key : String
  read : String → Option α
  get : Config → α
  of_apply : ∀ {c c' : Config} {e : Entry}, apply c e = .ok c' → Sets key read get e c c'

namespace Setting

def mode : Setting Mode where
  key := "mode"
  read := Mode.ofWord?
  get := Config.mode
  of_apply h := (setsParts_of_apply h).mode

def framework : Setting String where
  key := "framework"
  read := some
  get := Config.framework
  of_apply h := (setsParts_of_apply h).framework

def pathPrefix : Setting String where
  key := "path_prefix"
  read := some
  get := Config.pathPrefix
  of_apply h := (setsParts_of_apply h).pathPrefix

def logLevel : Setting String where
  key := "log_level"
  read := levelWord?
  get := Config.logLevel
  of_apply h := (setsParts_of_apply h).logLevel

def paths : Setting PathsMode where
  key := "paths"
  read := PathsMode.ofWord?
  get := Config.paths
  of_apply h := (setsParts_of_apply h).paths

def contentTypes : Setting (List Wire.ContentType) where
  key := "content_types"
  read := contentTypesOf?
  get := Config.contentTypes
  of_apply h := (setsParts_of_apply h).contentTypes

/-- The last entry with the key gives the value of `c`; without one it is the value of `b`. -/
def Settled (s : Setting α) (es : List Entry) (b c : Config) : Prop :=
  (∃ before value after, es = before ++ (s.key, value) :: after ∧ (∀ e ∈ after, e.1 ≠ s.key) ∧
    s.read value = some (s.get c)) ∨
  (∀ e ∈ es, e.1 ≠ s.key) ∧ s.get c = s.get b

theorem settled_of_foldlM (s : Setting α) (h : es.foldlM apply b = .ok c) : s.Settled es b c := by
  induction es generalizing b with
  | nil =>
    cases h
    exact .inr ⟨by simp, rfl⟩
  | cons e es ih =>
    obtain ⟨b', hb', hrest⟩ := foldlM_cons_eq_ok h
    rcases ih hrest with ⟨before, value, after, rfl, hafter, hvalue⟩ | ⟨hnone, hget⟩
    · exact .inl ⟨e :: before, value, after, rfl, hafter, hvalue⟩
    rcases s.of_apply hb' with ⟨hkey, hread⟩ | ⟨hkey, hkept⟩
    · exact .inl ⟨[], e.2, es, by rw [← hkey]; rfl, hnone, by rw [hread, hget]⟩
    · exact .inr ⟨List.forall_mem_cons.2 ⟨hkey, hnone⟩, hget.trans hkept⟩

/-- With one value for each key, only the entries count and not their order. -/
theorem Settled.get_eq {s : Setting α} {es' : List Entry} (h : s.Settled es b c)
    (h' : s.Settled es' b c') (hperm : es.Perm es') (hkeys : (es.map Prod.fst).Nodup) :
    s.get c = s.get c' := by
  rcases h with ⟨before, value, after, rfl, -, hvalue⟩ | ⟨hnone, hget⟩ <;>
    rcases h' with ⟨before', value', after', rfl, -, hvalue'⟩ | ⟨hnone', hget'⟩
  · have hmem' := hperm.mem_iff.2 (List.mem_append_right before' List.mem_cons_self)
    have hmem :=
      List.mem_append_right before (List.mem_cons_self (a := (s.key, value)) (l := after))
    have heq := List.inj_on_of_nodup_map hkeys hmem hmem' rfl
    cases heq
    exact Option.some_inj.1 (hvalue.symm.trans hvalue')
  · have hmem := hperm.mem_iff.1 (List.mem_append_right before List.mem_cons_self)
    exact absurd rfl (hnone' _ hmem)
  · have hmem := hperm.mem_iff.2 (List.mem_append_right before' List.mem_cons_self)
    exact absurd rfl (hnone _ hmem)
  · exact hget.trans hget'.symm

end Setting

structure Settled (es : List Entry) (b c : Config) : Prop where
  mode : Setting.mode.Settled es b c
  framework : Setting.framework.Settled es b c
  pathPrefix : Setting.pathPrefix.Settled es b c
  logLevel : Setting.logLevel.Settled es b c
  paths : Setting.paths.Settled es b c
  contentTypes : Setting.contentTypes.Settled es b c

theorem settled_of_foldlM (h : es.foldlM apply b = .ok c) : Settled es b c where
  mode := Setting.mode.settled_of_foldlM h
  framework := Setting.framework.settled_of_foldlM h
  pathPrefix := Setting.pathPrefix.settled_of_foldlM h
  logLevel := Setting.logLevel.settled_of_foldlM h
  paths := Setting.paths.settled_of_foldlM h
  contentTypes := Setting.contentTypes.settled_of_foldlM h

theorem Settled.eq {es' : List Entry} (h : Settled es b c) (h' : Settled es' b c')
    (hperm : es.Perm es') (hkeys : (es.map Prod.fst).Nodup) : c = c' := by
  have hmode := h.mode.get_eq h'.mode hperm hkeys
  have hframework := h.framework.get_eq h'.framework hperm hkeys
  have hprefix := h.pathPrefix.get_eq h'.pathPrefix hperm hkeys
  have hlevel := h.logLevel.get_eq h'.logLevel hperm hkeys
  have hpaths := h.paths.get_eq h'.paths hperm hkeys
  have htypes := h.contentTypes.get_eq h'.contentTypes hperm hkeys
  cases c
  cases c'
  cases hmode; cases hframework; cases hprefix; cases hlevel; cases hpaths; cases htypes
  rfl

/-- What the entries are applied to: the configuration that the first `config` entry names, or the
defaults. -/
def Based (load : String → Build Config) (es : List Entry) (b : Config) : Prop :=
  (∃ before path after, es = before ++ ("config", path) :: after ∧
    (∀ e ∈ before, e.1 ≠ "config") ∧ load path = .ok b) ∨
  (∀ e ∈ es, e.1 ≠ "config") ∧ b = {}

theorem based_of_base {load : String → Build Config} (h : base load es = .ok b) :
    Based load es b := by
  unfold base at h
  split at h
  · next path hpath =>
    obtain ⟨before, after, rfl, hbefore⟩ := List.lookup_eq_some_iff.1 hpath
    refine .inl ⟨before, path, after, rfl, fun e he ↦ ?_, h⟩
    exact Ne.symm (bne_iff_ne.1 (hbefore e he))
  · next hnone =>
    cases h
    exact .inr ⟨fun e he ↦ Ne.symm (bne_iff_ne.1 (List.lookup_eq_none_iff.1 hnone e he)), rfl⟩

theorem lookup_eq_some_iff_mem (hkeys : (es.map Prod.fst).Nodup) {key value : String} :
    es.lookup key = some value ↔ (key, value) ∈ es := by
  have hmem {value : String} (h : es.lookup key = some value) : (key, value) ∈ es := by
    obtain ⟨before, after, rfl, -⟩ := List.lookup_eq_some_iff.1 h
    simp
  refine ⟨hmem, fun h ↦ ?_⟩
  cases hlookup : es.lookup key with
  | none => simpa using List.lookup_eq_none_iff.1 hlookup _ h
  | some other =>
    have heq := List.inj_on_of_nodup_map hkeys h (hmem hlookup) rfl
    cases heq
    rfl

theorem base_eq_of_perm (load : String → Build Config) {es' : List Entry} (hperm : es.Perm es')
    (hkeys : (es.map Prod.fst).Nodup) : base load es = base load es' := by
  have hlookup : es.lookup "config" = es'.lookup "config" := by
    ext path
    rw [lookup_eq_some_iff_mem hkeys, lookup_eq_some_iff_mem ((hperm.map _).nodup_iff.1 hkeys),
      hperm.mem_iff]
  rw [base, base, hlookup]

theorem ofParameter_eq_ok_iff {load : String → Build Config} {p : String} :
    ofParameter load p = .ok c ↔ (∀ text ∈ entryTexts p, (keyValue? text).isSome) ∧
      ∃ b, base load (readEntries p) = .ok b ∧ (readEntries p).foldlM apply b = .ok c ∧
        c.validate = .ok () := by
  constructor
  · intro h
    obtain ⟨es, hes, h⟩ := bind_eq_ok h
    obtain ⟨b, hb, h⟩ := bind_eq_ok h
    obtain ⟨c', hc, h⟩ := bind_eq_ok h
    obtain ⟨⟨⟩, hv, h⟩ := bind_eq_ok h
    cases h
    obtain ⟨hall, rfl⟩ := entries_eq_ok_iff.1 hes
    exact ⟨hall, b, hb, hc, hv⟩
  · rintro ⟨hall, b, hb, hc, hv⟩
    simp only [ofParameter, entries_eq_ok_iff.2 ⟨hall, rfl⟩, hb, hc, hv, bind, Except.bind, pure,
      Except.pure]

theorem ofParameter_of_perm {load : String → Build Config} {p q : String}
    (hperm : ((entryTexts p).map keyValue?).Perm ((entryTexts q).map keyValue?))
    (hkeys : ((readEntries p).map Prod.fst).Nodup) (h : ofParameter load p = .ok c) :
    ofParameter load q = .ok c := by
  obtain ⟨hall, b, hb, hc, hv⟩ := ofParameter_eq_ok_iff.1 h
  have hentries := perm_readEntries hperm
  have hall' : ∀ text ∈ entryTexts q, (keyValue? text).isSome := by
    intro text htext
    obtain ⟨text', htext', heq⟩ := List.mem_map.1 (hperm.mem_iff.2 (List.mem_map_of_mem htext))
    exact heq ▸ hall text' htext'
  obtain ⟨c', hc'⟩ := exists_foldlM_apply_iff.2 fun e he ↦
    exists_foldlM_apply_iff.1 ⟨c, hc⟩ e (hentries.mem_iff.2 he)
  obtain rfl := (settled_of_foldlM hc).eq (settled_of_foldlM hc') hentries hkeys
  exact ofParameter_eq_ok_iff.2 ⟨hall', b, base_eq_of_perm load hentries hkeys ▸ hb, hc', hv⟩

theorem nodup_orderedContentTypes (c : Config) : c.orderedContentTypes.Nodup := by
  have hall : Wire.ContentType.all.Nodup := by decide
  exact hall.filter _

/-- A parameter that is read gives each setting the value of its last entry, else the loaded or the
default value, and the result is a legal configuration. Parameters with the same entries in some
order, all with different keys, give the same. -/
theorem ofParameter_settled_and_perm (load : String → Build Config) :
    (∀ p c, ofParameter load p = .ok c →
      (∀ text ∈ entryTexts p, (keyValue? text).isSome) ∧
      (∃ b, Based load (readEntries p) b ∧ Settled (readEntries p) b c) ∧
      c.validate = .ok () ∧ c.orderedContentTypes ≠ [] ∧ c.orderedContentTypes.Nodup) ∧
    ∀ p q, ((entryTexts p).map keyValue?).Perm ((entryTexts q).map keyValue?) →
      ((readEntries p).map Prod.fst).Nodup →
      (ofParameter load p).toOption = (ofParameter load q).toOption := by
  constructor
  · intro p c h
    obtain ⟨hall, b, hb, hc, hv⟩ := ofParameter_eq_ok_iff.1 h
    exact ⟨hall, ⟨b, based_of_base hb, settled_of_foldlM hc⟩, hv, orderedContentTypes_ne_nil hv,
      nodup_orderedContentTypes c⟩
  · intro p q hperm hkeys
    have hkeys' : ((readEntries q).map Prod.fst).Nodup :=
      ((perm_readEntries hperm).map _).nodup_iff.1 hkeys
    have hoption {x : Build Config} {c : Config} : x.toOption = some c ↔ x = .ok c := by
      cases x <;> simp [Except.toOption]
    ext c
    rw [hoption, hoption]
    exact ⟨ofParameter_of_perm hperm hkeys, ofParameter_of_perm hperm.symm hkeys'⟩

def serverFile : Config := { mode := .server, framework := "example.com/fw" }

def loadServerFile (path : String) : Build Config :=
  if path = "base.toml" then .ok serverFile else .error (.config ("cannot read " ++ path))

def overriding : String := "mode=server, config = base.toml ,mode=api,,log_level=debug"

theorem ofParameter_settled_and_perm_overriding :
    (∃ b, Based loadServerFile (readEntries overriding) b ∧
      Settled (readEntries overriding) b { serverFile with mode := .api, logLevel := "debug" }) ∧
    (ofParameter loadServerFile "mode=api,config=base.toml").toOption =
      (ofParameter loadServerFile " config = base.toml, mode=api").toOption := by
  have hread : ofParameter loadServerFile overriding =
      .ok { serverFile with mode := .api, logLevel := "debug" } := by decide
  obtain ⟨-, hsettled, -⟩ := (ofParameter_settled_and_perm loadServerFile).1 _ _ hread
  exact ⟨hsettled, (ofParameter_settled_and_perm loadServerFile).2 _ _ (by decide) (by decide)⟩

end RpcStubs.Stub.Config
