import Mathlib.Algebra.GroupWithZero.Nat
import RpcStubs.Code.File
import RpcStubs.Proofs.Code.Files
import RpcStubs.Proofs.Code.Inversion

namespace RpcStubs

namespace Declaration

def methods : Declaration → List Method
  | .structure d => d.methods
  | _ => []

def headUnit : Declaration → Build String
  | .structure d => d.render
  | d => d.render

def methodUnits (withMethods : Bool) : Declaration → Build (List String)
  | .structure d => if withMethods then d.renderMethods else pure []
  | _ => pure []

def units (withMethods : Bool) (d : Declaration) : Build (List String) := do
  return (← d.headUnit) :: (← d.methodUnits withMethods)

def groupSource : Declaration → String
  | .structure d => d.groupSource
  | _ => ""

end Declaration

namespace GoFile

open Layout Text

/-- The places for declarations. -/
inductive Section where
  | consts
  | vars
  | interfaces
  | prototypes
  | groupedTypes
  | types
  | typesWithMethods
  | funcs
  deriving DecidableEq, Repr

def Section.all : List Section :=
  [.consts, .vars, .interfaces, .prototypes, .groupedTypes, .types, .typesWithMethods, .funcs]

def Section.writesMethods (s : Section) : Bool := s = .typesWithMethods

/-- A call that gives a declaration to a file. -/
inductive Contribution where
  | const (d : Const)
  | var (d : Var)
  | interface (d : Interface)
  | prototype (d : Prototype)
  | groupedType (d : Structure)
  | type (d : Structure)
  | typeWithMethods (d : Structure)
  | func (d : Function)
  | closure (d : Closure)
  | add (d : Declaration)

def contribute (f : GoFile) : Contribution → GoFile
  | .const d => f.addConst d
  | .var d => f.addVar d
  | .interface d => f.addInterface d
  | .prototype d => f.addPrototype d
  | .groupedType d => f.addGroupedType d
  | .type d => f.addType d
  | .typeWithMethods d => f.addTypeWithMethods d
  | .func d => f.addFunc d
  | .closure d => f.addClosure d
  | .add d => f.add d

namespace Contribution

def declaration : Contribution → Declaration
  | .const d => .const d
  | .var d => .var d
  | .interface d => .interface d
  | .prototype d => .prototype d
  | .groupedType d | .type d | .typeWithMethods d => .structure d
  | .func d => .function d
  | .closure d => .closure d
  | .add d => d

/-- Where the declaration belongs. One that is just added is placed by its kind. -/
def place : Contribution → Section
  | .const _ | .add (.const _) => .consts
  | .var _ | .add (.var _) => .vars
  | .interface _ | .add (.interface _) => .interfaces
  | .prototype _ | .add (.prototype _) => .prototypes
  | .groupedType _ => .groupedTypes
  | .type _ => .types
  | .typeWithMethods _ => .typesWithMethods
  | .add (.structure d) => if d.methods.isEmpty then .types else .typesWithMethods
  | .func _ | .closure _ | .add (.function _) | .add (.closure _) => .funcs

def given (cs : List Contribution) (s : Section) : List Declaration :=
  (cs.filter fun c ↦ c.place = s).map declaration

end Contribution

def entries (f : GoFile) : Section → List Declaration
  | .consts => f.consts.map .const
  | .vars => f.vars.map .var
  | .interfaces => f.interfaces.map .interface
  | .prototypes => f.prototypes.map .prototype
  | .groupedTypes => f.groupedTypes.map .structure
  | .types => f.types.map .structure
  | .typesWithMethods => f.typesWithMethods.map .structure
  | .funcs => f.funcs

theorem entries_contribute (f : GoFile) (c : Contribution) (s : Section) :
    (f.contribute c).entries s =
      f.entries s ++ if c.place = s then [c.declaration] else [] := by
  cases c with
  | add d =>
    by_cases hm : ∃ t, d = .structure t
    · obtain ⟨d, rfl⟩ := hm
      cases hm : d.methods.isEmpty <;> cases s <;>
        simp [contribute, add, addType, addTypeWithMethods, entries, Contribution.place,
          Contribution.declaration, hm]
    · cases d <;> cases s <;>
        simp_all [contribute, add, addConst, addVar, addInterface, addPrototype, addFunc,
          addClosure, entries, Contribution.place, Contribution.declaration]
  | _ d =>
    cases s <;>
      simp [contribute, addConst, addVar, addInterface, addPrototype, addGroupedType, addType,
        addTypeWithMethods, addFunc, addClosure, entries, Contribution.place,
        Contribution.declaration]

/-- A section is given its declarations in the order of the calls, whatever comes between them. -/
theorem entries_foldl_contribute (f : GoFile) (cs : List Contribution) (s : Section) :
    (cs.foldl contribute f).entries s = f.entries s ++ Contribution.given cs s := by
  induction cs generalizing f with
  | nil => simp [Contribution.given]
  | cons c cs ih =>
    rw [List.foldl_cons, ih, entries_contribute, List.append_assoc]
    congr 1
    by_cases hc : c.place = s <;> simp [Contribution.given, hc]

theorem entries_of_new {package schemaFile : String} {f : GoFile}
    (h : GoFile.new package schemaFile = .ok f) (s : Section) : f.entries s = [] := by
  obtain ⟨i, rfl⟩ := eq_of_new h
  cases s <;> rfl

def typeGroup (ds : List Declaration) : List String :=
  if ds.isEmpty then []
  else ["type (\n" ++ "\n\n".intercalate (ds.map Declaration.groupSource) ++ "\n)"]

/-- The texts of a section. Where types share a declaration, all methods come after it. -/
def Section.units (withMethods : Bool) : Section → List Declaration → Build (List String)
  | .groupedTypes, ds => do
    return typeGroup ds ++ (← ds.mapM (Declaration.methodUnits withMethods)).flatten
  | _, ds => do return (← ds.mapM (Declaration.units withMethods)).flatten

/-- The texts of all sections, with methods in those sections that are to have them. -/
def listing (withMethods : Section → Bool) (entries : Section → List Declaration) :
    Build (List String) := do
  return (← Section.all.mapM fun s ↦ s.units (withMethods s) (entries s)).flatten

theorem bind_flatten_units {α : Type} {render : α → Build String} {mk : α → Declaration}
    {withMethods : Bool} {ds : List α}
    (h : ∀ d ∈ ds, (mk d).units withMethods = render d >>= fun t ↦ pure [t]) :
    ((ds.map mk).mapM (Declaration.units withMethods) >>= fun us ↦ pure us.flatten) =
      ds.mapM render := by
  induction ds with
  | nil => rfl
  | cons d ds ih =>
    rw [List.map_cons, List.mapM_cons, List.mapM_cons, h d List.mem_cons_self,
      ← ih fun d' hd' ↦ h d' (List.mem_cons_of_mem d hd')]
    cases render d with
    | error e => rfl
    | ok t => cases (ds.map mk).mapM (Declaration.units withMethods) <;> rfl

theorem exists_methodUnits (ds : List Declaration) :
    ∃ us, ds.mapM (Declaration.methodUnits false) = .ok us ∧ us.flatten = [] := by
  have hnone (d : Declaration) : d.methodUnits false = .ok [] := by cases d <;> rfl
  induction ds with
  | nil => exact ⟨[], rfl, rfl⟩
  | cons d ds ih =>
    obtain ⟨us, hus, hnil⟩ := ih
    exact ⟨[] :: us, by rw [List.mapM_cons, hnone, hus]; rfl, hnil⟩

/-- What is written: every section in its order, methods only where they have their place. -/
theorem sections_eq_listing {f : GoFile}
    (hf : ∀ d ∈ f.funcs, ∀ b, d.units b = d.render >>= fun t ↦ pure [t]) :
    f.sections = listing Section.writesMethods f.entries := by
  have hconsts : Section.units false .consts (f.entries .consts) = f.consts.mapM Const.render :=
    bind_flatten_units fun _ _ ↦ rfl
  have hvars : Section.units false .vars (f.entries .vars) = f.vars.mapM Var.render :=
    bind_flatten_units fun _ _ ↦ rfl
  have hinterfaces : Section.units false .interfaces (f.entries .interfaces) =
      f.interfaces.mapM Interface.render := bind_flatten_units fun _ _ ↦ rfl
  have hprototypes : Section.units false .prototypes (f.entries .prototypes) =
      f.prototypes.mapM Prototype.render := bind_flatten_units fun _ _ ↦ rfl
  have htypes : Section.units false .types (f.entries .types) = f.types.mapM Structure.render :=
    bind_flatten_units fun _ _ ↦ rfl
  have hmethods : Section.units true .typesWithMethods (f.entries .typesWithMethods) =
      f.typesWithMethods.mapM renderWithMethods >>= fun us ↦ pure us.flatten := by
    change ((f.typesWithMethods.map Declaration.structure).mapM (Declaration.units true) >>= _) = _
    rw [List.mapM_map]
    rfl
  have hfuncs : Section.units false .funcs (f.entries .funcs) =
      f.funcs.mapM Declaration.render := by
    have h : ((f.funcs.map id).mapM (Declaration.units false) >>= fun us ↦ pure us.flatten) =
        f.funcs.mapM Declaration.render := bind_flatten_units fun d hd ↦ hf d hd false
    rwa [List.map_id] at h
  have hgroup : Section.units false .groupedTypes (f.entries .groupedTypes) =
      .ok f.groupSection := by
    obtain ⟨us, hus, hnil⟩ := exists_methodUnits (f.entries .groupedTypes)
    rw [Section.units, hus]
    change Except.ok (typeGroup (f.groupedTypes.map .structure) ++ us.flatten) = _
    rw [hnil, List.append_nil, typeGroup, groupSection, List.map_map, List.isEmpty_map]
    rfl
  have hlisting : listing Section.writesMethods f.entries = (do
      let consts ← Section.units false .consts (f.entries .consts)
      let vars ← Section.units false .vars (f.entries .vars)
      let interfaces ← Section.units false .interfaces (f.entries .interfaces)
      let prototypes ← Section.units false .prototypes (f.entries .prototypes)
      let group ← Section.units false .groupedTypes (f.entries .groupedTypes)
      let types ← Section.units false .types (f.entries .types)
      let methods ← Section.units true .typesWithMethods (f.entries .typesWithMethods)
      let funcs ← Section.units false .funcs (f.entries .funcs)
      return [consts, vars, interfaces, prototypes, group, types, methods, funcs].flatten) := by
    simp [listing, Section.all, Section.writesMethods, List.mapM_cons, List.mapM_nil]
  rw [hlisting, hconsts, hvars, hinterfaces, hprototypes, hgroup, htypes, hmethods, hfuncs,
    sections]
  simp only [bind_assoc, pure_bind, List.flatten_cons, List.flatten_nil, List.append_nil,
    List.append_assoc]
  rfl

/-- Texts among more texts, of which there are `n` others. -/
structure Grows (n : Nat) (us full : List String) : Prop where
  sublist : us.Sublist full
  length : full.length = us.length + n

theorem Grows.append {m n : Nat} {us full us' full' : List String} (h : Grows m us full)
    (h' : Grows n us' full') : Grows (m + n) (us ++ us') (full ++ full') where
  sublist := h.sublist.append h'.sublist
  length := by
    rw [List.length_append, List.length_append, h.length, h'.length]
    omega

theorem Grows.refl (us : List String) : Grows 0 us us := ⟨.refl us, rfl⟩

theorem grows_mapM {α : Type} {f g : α → Build (List String)} {n : α → Nat} {as : List α}
    (h : ∀ a ∈ as, ∀ us full, f a = .ok us → g a = .ok full → Grows (n a) us full)
    {uss fulls : List (List String)} (hf : as.mapM f = .ok uss) (hg : as.mapM g = .ok fulls) :
    Grows (as.map n).sum uss.flatten fulls.flatten := by
  induction as generalizing uss fulls with
  | nil =>
    cases hf
    cases hg
    exact .refl _
  | cons a as ih =>
    rw [List.mapM_cons] at hf hg
    obtain ⟨us, hus, hf⟩ := bind_eq_ok hf
    obtain ⟨uss, huss, hf⟩ := bind_eq_ok hf
    obtain ⟨full, hfull, hg⟩ := bind_eq_ok hg
    obtain ⟨fulls, hfulls, hg⟩ := bind_eq_ok hg
    cases hf
    cases hg
    exact (h a List.mem_cons_self us full hus hfull).append
      (ih (fun a' ha' ↦ h a' (List.mem_cons_of_mem a ha')) huss hfulls)

/-- The number of methods that are left out. -/
def leftOut (withMethods : Bool) (d : Declaration) : Nat :=
  if withMethods then 0 else d.methods.length

theorem length_renderMethods {d : Structure} {ms : List String} (h : d.renderMethods = .ok ms) :
    ms.length = d.methods.length := (getElem?_of_mapM_eq_ok h).1

theorem grows_methodUnits {b : Bool} {d : Declaration} {us full : List String}
    (hus : d.methodUnits b = .ok us) (hfull : d.methodUnits true = .ok full) :
    Grows (leftOut b d) us full := by
  cases b with
  | true =>
    rw [hus] at hfull
    cases hfull
    exact .refl us
  | false =>
    obtain rfl : us = [] := by cases d <;> (cases hus; rfl)
    refine ⟨List.nil_sublist _, ?_⟩
    rw [List.length_nil, Nat.zero_add]
    by_cases hd : ∃ t, d = .structure t
    · obtain ⟨t, rfl⟩ := hd
      exact length_renderMethods hfull
    · cases d <;> first | (cases hfull; rfl) | exact absurd ⟨_, rfl⟩ hd

theorem grows_units {b : Bool} {d : Declaration} {us full : List String}
    (hus : d.units b = .ok us) (hfull : d.units true = .ok full) :
    Grows (leftOut b d) us full := by
  obtain ⟨t, ht, hus⟩ := bind_eq_ok hus
  obtain ⟨ms, hms, hus⟩ := bind_eq_ok hus
  obtain ⟨t', ht', hfull⟩ := bind_eq_ok hfull
  obtain ⟨ms', hms', hfull⟩ := bind_eq_ok hfull
  cases hus
  cases hfull
  rw [ht] at ht'
  cases ht'
  have h := (Grows.refl [t]).append (grows_methodUnits hms hms')
  rwa [Nat.zero_add] at h

theorem grows_section {b : Bool} {s : Section} {ds : List Declaration} {us full : List String}
    (hus : s.units b ds = .ok us) (hfull : s.units true ds = .ok full) :
    Grows (ds.map (leftOut b)).sum us full := by
  have hplain (hus : (ds.mapM (Declaration.units b) >>= fun uss ↦ pure uss.flatten) = Except.ok us)
      (hfull : (ds.mapM (Declaration.units true) >>= fun uss ↦ pure uss.flatten) =
        Except.ok full) : Grows (ds.map (leftOut b)).sum us full := by
    obtain ⟨uss, huss, hus⟩ := bind_eq_ok hus
    obtain ⟨fulls, hfulls, hfull⟩ := bind_eq_ok hfull
    cases hus
    cases hfull
    exact grows_mapM (fun _ _ _ _ ↦ grows_units) huss hfulls
  cases s with
  | groupedTypes =>
    obtain ⟨uss, huss, hus⟩ := bind_eq_ok hus
    obtain ⟨fulls, hfulls, hfull⟩ := bind_eq_ok hfull
    cases hus
    cases hfull
    have h := (Grows.refl (typeGroup ds)).append
      (grows_mapM (fun _ _ _ _ ↦ grows_methodUnits) huss hfulls)
    rwa [Nat.zero_add] at h
  | _ => exact hplain hus hfull

theorem grows_listing {withMethods : Section → Bool} {entries : Section → List Declaration}
    {us full : List String} (hus : listing withMethods entries = .ok us)
    (hfull : listing (fun _ ↦ true) entries = .ok full) :
    Grows (Section.all.map fun s ↦ ((entries s).map (leftOut (withMethods s))).sum).sum
      us full := by
  obtain ⟨uss, huss, hus⟩ := bind_eq_ok hus
  obtain ⟨fulls, hfulls, hfull⟩ := bind_eq_ok hfull
  cases hus
  cases hfull
  exact grows_mapM (fun _ _ _ _ ↦ grows_section) huss hfulls

theorem listing_eq_of_leftOut {withMethods : Section → Bool}
    {entries : Section → List Declaration}
    (h : ∀ s, withMethods s = false → ∀ d ∈ entries s, d.methods = []) :
    listing withMethods entries = listing (fun _ ↦ true) entries := by
  have hmethods (d : Declaration) (hd : d.methods = []) :
      d.methodUnits true = d.methodUnits false := by
    by_cases hs : ∃ t, d = .structure t
    · obtain ⟨t, rfl⟩ := hs
      have ht : t.methods = [] := hd
      simp only [Declaration.methodUnits, Structure.renderMethods, ht]
      rfl
    · cases d <;> first | rfl | exact absurd ⟨_, rfl⟩ hs
  have hcongr {f g : Declaration → Build (List String)} {ds : List Declaration}
      (hfg : ∀ d ∈ ds, f d = g d) : ds.mapM f = ds.mapM g := by
    induction ds with
    | nil => rfl
    | cons d ds ih =>
      rw [List.mapM_cons, List.mapM_cons, hfg d List.mem_cons_self,
        ih fun d' hd' ↦ hfg d' (List.mem_cons_of_mem d hd')]
  have hsection (s : Section) :
      s.units (withMethods s) (entries s) = s.units true (entries s) := by
    cases hs : withMethods s with
    | true => rfl
    | false =>
      have hus : ∀ d ∈ entries s, d.units false = d.units true := by
        intro d hd
        rw [Declaration.units, Declaration.units, hmethods d (h s hs d hd)]
      have hms : ∀ d ∈ entries s, d.methodUnits false = d.methodUnits true :=
        fun d hd ↦ (hmethods d (h s hs d hd)).symm
      cases s <;> simp only [Section.units, hcongr hus, hcongr hms]
  simp only [listing, hsection]

theorem eq_nil_of_listing {withMethods : Section → Bool} {entries : Section → List Declaration}
    (h : listing withMethods entries = .ok []) (s : Section) : entries s = [] := by
  have hparts {α : Type} {f : α → Build (List String)} {as : List α} {uss : List (List String)}
      (hf : as.mapM f = .ok uss) (hnil : uss.flatten = []) : ∀ a ∈ as, f a = .ok [] := by
    intro a ha
    obtain ⟨i, hi⟩ := List.mem_iff_getElem?.1 ha
    obtain ⟨us, hus, hfa⟩ := (getElem?_of_mapM_eq_ok hf).2 i a hi
    rwa [List.flatten_eq_nil_iff.1 hnil us (List.mem_of_getElem? hus)] at hfa
  have hunits (b : Bool) (d : Declaration) : d.units b ≠ .ok [] := by
    intro hd
    obtain ⟨t, -, hd⟩ := bind_eq_ok hd
    obtain ⟨ms, -, hd⟩ := bind_eq_ok hd
    cases hd
  obtain ⟨uss, huss, hnil⟩ := bind_eq_ok h
  have hs : s.units (withMethods s) (entries s) = .ok [] := by
    refine hparts huss (Except.ok.inj hnil) s ?_
    cases s <;> simp [Section.all]
  have hplain (hs : ((entries s).mapM (Declaration.units (withMethods s)) >>=
      fun uss ↦ pure uss.flatten) = Except.ok []) : entries s = [] := by
    obtain ⟨vss, hvss, hv⟩ := bind_eq_ok hs
    refine List.eq_nil_iff_forall_not_mem.2 fun d hd ↦ ?_
    exact hunits _ d (hparts hvss (Except.ok.inj hv) d hd)
  cases s with
  | groupedTypes =>
    obtain ⟨vss, -, hv⟩ := bind_eq_ok hs
    have hgroup := (List.append_eq_nil_iff.1 (Except.ok.inj hv)).1
    by_contra hne
    rw [typeGroup, if_neg (by simpa using hne)] at hgroup
    cases hgroup
  | _ => exact hplain hs

/-- Among texts with blank lines between them, no further one goes unnoticed. -/
theorem length_eq_of_intercalate {us full : List String} (h : us.Sublist full) (hne : us ≠ [])
    (he : "\n\n".intercalate us = "\n\n".intercalate full) : us.length = full.length := by
  -- Every text counts with the blank line after it.
  let size (ts : List String) : Nat := (ts.map fun t ↦ t.toList.length + 2).sum
  have hsize {ts : List String} (hts : ts ≠ []) :
      ("\n\n".intercalate ts).toList.length + 2 = size ts := by
    rw [String.toList_intercalate]
    induction ts with
    | nil => exact absurd rfl hts
    | cons t ts ih =>
      cases ts with
      | nil => simp [size]
      | cons u ts =>
        have ih' := ih (by simp)
        rw [List.map_cons, List.map_cons, List.intercalate_cons_cons] at *
        simp only [List.length_append] at ih' ⊢
        have hlen : "\n\n".toList.length = 2 := rfl
        have hcons : size (t :: u :: ts) = t.toList.length + 2 + size (u :: ts) := by
          simp only [size, List.map_cons, List.sum_cons]
        omega
  have hgrow {us full : List String} (h : us.Sublist full) :
      size us + 2 * full.length ≤ size full + 2 * us.length := by
    induction h with
    | slnil => simp
    | cons t _ ih =>
      simp only [size, List.map_cons, List.sum_cons, List.length_cons] at ih ⊢
      omega
    | cons_cons t _ ih =>
      simp only [size, List.map_cons, List.sum_cons, List.length_cons] at ih ⊢
      omega
  have hne' : full ≠ [] := by
    rintro rfl
    exact hne (List.sublist_nil.1 h)
  have hus := hsize hne
  have hfull := hsize hne'
  rw [he, hfull] at hus
  have hle := hgrow h
  have hlength := h.length_le
  omega

theorem assemble_cancel {f : GoFile} {imports : ImportSet} {body body' : String}
    (h : f.assemble imports body = f.assemble imports body') : body = body' := by
  have hfront : frontMatter f ++ optional (importBlock imports) ≠ [] := by simp [frontMatter]
  generalize hxs : frontMatter f ++ optional (importBlock imports) = xs at hfront
  have htext (body : String) : (f.assemble imports body).toList =
      ("\n\n".intercalate xs).toList ++
        ((if body.isEmpty then [] else "\n\n".toList ++ body.toList) ++ ['\n']) := by
    rw [assemble_eq, hxs, Layout.optional, String.toList_append, String.toList_intercalate,
      String.toList_intercalate]
    split_ifs
    · rw [List.append_nil]
      rfl
    · rw [List.map_append, intercalate_append _ (by simpa using hfront) (by simp)]
      simp
  have htail : (if body.isEmpty then [] else "\n\n".toList ++ body.toList) =
      if body'.isEmpty then [] else "\n\n".toList ++ body'.toList := by
    have htexts := congrArg String.toList h
    rw [htext, htext] at htexts
    exact List.append_cancel_right (List.append_cancel_left htexts)
  split_ifs at htail with he he'
  · rw [String.isEmpty_iff.1 he, String.isEmpty_iff.1 he']
  · simp at htail
  · simp at htail
  · exact String.toList_inj.1 (List.append_cancel_left htail)

theorem units_of_mem_given {cs : List Contribution} {d : Declaration}
    (h : d ∈ Contribution.given cs .funcs) (b : Bool) :
    d.units b = d.render >>= fun t ↦ pure [t] := by
  obtain ⟨c, hc, rfl⟩ := List.mem_map.1 h
  have hplace : c.place = .funcs := by simpa using (List.mem_filter.1 hc).2
  cases c with
  | add d =>
    cases d <;> first | rfl | (simp only [Contribution.place] at hplace; split_ifs at hplace)
  | _ => first | rfl | cases hplace

/-- Every call gives the file one declaration, which is written once and in its place. With all
methods after their types, this is the whole body exactly if no methods come to a section that
leaves them out. -/
theorem render_contributions {package schemaFile text : String} {start f : GoFile}
    (hnew : GoFile.new package schemaFile = .ok start) {cs : List Contribution}
    (hf : cs.foldl contribute start = f) (hrender : f.render = .ok text) :
    ∃ units, listing Section.writesMethods (Contribution.given cs) = .ok units ∧
      text = f.assemble f.declaredImports ("\n\n".intercalate units) ∧
      ((∃ full, listing (fun _ ↦ true) (Contribution.given cs) = .ok full ∧
          text = f.assemble f.declaredImports ("\n\n".intercalate full)) ↔
        ∀ s, s.writesMethods = false → ∀ d ∈ Contribution.given cs s, d.methods = []) := by
  have hentries : f.entries = Contribution.given cs := by
    funext s
    rw [← hf, entries_foldl_contribute, entries_of_new hnew, List.nil_append]
  have hfuncs : ∀ d ∈ f.funcs, ∀ b, d.units b = d.render >>= fun t ↦ pure [t] := by
    intro d hd
    have hd' : d ∈ f.entries .funcs := hd
    rw [hentries] at hd'
    exact units_of_mem_given hd'
  obtain ⟨body, hbody, htext⟩ := bind_eq_ok hrender
  obtain ⟨units, hunits, hjoin⟩ := bind_eq_ok hbody
  cases htext
  cases hjoin
  have hlisting := eq_ok_of_inBuilder hunits
  rw [sections_eq_listing hfuncs, hentries] at hlisting
  refine ⟨units, hlisting, rfl, ?_, fun hnone ↦ ?_⟩
  · rintro ⟨full, hfull, htext⟩ s hs d hd
    have hgrows := grows_listing hlisting hfull
    by_cases hnil : units = []
    · rw [hnil] at hlisting
      rw [eq_nil_of_listing hlisting s] at hd
      cases hd
    · have hlength := length_eq_of_intercalate hgrows.sublist hnil (assemble_cancel htext)
      have hzero : (Section.all.map fun s ↦
          ((Contribution.given cs s).map (leftOut s.writesMethods)).sum).sum = 0 := by
        have h := hgrows.length
        omega
      have hsection :=
        List.sum_eq_zero_iff_forall_eq_nat.1 hzero _ (List.mem_map_of_mem (a := s) ?_)
      · have hd' := List.sum_eq_zero_iff_forall_eq_nat.1 hsection _ (List.mem_map_of_mem hd)
        rw [leftOut, hs] at hd'
        exact List.length_eq_zero_iff.1 hd'
      · cases s <;> simp [Section.all]
  · rw [listing_eq_of_leftOut hnone] at hlisting
    exact ⟨units, hlisting, rfl⟩

def typeCalls : Build (List Contribution) := do
  let t ← Structure.new "T"
  let m ← Method.new "t" (← t.type) "M" [] []
  return [.func (← Function.new "F" [] []), .type (t.addMethod m)]

theorem render_contributions_typeCalls :
    ∃ start cs text, GoFile.new "p" "a.proto" = .ok start ∧ typeCalls = .ok cs ∧
      (cs.foldl contribute start).render = .ok text ∧
      ∃ units, listing Section.writesMethods (Contribution.given cs) = .ok units ∧
        text = (cs.foldl contribute start).assemble (cs.foldl contribute start).declaredImports
          ("\n\n".intercalate units) ∧
        ((∃ full, listing (fun _ ↦ true) (Contribution.given cs) = .ok full ∧
            text = (cs.foldl contribute start).assemble
              (cs.foldl contribute start).declaredImports ("\n\n".intercalate full)) ↔
          ∀ s, s.writesMethods = false → ∀ d ∈ Contribution.given cs s, d.methods = []) := by
  have h : (GoFile.new "p" "a.proto" >>= fun start ↦ typeCalls >>= fun cs ↦
      (cs.foldl contribute start).render) =
        .ok "package p\n\ntype T struct \x7b\n\x7d\n\nfunc F() \x7b\n\x7d\n" := by decide +kernel
  obtain ⟨start, hstart, h⟩ := bind_eq_ok h
  obtain ⟨cs, hcs, h⟩ := bind_eq_ok h
  exact ⟨start, cs, _, hstart, hcs, h, render_contributions hstart rfl h⟩

/-- A method is lost with a structure that is added as a type alone. -/
theorem not_forall_methods_written :
    ¬ ∀ package schemaFile start cs text, GoFile.new package schemaFile = .ok start →
      (cs.foldl contribute start).render = .ok text →
      ∃ full, listing (fun _ ↦ true) (Contribution.given cs) = .ok full ∧
        text = (cs.foldl contribute start).assemble (cs.foldl contribute start).declaredImports
          ("\n\n".intercalate full) := by
  intro hall
  have h : (GoFile.new "p" "a.proto" >>= fun start ↦ typeCalls >>= fun cs ↦
      (cs.foldl contribute start).render >>= fun text ↦
      listing (fun _ ↦ true) (Contribution.given cs) >>= fun full ↦
      pure (text == (cs.foldl contribute start).assemble
        (cs.foldl contribute start).declaredImports ("\n\n".intercalate full))) = .ok false := by
    decide +kernel
  obtain ⟨start, hstart, h⟩ := bind_eq_ok h
  obtain ⟨cs, -, h⟩ := bind_eq_ok h
  obtain ⟨text, htext, h⟩ := bind_eq_ok h
  obtain ⟨full, hfull, h⟩ := bind_eq_ok h
  obtain ⟨full', hfull', he⟩ := hall _ _ start cs text hstart htext
  rw [hfull] at hfull'
  cases hfull'
  rw [← he, beq_self_eq_true] at h
  cases h

end GoFile

end RpcStubs
