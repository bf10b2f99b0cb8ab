import Mathlib.Tactic.Common
import RpcStubs.Proofs.Code.Types

namespace RpcStubs

namespace GoType

/-- Parameters and results have the property each. -/
@[elab_as_elim]
theorem induction {P : GoType → Prop} (primitive : ∀ p, P (.primitive p))
    (named : ∀ name package origin, P (.named name package origin))
    (pointer : ∀ t, P t → P (.pointer t)) (slice : ∀ t, P t → P (.slice t))
    (array : ∀ n t, P t → P (.array n t)) (map : ∀ k v, P k → P v → P (.map k v))
    (func : ∀ params results, (∀ t ∈ params, P t) → (∀ t ∈ results, P t) →
      P (.func params results))
    (variadic : ∀ t, P t → P (.variadic t)) (t : GoType) : P t :=
  @GoType.rec P (fun ts ↦ ∀ t ∈ ts, P t) primitive named pointer slice array map func variadic
    (fun _ h ↦ absurd h List.not_mem_nil)
    (fun _ _ ht hrest ↦ List.forall_mem_cons.2 ⟨ht, hrest⟩) t

inductive Leaf where
  | primitive (p : Primitive)
  | named (name : String) (package : Option String) (origin : Option Import)
  deriving DecidableEq, Repr

def Leaf.type : Leaf → GoType
  | .primitive p => .primitive p
  | .named name package origin => .named name package origin

mutual

def leaves : GoType → List Leaf
  | .primitive p => [.primitive p]
  | .named name package origin => [.named name package origin]
  | .pointer element | .slice element | .array _ element | .variadic element => leaves element
  | .map key value => leaves key ++ leaves value
  | .func params results => leavesAll params ++ leavesAll results

def leavesAll : List GoType → List Leaf
  | [] => []
  | t :: rest => leaves t ++ leavesAll rest

end

mutual

def mapLeaves (f : Leaf → Leaf) : GoType → GoType
  | .primitive p => (f (.primitive p)).type
  | .named name package origin => (f (.named name package origin)).type
  | .pointer element => .pointer (mapLeaves f element)
  | .slice element => .slice (mapLeaves f element)
  | .array length element => .array length (mapLeaves f element)
  | .map key value => .map (mapLeaves f key) (mapLeaves f value)
  | .func params results => .func (mapLeavesAll f params) (mapLeavesAll f results)
  | .variadic element => .variadic (mapLeaves f element)

def mapLeavesAll (f : Leaf → Leaf) : List GoType → List GoType
  | [] => []
  | t :: rest => mapLeaves f t :: mapLeavesAll f rest

end

def shape (t : GoType) : GoType := t.mapLeaves fun _ ↦ .primitive .any

theorem leavesAll_eq_flatMap (ts : List GoType) : leavesAll ts = ts.flatMap leaves := by
  induction ts with
  | nil => rfl
  | cons t ts ih => rw [leavesAll, ih, List.flatMap_cons]

theorem mapLeavesAll_eq_map (f : Leaf → Leaf) (ts : List GoType) :
    mapLeavesAll f ts = ts.map (mapLeaves f) := by
  induction ts with
  | nil => rfl
  | cons t ts ih => rw [mapLeavesAll, ih, List.map_cons]

theorem localizeAll_eq_map (home : String) (ts : List GoType) :
    localizeAll home ts = ts.map (localize home) := by
  induction ts with
  | nil => rfl
  | cons t ts ih => rw [localizeAll, ih, List.map_cons]

theorem leaves_func (params results : List GoType) :
    (func params results).leaves = params.flatMap leaves ++ results.flatMap leaves := by
  rw [leaves, leavesAll_eq_flatMap, leavesAll_eq_flatMap]

theorem mapLeaves_func (f : Leaf → Leaf) (params results : List GoType) :
    (func params results).mapLeaves f =
      .func (params.map (mapLeaves f)) (results.map (mapLeaves f)) := by
  rw [mapLeaves, mapLeavesAll_eq_map, mapLeavesAll_eq_map]

theorem Leaf.mapLeaves_type (f : Leaf → Leaf) (l : Leaf) : l.type.mapLeaves f = (f l).type := by
  cases l <;> rfl

theorem Leaf.leaves_type (l : Leaf) : l.type.leaves = [l] := by
  cases l <;> rfl

theorem mapLeaves_mapLeaves (f g : Leaf → Leaf) (t : GoType) :
    (t.mapLeaves f).mapLeaves g = t.mapLeaves (g ∘ f) := by
  induction t using GoType.induction with
  | primitive p => exact Leaf.mapLeaves_type g _
  | named name package origin => exact Leaf.mapLeaves_type g _
  | pointer t ih => rw [mapLeaves, mapLeaves, mapLeaves, ih]
  | slice t ih => rw [mapLeaves, mapLeaves, mapLeaves, ih]
  | array n t ih => rw [mapLeaves, mapLeaves, mapLeaves, ih]
  | map k v ihk ihv => rw [mapLeaves, mapLeaves, mapLeaves, ihk, ihv]
  | func params results ihp ihr =>
    rw [mapLeaves_func, mapLeaves_func, mapLeaves_func, List.map_map, List.map_map]
    exact congrArg₂ func (List.map_congr_left ihp) (List.map_congr_left ihr)
  | variadic t ih => rw [mapLeaves, mapLeaves, mapLeaves, ih]

theorem flatMap_leaves_map {f : Leaf → Leaf} {ts : List GoType}
    (h : ∀ t ∈ ts, (t.mapLeaves f).leaves = t.leaves.map f) :
    (ts.map (mapLeaves f)).flatMap leaves = (ts.flatMap leaves).map f := by
  rw [List.flatMap_map, List.map_flatMap]
  exact List.flatMap_congr h

theorem leaves_mapLeaves (f : Leaf → Leaf) (t : GoType) :
    (t.mapLeaves f).leaves = t.leaves.map f := by
  induction t using GoType.induction with
  | primitive p => exact Leaf.leaves_type _
  | named name package origin => exact Leaf.leaves_type _
  | pointer t ih => exact ih
  | slice t ih => exact ih
  | array n t ih => exact ih
  | map k v ihk ihv => rw [mapLeaves, leaves, leaves, ihk, ihv, List.map_append]
  | func params results ihp ihr =>
    rw [mapLeaves_func, leaves_func, leaves_func, flatMap_leaves_map ihp, flatMap_leaves_map ihr,
      List.map_append]
  | variadic t ih => exact ih

theorem shape_mapLeaves (f : Leaf → Leaf) (t : GoType) : (t.mapLeaves f).shape = t.shape :=
  mapLeaves_mapLeaves ..

theorem mem_origins_iff {i : Import} {t : GoType} :
    i ∈ t.origins ↔ ∃ name package, Leaf.named name package (some i) ∈ t.leaves := by
  induction t using GoType.induction with
  | primitive p => simp [origins, leaves]
  | named name package origin => simp [origins, leaves, eq_comm]
  | pointer t ih => exact ih
  | slice t ih => exact ih
  | array n t ih => exact ih
  | map k v ihk ihv => simp only [origins, leaves, List.mem_append, ihk, ihv, exists_or]
  | func params results ihp ihr =>
    have hall {ts : List GoType} (ih : ∀ t ∈ ts,
        (i ∈ t.origins ↔ ∃ name package, Leaf.named name package (some i) ∈ t.leaves)) :
        i ∈ originsAll ts ↔
          ∃ name package, Leaf.named name package (some i) ∈ ts.flatMap leaves := by
      simp only [Layout.mem_originsAll, List.mem_flatMap]
      constructor
      · rintro ⟨t, ht, hi⟩
        obtain ⟨name, package, hleaf⟩ := (ih t ht).1 hi
        exact ⟨name, package, t, ht, hleaf⟩
      · rintro ⟨name, package, t, ht, hleaf⟩
        exact ⟨t, ht, (ih t ht).2 ⟨name, package, hleaf⟩⟩
    rw [origins, leaves_func, List.mem_append, hall ihp, hall ihr]
    simp only [List.mem_append, exists_or]
  | variadic t ih => exact ih

/-- A declared type of the home package loses qualifier and import, and other leaves stay. -/
def Leaf.localize (home : String) : Leaf → Leaf
  | .primitive p => .primitive p
  | .named name package origin =>
    if package = some home then .named name none none else .named name package origin

theorem localize_eq_mapLeaves (home : String) (t : GoType) :
    t.localize home = t.mapLeaves (Leaf.localize home) := by
  induction t using GoType.induction with
  | primitive p => rfl
  | named name package origin =>
    rw [localize, mapLeaves, Leaf.localize]
    split_ifs <;> rfl
  | pointer t ih => rw [localize, mapLeaves, ih]
  | slice t ih => rw [localize, mapLeaves, ih]
  | array n t ih => rw [localize, mapLeaves, ih]
  | map k v ihk ihv => rw [localize, mapLeaves, ihk, ihv]
  | func params results ihp ihr =>
    rw [localize, mapLeaves_func, localizeAll_eq_map, localizeAll_eq_map]
    exact congrArg₂ func (List.map_congr_left ihp) (List.map_congr_left ihr)
  | variadic t ih => rw [localize, mapLeaves, ih]

namespace Leaf

variable {p q name : String} {package : Option String} {origin : Option Import}

@[simp] theorem localize_home : (named name (some p) origin).localize p = .named name none none :=
  if_pos rfl

@[simp] theorem localize_bare : (named name none origin).localize p = .named name none origin :=
  rfl

theorem localize_of_ne (h : package ≠ some p) :
    (named name package origin).localize p = .named name package origin := if_neg h

theorem localize_localize (p : String) (l : Leaf) : (l.localize p).localize p = l.localize p := by
  cases l with
  | primitive => rfl
  | named name package origin =>
    by_cases hp : package = some p
    · subst hp
      rw [localize_home, localize_bare]
    · rw [localize_of_ne hp, localize_of_ne hp]

theorem localize_localize_comm (p q : String) (l : Leaf) :
    (l.localize p).localize q = (l.localize q).localize p := by
  cases l with
  | primitive => rfl
  | named name package origin =>
    by_cases hp : package = some p
    · subst hp
      rw [localize_home, localize_bare]
      by_cases hq : some p = some q
      · obtain rfl := Option.some_inj.1 hq
        rw [localize_home, localize_bare]
      · rw [localize_of_ne hq, localize_home]
    · rw [localize_of_ne hp]
      by_cases hq : package = some q
      · subst hq
        rw [localize_home, localize_bare]
      · rw [localize_of_ne hq, localize_of_ne hp]

/-- A leaf that keeps a package or an import was not one of the home package. -/
theorem localize_eq_named_iff {l : Leaf} (h : package ≠ none ∨ origin ≠ none) :
    l.localize p = .named name package origin ↔
      l = .named name package origin ∧ package ≠ some p := by
  constructor
  · intro hl
    cases l with
    | primitive => cases hl
    | named name' package' origin' =>
      by_cases hp : package' = some p
      · subst hp
        rw [localize_home] at hl
        cases hl
        exact (h.elim (absurd rfl) (absurd rfl))
      · rw [localize_of_ne hp] at hl
        cases hl
        exact ⟨rfl, hp⟩
  · rintro ⟨rfl, hp⟩
    exact localize_of_ne hp

end Leaf

theorem leaves_localize (p : String) (t : GoType) :
    (t.localize p).leaves = t.leaves.map (Leaf.localize p) := by
  rw [localize_eq_mapLeaves, leaves_mapLeaves]

theorem mem_leaves_localize_iff {t : GoType} {p name : String} {package : Option String}
    {origin : Option Import} (h : package ≠ none ∨ origin ≠ none) :
    Leaf.named name package origin ∈ (t.localize p).leaves ↔
      Leaf.named name package origin ∈ t.leaves ∧ package ≠ some p := by
  rw [leaves_localize, List.mem_map]
  simp only [Leaf.localize_eq_named_iff h]
  constructor
  · rintro ⟨l, hl, rfl, hp⟩
    exact ⟨hl, hp⟩
  · rintro ⟨hl, hp⟩
    exact ⟨_, hl, rfl, hp⟩

theorem localize_localize_comm (p q : String) (t : GoType) :
    (t.localize p).localize q = (t.localize q).localize p := by
  simp only [localize_eq_mapLeaves, mapLeaves_mapLeaves]
  exact congrArg (mapLeaves · t) (funext (Leaf.localize_localize_comm p q))

theorem localize_localize (p : String) (t : GoType) :
    (t.localize p).localize p = t.localize p := by
  simp only [localize_eq_mapLeaves, mapLeaves_mapLeaves]
  exact congrArg (mapLeaves · t) (funext (Leaf.localize_localize p))

/-- A type that is localized twice is as if localized once, and the order of packages does not
count. Only the declared types of the home package change: none of them remains, and the imports
that are needed are those of the others. -/
theorem localize_projects (t : GoType) (p q : String) :
    (t.localize p).localize p = t.localize p ∧
      (t.localize p).localize q = (t.localize q).localize p ∧
      (t.localize p).shape = t.shape ∧
      (t.localize p).leaves = t.leaves.map (Leaf.localize p) ∧
      (∀ name origin, Leaf.named name (some p) origin ∉ (t.localize p).leaves) ∧
      ∀ i, i ∈ (t.localize p).imports ↔
        ∃ name package, Leaf.named name package (some i) ∈ t.leaves ∧ package ≠ some p := by
  refine ⟨localize_localize p t, localize_localize_comm p q t, ?_, leaves_localize p t,
    fun name origin h ↦ ?_, fun i ↦ ?_⟩
  · rw [localize_eq_mapLeaves, shape_mapLeaves]
  · exact ((mem_leaves_localize_iff (.inl (Option.some_ne_none p))).1 h).2 rfl
  · rw [imports, OrderedSet.mem_ofList, mem_origins_iff]
    simp only [mem_leaves_localize_iff (.inr (Option.some_ne_none i))]

end GoType

end RpcStubs
