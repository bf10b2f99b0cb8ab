namespace RpcStubs

/-- Maps as lists of entries in strictly ascending order of their keys, so that maps with the same
entries are equal. -/
structure OrderedMap (κ ν : Type) [Ord κ] where
  entries : List (κ × ν)
  ascending : entries.Pairwise fun a b ↦ compare a.1 b.1 = .lt
  deriving DecidableEq, Repr

namespace OrderedMap

variable {κ ν β : Type} [Ord κ]

def insertInto (key : κ) (value : ν) : List (κ × ν) → List (κ × ν)
  | [] => [(key, value)]
  | (k, v) :: rest =>
    match compare key k with
    | .lt => (key, value) :: (k, v) :: rest
    | .eq => (key, value) :: rest
    | .gt => (k, v) :: insertInto key value rest

theorem mem_insertInto {key : κ} {value : ν} {l : List (κ × ν)} {e : κ × ν}
    (h : e ∈ insertInto key value l) : e = (key, value) ∨ e ∈ l := by
  induction l with
  | nil => exact .inl (List.mem_singleton.1 h)
  | cons f rest ih =>
    unfold insertInto at h
    split at h
    · exact List.mem_cons.1 h
    · exact (List.mem_cons.1 h).imp_right (List.mem_cons_of_mem f)
    · rcases List.mem_cons.1 h with rfl | h
      · exact .inr List.mem_cons_self
      · exact (ih h).imp_right (List.mem_cons_of_mem f)

theorem pairwise_insertInto [Std.TransOrd κ] (key : κ) (value : ν) {l : List (κ × ν)}
    (h : l.Pairwise fun a b ↦ compare a.1 b.1 = .lt) :
    (insertInto key value l).Pairwise fun a b ↦ compare a.1 b.1 = .lt := by
  induction l with
  | nil => exact List.pairwise_singleton _ _
  | cons f rest ih =>
    obtain ⟨hf, hrest⟩ := List.pairwise_cons.1 h
    unfold insertInto
    split
    · next hlt =>
      refine List.pairwise_cons.2 ⟨fun e he ↦ ?_, h⟩
      rcases List.mem_cons.1 he with rfl | he
      · exact hlt
      · exact Std.TransCmp.lt_trans hlt (hf e he)
    · next heq =>
      exact List.pairwise_cons.2 ⟨fun e he ↦ Std.TransCmp.lt_of_eq_of_lt heq (hf e he), hrest⟩
    · next hgt =>
      refine List.pairwise_cons.2 ⟨fun e he ↦ ?_, ih hrest⟩
      rcases mem_insertInto he with rfl | he
      · exact Std.OrientedCmp.lt_of_gt hgt
      · exact hf e he

theorem insertInto_of_forall_lt [Std.OrientedOrd κ] {key : κ} {value : ν} {l : List (κ × ν)}
    (h : ∀ e ∈ l, compare e.1 key = .lt) : insertInto key value l = l ++ [(key, value)] := by
  induction l with
  | nil => rfl
  | cons e rest ih =>
    have he : compare key e.1 = .gt := Std.OrientedCmp.gt_of_lt (h e List.mem_cons_self)
    simp only [insertInto, he]
    rw [ih fun e' he' ↦ h e' (List.mem_cons_of_mem e he')]
    rfl

def empty : OrderedMap κ ν := ⟨[], .nil⟩

instance : EmptyCollection (OrderedMap κ ν) := ⟨empty⟩

/-- Where a map is expected, the empty list is the empty map. -/
instance {α : Type} : CoeDep (List α) [] (OrderedMap κ ν) := ⟨empty⟩

def isEmpty (m : OrderedMap κ ν) : Bool := m.entries.isEmpty

theorem eq_empty {m : OrderedMap κ ν} (h : m.isEmpty = true) : m = ∅ := by
  obtain ⟨l, hl⟩ := m
  obtain rfl : l = [] := List.isEmpty_iff.1 h
  rfl

def map (f : κ × ν → β) (m : OrderedMap κ ν) : List β := m.entries.map f

def insert [Std.TransOrd κ] (m : OrderedMap κ ν) (key : κ) (value : ν) : OrderedMap κ ν :=
  ⟨insertInto key value m.entries, pairwise_insertInto key value m.ascending⟩

end OrderedMap

end RpcStubs
