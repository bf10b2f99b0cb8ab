namespace RpcStubs

structure OrderedSet (α : Type) [Ord α] where
  items : List α
  ascending : items.Pairwise fun a b ↦ compare a b = .lt

namespace OrderedSet

variable {α : Type} [Ord α]

def insertInto (a : α) : List α → List α
  | [] => [a]
  | b :: rest =>
    match compare a b with
    | .lt => a :: b :: rest
    | .eq => b :: rest
    | .gt => b :: insertInto a rest

theorem mem_of_mem_insertInto {a b : α} {l : List α} (h : b ∈ insertInto a l) :
    b = a ∨ b ∈ l := by
  induction l with
  | nil => simpa [insertInto] using h
  | cons c rest ih =>
    unfold insertInto at h
    split at h
    · simpa using h
    · exact .inr h
    · rcases List.mem_cons.1 h with rfl | h
      · exact .inr (List.mem_cons_self ..)
      · exact (ih h).imp_right (List.mem_cons_of_mem c)

theorem mem_insertInto [Std.LawfulEqOrd α] {a b : α} {l : List α} :
    b ∈ insertInto a l ↔ b = a ∨ b ∈ l := by
  refine ⟨mem_of_mem_insertInto, fun h ↦ ?_⟩
  induction l with
  | nil => simpa [insertInto] using h
  | cons c rest ih =>
    unfold insertInto
    split
    · simpa using h
    · next hc =>
      have : a = c := Std.LawfulEqOrd.eq_of_compare hc
      subst this
      rcases h with rfl | h
      · exact List.mem_cons_self ..
      · exact h
    · rcases h with h | h
      · exact List.mem_cons_of_mem c (ih (.inl h))
      · rcases List.mem_cons.1 h with rfl | h
        · exact List.mem_cons_self ..
        · exact List.mem_cons_of_mem c (ih (.inr h))

theorem pairwise_insertInto [Std.TransOrd α] (a : α) {l : List α}
    (h : l.Pairwise fun a b ↦ compare a b = .lt) :
    (insertInto a l).Pairwise fun a b ↦ compare a b = .lt := by
  induction l with
  | nil => simp [insertInto]
  | cons c rest ih =>
    obtain ⟨hc, hrest⟩ := List.pairwise_cons.1 h
    unfold insertInto
    split
    · next hac =>
      refine List.pairwise_cons.2 ⟨fun b hb ↦ ?_, h⟩
      rcases List.mem_cons.1 hb with rfl | hb
      · exact hac
      · exact Std.TransCmp.lt_trans hac (hc b hb)
    · exact h
    · next hac =>
      refine List.pairwise_cons.2 ⟨fun b hb ↦ ?_, ih hrest⟩
      rcases mem_of_mem_insertInto hb with rfl | hb
      · exact Std.OrientedCmp.lt_of_gt hac
      · exact hc b hb

def empty : OrderedSet α := ⟨[], .nil⟩

instance : EmptyCollection (OrderedSet α) := ⟨empty⟩

instance : Inhabited (OrderedSet α) := ⟨empty⟩

instance : Membership α (OrderedSet α) := ⟨fun s a ↦ a ∈ s.items⟩

theorem mem_def {s : OrderedSet α} {a : α} : a ∈ s ↔ a ∈ s.items := .rfl

@[simp] theorem not_mem_empty (a : α) : a ∉ (∅ : OrderedSet α) := List.not_mem_nil

instance [BEq α] : BEq (OrderedSet α) := ⟨fun s t ↦ s.items == t.items⟩

def isEmpty (s : OrderedSet α) : Bool := s.items.isEmpty

def size (s : OrderedSet α) : Nat := s.items.length

def filter (s : OrderedSet α) (p : α → Bool) : OrderedSet α :=
  ⟨s.items.filter p, s.ascending.filter p⟩

@[simp] theorem mem_filter {s : OrderedSet α} {p : α → Bool} {a : α} :
    a ∈ s.filter p ↔ a ∈ s ∧ p a := List.mem_filter

variable [Std.TransOrd α]

def insert (s : OrderedSet α) (a : α) : OrderedSet α :=
  ⟨insertInto a s.items, pairwise_insertInto a s.ascending⟩

def insertAll (s : OrderedSet α) (l : List α) : OrderedSet α := l.foldl insert s

def ofList (l : List α) : OrderedSet α := insertAll empty l

def union (s t : OrderedSet α) : OrderedSet α := s.insertAll t.items

instance : Union (OrderedSet α) := ⟨union⟩

theorem ne_of_compare_lt {a b : α} (h : compare a b = .lt) : a ≠ b := by
  rintro rfl
  simp [Std.ReflCmp.compare_self] at h

theorem nodup_items (s : OrderedSet α) : s.items.Nodup := s.ascending.imp ne_of_compare_lt

/-- Sets with the same members are equal. -/
theorem ext_mem {s t : OrderedSet α} (h : ∀ a, a ∈ s ↔ a ∈ t) : s = t := by
  have hperm : s.items.Perm t.items :=
    (List.perm_ext_iff_of_nodup s.nodup_items t.nodup_items).2 h
  have hitems : s.items = t.items := by
    refine hperm.eq_of_pairwise ?_ s.ascending t.ascending
    intro a b _ _ hab hba
    exact absurd rfl (ne_of_compare_lt (Std.TransCmp.lt_trans hab hba))
  obtain ⟨l, hl⟩ := s
  obtain rfl : l = t.items := hitems
  rfl

variable [Std.LawfulEqOrd α]

@[simp] theorem mem_insert {s : OrderedSet α} {a b : α} : b ∈ s.insert a ↔ b = a ∨ b ∈ s :=
  mem_insertInto

@[simp] theorem mem_insertAll {s : OrderedSet α} {l : List α} {b : α} :
    b ∈ s.insertAll l ↔ b ∈ l ∨ b ∈ s := by
  induction l generalizing s with
  | nil => simp [insertAll]
  | cons a rest ih =>
    have h : b ∈ (s.insert a).insertAll rest ↔ b ∈ rest ∨ b ∈ s.insert a := ih
    rw [mem_insert] at h
    rw [List.mem_cons, or_assoc, or_left_comm]
    exact h

@[simp] theorem mem_ofList {l : List α} {b : α} : b ∈ ofList l ↔ b ∈ l := by
  have h := mem_insertAll (s := empty) (l := l) (b := b)
  exact h.trans (or_iff_left List.not_mem_nil)

@[simp] theorem mem_union {s t : OrderedSet α} {b : α} : b ∈ s ∪ t ↔ b ∈ s ∨ b ∈ t :=
  mem_insertAll.trans or_comm

theorem union_assoc (s t u : OrderedSet α) : s ∪ t ∪ u = s ∪ (t ∪ u) := by
  apply ext_mem
  intro a
  rw [mem_union, mem_union, mem_union, mem_union, or_assoc]

end OrderedSet

end RpcStubs
