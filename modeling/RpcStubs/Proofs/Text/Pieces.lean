import Mathlib.Tactic.Common
import RpcStubs.Code.Comment
import RpcStubs.Schema.Registry

namespace RpcStubs.Text

variable {sep : Char} {s : List Char}

theorem pieces_ne_nil (sep : Char) (s : List Char) : pieces sep s ≠ [] := by
  cases s with
  | nil => simp [pieces]
  | cons c s =>
    rw [pieces]
    split_ifs
    · simp
    · split <;> simp

theorem pieces_cons_of_ne {c : Char} (hc : c ≠ sep) {p : List Char} {ps : List (List Char)}
    (h : pieces sep s = p :: ps) : pieces sep (c :: s) = (c :: p) :: ps := by
  rw [pieces, if_neg hc, h]

theorem pieces_append (sep : Char) (a b : List Char) :
    pieces sep (a ++ sep :: b) = pieces sep a ++ pieces sep b := by
  induction a with
  | nil => simp [pieces]
  | cons c a ih =>
    by_cases hc : c = sep
    · rw [List.cons_append, pieces, if_pos hc, ih, pieces, if_pos hc, List.cons_append]
    · obtain ⟨p, ps, hp⟩ := List.exists_cons_of_ne_nil (pieces_ne_nil sep a)
      rw [hp, List.cons_append] at ih
      rw [List.cons_append, pieces_cons_of_ne hc ih, pieces_cons_of_ne hc hp, List.cons_append]

theorem pieces_of_not_mem (h : sep ∉ s) : pieces sep s = [s] := by
  induction s with
  | nil => rfl
  | cons c s ih =>
    simp only [List.mem_cons, not_or] at h
    exact pieces_cons_of_ne (Ne.symm h.1) (ih h.2)

theorem intercalate_pieces (sep : Char) (s : List Char) :
    List.intercalate [sep] (pieces sep s) = s := by
  induction s with
  | nil => rfl
  | cons c s ih =>
    obtain ⟨p, ps, hp⟩ := List.exists_cons_of_ne_nil (pieces_ne_nil sep s)
    by_cases hc : c = sep
    · rw [pieces, if_pos hc, List.intercalate_cons_of_ne_nil (pieces_ne_nil sep s), ih, hc]
      rfl
    · rw [pieces_cons_of_ne hc hp]
      rw [hp] at ih
      cases ps with
      | nil => simpa using ih
      | cons q ps =>
        rw [List.intercalate_cons_cons] at ih ⊢
        rw [← ih]
        simp

theorem not_mem_of_mem_pieces {p : List Char} (h : p ∈ pieces sep s) : sep ∉ p := by
  induction s generalizing p with
  | nil =>
    obtain rfl : p = [] := by simpa [pieces] using h
    simp
  | cons c s ih =>
    obtain ⟨q, qs, hq⟩ := List.exists_cons_of_ne_nil (pieces_ne_nil sep s)
    by_cases hc : c = sep
    · rw [pieces, if_pos hc] at h
      rcases List.mem_cons.1 h with rfl | h
      · simp
      · exact ih h
    · rw [pieces_cons_of_ne hc hq] at h
      rw [hq] at ih
      rcases List.mem_cons.1 h with rfl | h
      · simp [Ne.symm hc, ih List.mem_cons_self]
      · exact ih (List.mem_cons_of_mem q h)

theorem exists_getLast?_pieces {c : Char} (hc : s.getLast? = some c) (hs : c ≠ sep) :
    ∃ p, (pieces sep s).getLast? = some p ∧ p.getLast? = some c := by
  induction s with
  | nil => cases hc
  | cons d s ih =>
    cases s with
    | nil =>
      obtain rfl : d = c := by simpa using hc
      exact ⟨[d], by simp [pieces, hs], rfl⟩
    | cons e s =>
      obtain ⟨p, hp, hpc⟩ := ih (by simpa using hc)
      obtain ⟨q, qs, hq⟩ := List.exists_cons_of_ne_nil (pieces_ne_nil sep (e :: s))
      by_cases hd : d = sep
      · refine ⟨p, ?_, hpc⟩
        rw [pieces, if_pos hd, List.getLast?_cons, hp]
        rfl
      · rw [pieces_cons_of_ne hd hq]
        rw [hq] at hp
        cases qs with
        | nil =>
          obtain rfl : q = p := by simpa using hp
          refine ⟨d :: q, rfl, ?_⟩
          rw [List.getLast?_cons, hpc]
          rfl
        | cons r qs => exact ⟨p, by simpa using hp, hpc⟩

theorem pieces_intercalate {ts : List (List Char)} (hne : ts ≠ []) (h : ∀ t ∈ ts, sep ∉ t) :
    pieces sep (List.intercalate [sep] ts) = ts := by
  induction ts with
  | nil => exact absurd rfl hne
  | cons t ts ih =>
    have ht := pieces_of_not_mem (h t List.mem_cons_self)
    cases ts with
    | nil => simpa using ht
    | cons u ts =>
      rw [List.intercalate_cons_cons, List.append_assoc, List.singleton_append, pieces_append, ht,
        ih (by simp) fun v hv ↦ h v (List.mem_cons_of_mem t hv)]
      rfl

/-- What texts have in common, and what goes over to two of them with a separator between them. -/
theorem intercalate_closed {P : List Char → Prop} {sep : List Char}
    (hsep : ∀ a b, P a → P b → P (a ++ (sep ++ b))) {texts : List (List Char)} (hne : texts ≠ [])
    (h : ∀ t ∈ texts, P t) : P (List.intercalate sep texts) := by
  induction texts with
  | nil => exact absurd rfl hne
  | cons t texts ih =>
    rw [List.forall_mem_cons] at h
    cases texts with
    | nil => simpa using h.1
    | cons u texts =>
      rw [List.intercalate_cons_cons, List.append_assoc]
      exact hsep t _ h.1 (ih (by simp) h.2)

theorem toList_intercalate_closed {P : List Char → Prop} {sep : String}
    (hsep : ∀ a b, P a → P b → P (a ++ (sep.toList ++ b))) {texts : List String} (hne : texts ≠ [])
    (h : ∀ t ∈ texts, P t.toList) : P (sep.intercalate texts).toList := by
  rw [String.toList_intercalate]
  refine intercalate_closed hsep (by simpa using hne) fun t ht ↦ ?_
  obtain ⟨s, hs, rfl⟩ := List.mem_map.1 ht
  exact h s hs

theorem intercalate_append (sep : List Char) {a b : List (List Char)} (ha : a ≠ []) (hb : b ≠ []) :
    List.intercalate sep (a ++ b) = List.intercalate sep a ++ (sep ++ List.intercalate sep b) := by
  induction a with
  | nil => exact absurd rfl ha
  | cons t a ih =>
    cases a with
    | nil => rw [List.singleton_append, List.intercalate_cons_of_ne_nil hb,
        List.intercalate_singleton, List.append_assoc]
    | cons u a =>
      rw [List.cons_append, List.intercalate_cons_of_ne_nil (by simp), ih (by simp),
        List.intercalate_cons_cons]
      simp

theorem isBlank_of_mem_wordsAux {w : List Char} (h : w ∈ (wordsAux s).2) :
    ∀ c ∈ w, isBlank c = false := by
  induction s generalizing w with
  | nil => cases h
  | cons d s ih =>
    rw [wordsAux] at h
    generalize hr : wordsAux s = r at h ih
    obtain ⟨inWord, ws⟩ := r
    simp only at h
    split_ifs at h with hd hw
    · exact ih h
    · cases ws with
      | nil =>
        obtain rfl : w = [d] := by simpa using h
        simpa using hd
      | cons v ws =>
        rcases List.mem_cons.1 h with rfl | h
        · intro c hc
          rcases List.mem_cons.1 hc with rfl | hc
          · simpa using hd
          · exact ih List.mem_cons_self c hc
        · exact ih (List.mem_cons_of_mem v h)
    · rcases List.mem_cons.1 h with rfl | h
      · simpa using hd
      · exact ih h

theorem wordsAux_cons (c : Char) (s : List Char) :
    wordsAux (c :: s) =
      if isBlank c then (false, (wordsAux s).2)
      else if (wordsAux s).1 then
        match (wordsAux s).2 with
        | w :: ws => (true, (c :: w) :: ws)
        | [] => (true, [[c]])
      else (true, [c] :: (wordsAux s).2) := rfl

theorem exists_cons_of_inWord (h : (wordsAux s).1 = true) :
    ∃ w ws, (wordsAux s).2 = w :: ws := by
  cases s with
  | nil => cases h
  | cons c s =>
    rw [wordsAux_cons] at h ⊢
    split_ifs at h ⊢ with hblank hword
    · split
      · exact ⟨_, _, rfl⟩
      · exact ⟨_, _, rfl⟩
    · exact ⟨_, _, rfl⟩

/-- A blank parts the words before it from those behind it. -/
theorem words_append (a : List Char) {c : Char} (hc : isBlank c = true) (b : List Char) :
    words (a ++ c :: b) = words a ++ words b := by
  have hpair : wordsAux (a ++ c :: b) = ((wordsAux a).1, (wordsAux a).2 ++ (wordsAux b).2) := by
    induction a with
    | nil => rw [List.nil_append, wordsAux_cons, if_pos hc]; rfl
    | cons d a ih =>
      rw [List.cons_append, wordsAux_cons, ih, wordsAux_cons]
      cases hword : (wordsAux a).1 with
      | false => cases isBlank d <;> rfl
      | true =>
        obtain ⟨w, ws, hws⟩ := exists_cons_of_inWord hword
        rw [hws]
        cases isBlank d <;> rfl
  rw [words, hpair]
  rfl

theorem words_blank {c : Char} (hc : isBlank c = true) (s : List Char) :
    words (c :: s) = words s := words_append [] hc s

theorem words_of_solid {w : List Char} (hne : w ≠ []) (h : ∀ c ∈ w, isBlank c = false) :
    words w = [w] := by
  have hpair : wordsAux w = (true, [w]) := by
    induction w with
    | nil => exact absurd rfl hne
    | cons c w ih =>
      rw [List.forall_mem_cons] at h
      rw [wordsAux_cons, h.1]
      cases w with
      | nil => rfl
      | cons d w =>
        rw [ih (by simp) h.2]
        rfl
  rw [words, hpair]

theorem words_intercalate {ws : List (List Char)} (hne : [] ∉ ws)
    (h : ∀ w ∈ ws, ∀ c ∈ w, isBlank c = false) : words (List.intercalate [' '] ws) = ws := by
  induction ws with
  | nil => rfl
  | cons w ws ih =>
    simp only [List.mem_cons, not_or] at hne
    have hw := words_of_solid (Ne.symm hne.1) (h w List.mem_cons_self)
    cases ws with
    | nil => simpa using hw
    | cons v ws =>
      rw [List.intercalate_cons_cons, List.append_assoc, List.singleton_append,
        words_append w (by decide), hw, ih hne.2 fun u hu ↦ h u (List.mem_cons_of_mem w hu)]
      rfl

section Groups

variable {α : Type} {size room : Nat} {current l group : List α}

theorem chunksFrom_ne_nil (h : current ≠ [] ∨ l ≠ []) : chunksFrom size room current l ≠ [] := by
  induction l generalizing room current with
  | nil =>
    rw [chunksFrom, if_neg (by simpa using h)]
    simp
  | cons a l ih =>
    cases room with
    | zero => simp [chunksFrom]
    | succ room =>
      rw [chunksFrom]
      exact ih (.inl (by simp))

theorem chunks_ne_nil (h : l ≠ []) : chunks size l ≠ [] := chunksFrom_ne_nil (.inr h)

theorem flatten_chunksFrom (size room : Nat) (current l : List α) :
    (chunksFrom size room current l).flatten = current.reverse ++ l := by
  induction l generalizing room current with
  | nil =>
    rw [chunksFrom]
    split_ifs with hempty
    · simp [List.isEmpty_iff.1 hempty]
    · simp
  | cons a l ih =>
    cases room with
    | zero => simp [chunksFrom, ih]
    | succ room => simp [chunksFrom, ih]

theorem flatten_chunks (size : Nat) (l : List α) : (chunks size l).flatten = l :=
  flatten_chunksFrom size size [] l

theorem mem_of_mem_chunks (h : group ∈ chunks size l) : ∀ a ∈ group, a ∈ l := by
  intro a ha
  rw [← flatten_chunks size l]
  exact List.mem_flatten_of_mem h ha

theorem length_of_mem_chunksFrom (hsize : 0 < size) (h : current.length + room = size)
    (hg : group ∈ chunksFrom size room current l) : 0 < group.length ∧ group.length ≤ size := by
  induction l generalizing room current with
  | nil =>
    rw [chunksFrom] at hg
    split_ifs at hg with hempty
    · cases hg
    · obtain rfl := List.mem_singleton.1 hg
      rw [List.isEmpty_iff, ← ne_eq, ← List.length_pos_iff] at hempty
      rw [List.length_reverse]
      omega
  | cons a l ih =>
    cases room with
    | zero =>
      rw [chunksFrom] at hg
      rcases List.mem_cons.1 hg with rfl | hg
      · rw [List.length_reverse]
        omega
      · exact ih (by rw [List.length_singleton]; omega) hg
    | succ room => exact ih (by rw [List.length_cons]; omega) hg

theorem length_of_mem_dropLast_chunksFrom (hsize : 0 < size) (h : current.length + room = size)
    (hg : group ∈ (chunksFrom size room current l).dropLast) : group.length = size := by
  induction l generalizing room current with
  | nil =>
    rw [chunksFrom] at hg
    split_ifs at hg <;> cases hg
  | cons a l ih =>
    cases room with
    | zero =>
      have hne : chunksFrom size (size - 1) [a] l ≠ [] := chunksFrom_ne_nil (.inl (by simp))
      rw [chunksFrom, List.dropLast_cons_of_ne_nil hne] at hg
      rcases List.mem_cons.1 hg with rfl | hg
      · rw [List.length_reverse]
        omega
      · exact ih (by rw [List.length_singleton]; omega) hg
    | succ room => exact ih (by rw [List.length_cons]; omega) hg

theorem length_of_mem_chunks (hsize : 0 < size) (h : group ∈ chunks size l) :
    0 < group.length ∧ group.length ≤ size :=
  length_of_mem_chunksFrom hsize (Nat.zero_add size) h

theorem length_of_mem_dropLast_chunks (hsize : 0 < size) (h : group ∈ (chunks size l).dropLast) :
    group.length = size :=
  length_of_mem_dropLast_chunksFrom hsize (Nat.zero_add size) h

end Groups

end RpcStubs.Text

namespace RpcStubs

open Text

def Comment.Lined (c : Comment) : Prop := ∀ line ∈ c.lines, '\n' ∉ line.toList

theorem mem_of_mem_intercalate {sep : List Char} {c : Char} {l : List (List Char)}
    (h : c ∈ List.intercalate sep l) : c ∈ sep ∨ ∃ t ∈ l, c ∈ t := by
  induction l with
  | nil => cases h
  | cons t l ih =>
    cases l with
    | nil => exact .inr ⟨t, List.mem_cons_self, by simpa using h⟩
    | cons u l =>
      rw [List.intercalate_cons_cons, List.mem_append, List.mem_append] at h
      rcases h with (h | h) | h
      · exact .inr ⟨t, List.mem_cons_self, h⟩
      · exact .inl h
      · exact (ih h).imp_right fun ⟨v, hv, hc⟩ ↦ ⟨v, List.mem_cons_of_mem t hv, hc⟩

theorem mem_intercalate_of_mem {c : Char} {t : List Char} {l : List (List Char)} (ht : t ∈ l)
    (hc : c ∈ t) (sep : List Char) : c ∈ List.intercalate sep l := by
  induction l with
  | nil => cases ht
  | cons u l ih =>
    cases l with
    | nil =>
      obtain rfl := List.mem_singleton.1 ht
      simpa using hc
    | cons v l =>
      rw [List.intercalate_cons_cons, List.mem_append, List.mem_append]
      rcases List.mem_cons.1 ht with rfl | ht
      · exact .inl (.inl hc)
      · exact .inr (ih ht)

theorem lined_empty : Comment.Lined {} := by simp [Comment.Lined]

theorem lined_wrapped (text : String) : (Comment.wrapped text).Lined := by
  intro line hline
  obtain ⟨group, hg, rfl⟩ := List.mem_map.1 hline
  rw [String.toList_intercalate]
  intro hn
  obtain ⟨t, ht, hn⟩ := (mem_of_mem_intercalate hn).resolve_left (by decide)
  simp only [List.mem_map] at ht
  obtain ⟨_, ⟨w, hw, rfl⟩, rfl⟩ := ht
  rw [String.toList_ofList] at hn
  have hb := isBlank_of_mem_wordsAux (mem_of_mem_chunks hg w hw) _ hn
  exact absurd hb (by decide)

theorem lined_ofLines {lines : List String} (h : ∀ line ∈ lines, '\n' ∉ line.toList) :
    (Comment.ofLines lines).Lined := by
  intro line hline
  obtain ⟨l, hl, rfl⟩ := List.mem_map.1 hline
  intro hn
  rw [String.toList_ofList, trimEnd, List.mem_reverse] at hn
  exact h l hl (List.mem_reverse.1 ((List.dropWhile_sublist _).subset hn))

theorem not_mem_append {c : Char} {a b : String} (ha : c ∉ a.toList) (hb : c ∉ b.toList) :
    c ∉ (a ++ b).toList := by
  rw [String.toList_append, List.mem_append]
  exact not_or.2 ⟨ha, hb⟩

theorem not_mem_ofList {c : Char} {s : List Char} (h : c ∉ s) : c ∉ (String.ofList s).toList := by
  rwa [String.toList_ofList]

theorem mem_of_mem_dropLeadingSpace {c : Char} {line : List Char}
    (h : c ∈ dropLeadingSpace line) : c ∈ line := by
  unfold dropLeadingSpace at h
  split at h
  · exact List.mem_cons_of_mem ' ' h
  · exact h

theorem not_mem_prepareComment {text : String} {lines : List String}
    (h : Schema.prepareComment text = .ok lines) : ∀ line ∈ lines, '\n' ∉ line.toList := by
  simp only [Schema.prepareComment] at h
  split_ifs at h
  cases h
  intro line hline
  obtain ⟨p, hp, rfl⟩ := List.mem_map.1 hline
  rw [String.toList_ofList]
  exact fun hn ↦ not_mem_of_mem_pieces hp (mem_of_mem_dropLeadingSpace hn)

end RpcStubs
