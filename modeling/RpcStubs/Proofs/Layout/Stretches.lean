import RpcStubs.Code.Qualifier
import RpcStubs.Proofs.Code.Words
import RpcStubs.Proofs.Layout.Lines
import RpcStubs.Proofs.Text.Trim

namespace RpcStubs

open Text

def isDotted (c : Char) : Bool := Name.isWordChar c || c == '.'

def stretches (s : List Char) : List (List Char) :=
  (s.splitOnP fun c ↦ !isDotted c).filter fun run ↦ !run.isEmpty

theorem stretches_parted (a b : List Char) {sep : Char} (h : isDotted sep = false) :
    stretches (a ++ sep :: b) = stretches a ++ stretches b := by
  rw [stretches, List.splitOnP_append_cons a b (by simp [h]), List.filter_append]
  rfl

theorem stretches_of_dotted {s : List Char} (h : ∀ c ∈ s, isDotted c = true) (hne : s ≠ []) :
    stretches s = [s] := by
  have hsplit : s.splitOnP (fun c ↦ !isDotted c) = [s] :=
    List.splitOnP_eq_singleton fun c hc ↦ by simp [h c hc]
  rw [stretches, hsplit]
  simpa using hne

def Parting (s : List Char) : Prop := ∀ c ∈ s, isDotted c = false

theorem stretches_lead {lead : List Char} (h : Parting lead) (s : List Char) :
    stretches (lead ++ s) = stretches s := by
  induction lead with
  | nil => rfl
  | cons c lead ih =>
    have hc : stretches (c :: (lead ++ s)) = stretches (lead ++ s) :=
      stretches_parted [] (lead ++ s) (h c List.mem_cons_self)
    rw [List.cons_append, hc, ih fun d hd ↦ h d (List.mem_cons_of_mem c hd)]

theorem stretches_gap {gap : List Char} (h : Parting gap) (hne : gap ≠ []) (a b : List Char) :
    stretches (a ++ gap ++ b) = stretches a ++ stretches b := by
  obtain ⟨c, gap, rfl⟩ := List.exists_cons_of_ne_nil hne
  rw [List.append_assoc, List.cons_append, stretches_parted a _ (h c List.mem_cons_self),
    stretches_lead fun d hd ↦ h d (List.mem_cons_of_mem c hd)]

theorem stretches_trail {trail : List Char} (h : Parting trail) (s : List Char) :
    stretches (s ++ trail) = stretches s := by
  cases trail with
  | nil => rw [List.append_nil]
  | cons c trail =>
    have hgap := stretches_gap h (List.cons_ne_nil c trail) s []
    simpa [stretches] using hgap

theorem isDotted_of_isBlank {c : Char} (h : isBlank c = true) : isDotted c = false := by
  have hword : Name.isWordChar c = false := by
    by_contra hw
    rw [isBlank_of_isWordChar (by simpa using hw)] at h
    cases h
  have hdot : c ≠ '.' := by
    rintro rfl
    revert h
    decide
  rw [isDotted, hword, Bool.false_or, beq_false_of_ne hdot]

/-- Pasts that tell the same about what comes next. -/
structure Before.Alike (b b' : Before) : Prop where
  dot : (b.last == some '.') = (b'.last == some '.')
  selects : b.selects = b'.selects

theorem Before.Alike.push {b b' : Before} (h : b.Alike b') (c : Char) :
    (b.push c).Alike (b'.push c) where
  dot := rfl
  selects := by simp only [Before.selects, Before.push, bne, h.dot]

/-- Behind any character but a dot the scan starts anew. -/
theorem Before.alike_push {c : Char} (hc : c ≠ '.') (b : Before) : (b.push c).Alike {} where
  dot := by simp [Before.push, hc]
  selects := by simp [Before.selects, Before.push, hc]

theorem qualifiersFrom_congr {b b' : Before} (h : b.Alike b') (word : List Char) (member : Bool)
    (found : List String) (s : List Char) :
    qualifiersFrom b word member found s = qualifiersFrom b' word member found s := by
  induction s generalizing b b' word member found with
  | nil => rfl
  | cons c s ih =>
    rw [qualifiersFrom, qualifiersFrom, h.selects]
    split_ifs <;> exact ih (h.push c) _ _ _

theorem qualifiersFrom_found (b : Before) (word : List Char) (member : Bool)
    (found : List String) (s : List Char) :
    qualifiersFrom b word member found s =
      found.reverse ++ qualifiersFrom b word member [] s := by
  induction s generalizing b word member found with
  | nil => simp [qualifiersFrom]
  | cons c s ih =>
    rw [qualifiersFrom, qualifiersFrom]
    split_ifs
    · exact ih _ _ _ _
    · exact ih _ _ _ _
    · exact ih _ _ _ _
    · rw [ih, ih _ _ _ [_]]
      simp
    · exact ih _ _ _ _

theorem startsWord_of_not_isDotted {c : Char} (h : isDotted c = false) : startsWord c = false := by
  by_contra hs
  have hw : Name.isWordChar c = true := isWordChar_of_startsWord (by simpa using hs)
  rw [isDotted, hw] at h
  cases h

theorem qualifiersFrom_sep {sep : Char} (h : isDotted sep = false) (b : Before)
    (word : List Char) (member : Bool) (found : List String) (s : List Char) :
    qualifiersFrom b word member found (sep :: s) = qualifiersFrom {} [] false found s := by
  obtain ⟨hword, hdot⟩ : Name.isWordChar sep = false ∧ sep ≠ '.' := by
    simpa [isDotted] using h
  have hstart := startsWord_of_not_isDotted h
  have hanew := qualifiersFrom_congr (Before.alike_push hdot b) [] false found s
  rw [qualifiersFrom]
  simpa [hword, hdot, hstart] using hanew

/-- One part of the text is scanned like the whole of it. -/
theorem qualifiersFrom_parted {sep : Char} (h : isDotted sep = false) (b : Before)
    (word : List Char) (member : Bool) (found : List String) (a s : List Char) :
    qualifiersFrom b word member found (a ++ sep :: s) =
      qualifiersFrom b word member found a ++ qualifiersFrom {} [] false [] s := by
  induction a generalizing b word member found with
  | nil =>
    rw [List.nil_append, qualifiersFrom_sep h, qualifiersFrom_found]
    rfl
  | cons c a ih =>
    -- a separator tells the scan as little as the end of the text
    have hnext : (a ++ sep :: s).head?.any startsWord = a.head?.any startsWord := by
      cases a with
      | nil => simp [startsWord_of_not_isDotted h]
      | cons d a => rfl
    rw [List.cons_append, qualifiersFrom, qualifiersFrom, hnext]
    split_ifs <;> exact ih _ _ _ _

theorem dotted_cases (s : List Char) :
    (∀ c ∈ s, isDotted c = true) ∨
      ∃ a sep b, s = a ++ sep :: b ∧ isDotted sep = false := by
  by_cases h : ∀ c ∈ s, isDotted c = true
  · exact .inl h
  · push Not at h
    obtain ⟨sep, hs, hsep⟩ := h
    obtain ⟨a, b, rfl⟩ := List.append_of_mem hs
    exact .inr ⟨a, sep, b, rfl, by simpa using hsep⟩

theorem qualifiersFrom_eq_flatMap (s : List Char) :
    qualifiersFrom {} [] false [] s =
      (stretches s).flatMap (qualifiersFrom {} [] false []) := by
  induction hn : s.length using Nat.strongRecOn generalizing s with
  | ind n ih =>
    rcases dotted_cases s with hs | ⟨a, sep, b, rfl, hsep⟩
    · cases s with
      | nil => rfl
      | cons c s => rw [stretches_of_dotted hs (by simp), List.flatMap_singleton]
    · simp only [List.length_append, List.length_cons] at hn
      rw [qualifiersFrom_parted hsep, stretches_parted a b hsep, List.flatMap_append,
        ih a.length (by omega) a rfl, ih b.length (by omega) b rfl]

namespace Layout

theorem codeOnly_append (a b : List Glyph) : codeOnly (a ++ b) = codeOnly a ++ codeOnly b :=
  List.map_append

theorem codeOnly_map_code (s : List Char) : codeOnly (s.map (·, .code)) = s := by
  simp [codeOnly, Function.comp_def]

def codeStretches (gs : List Glyph) : List (List Char) := stretches (codeOnly gs)

theorem usedQualifiers_congr {s t : String} {gs gt : List Glyph} (hs : mark s.toList = .ok gs)
    (ht : mark t.toList = .ok gt) (h : codeStretches gt = codeStretches gs) :
    usedQualifiers t = usedQualifiers s := by
  simp only [usedQualifiers, hs, ht, qualifiersFrom_eq_flatMap]
  rw [← codeStretches, ← codeStretches, h]

/-- Blanks part stretches, be they code or not. -/
theorem parting_codeOnly {gs : List Glyph} (h : Blanks (glyphText gs)) : Parting (codeOnly gs) := by
  intro c hc
  obtain ⟨g, hg, rfl⟩ := List.mem_map.1 hc
  by_cases hr : g.2 = .code
  · simpa [hr] using isDotted_of_isBlank (h g.1 (List.mem_map_of_mem hg))
  · simp only [hr, if_false]
    decide

theorem codeStretches_trim {lead core trail : List Glyph} (hl : Blanks (glyphText lead))
    (ht : Blanks (glyphText trail)) :
    codeStretches (lead ++ core ++ trail) = codeStretches core := by
  rw [codeStretches, codeOnly_append, codeOnly_append, stretches_trail (parting_codeOnly ht),
    stretches_lead (parting_codeOnly hl)]
  rfl

theorem codeStretches_gap {gap : List Glyph} (h : Blanks (glyphText gap)) (hne : gap ≠ [])
    (a b : List Glyph) :
    codeStretches (a ++ gap ++ b) = codeStretches a ++ codeStretches b := by
  rw [codeStretches, codeOnly_append, codeOnly_append,
    stretches_gap (parting_codeOnly h) (by simpa [codeOnly] using hne)]
  rfl

theorem codeStretches_line (a b : List Glyph) (r : Region) :
    codeStretches (a ++ ('\n', r) :: b) = codeStretches a ++ codeStretches b := by
  have hnewline : Blanks (glyphText [('\n', r)]) := blanks_singleton rfl
  have hgap := codeStretches_gap hnewline (List.cons_ne_nil _ _) a b
  rwa [List.append_assoc] at hgap

/-- The newline between two lines parts them. -/
theorem codeStretches_cutLines (v : Bool) (gs : List Glyph) :
    codeStretches gs = (cutLines v [] gs).flatMap fun l ↦ codeStretches l.glyphs := by
  induction hn : gs.length using Nat.strongRecOn generalizing v gs with
  | ind n ih =>
    rcases newline_cases gs with hs | ⟨a, r, b, rfl, ha⟩
    · rw [cutLines_last hs]
      split_ifs with he
      · rw [he]
        rfl
      · rw [List.flatMap_singleton]
    · simp only [List.length_append, List.length_cons] at hn
      rw [cutLines_line ha, List.flatMap_cons, ← ih b.length (by omega) r.spansLines b rfl,
        codeStretches_line]

end Layout

end RpcStubs
