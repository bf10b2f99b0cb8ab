import RpcStubs.Code.Layout.Line
import RpcStubs.Proofs.Layout.Marked

namespace RpcStubs.Layout

open Text

/-- Where the line after one that ends in this region starts. Literals cannot be broken. -/
def Region.nextLine : Region → Option Region
  | .code | .lineComment => some .code
  | .blockComment => some .blockComment
  | .rawStr => some .rawStr
  | .str | .rune => none

theorem read_newline (r : Region) (next : Option Char) :
    (Mode.inside r).read '\n' next = r.nextLine.map fun r' ↦ (r', .inside r') := by
  cases r with
  | code => simp [Mode.read, readCode, Region.nextLine, Region.delimiter]
  | lineComment => simp [Mode.read, Region.nextLine]
  | blockComment => simp [Mode.read, Region.nextLine]
  | rawStr => simp [Mode.read, Region.nextLine, Region.delimiter]
  | str => simp [Mode.read, readLiteral, Region.nextLine]
  | rune => simp [Mode.read, readLiteral, Region.nextLine]

theorem nextLine_nextLine {r r' : Region} (h : r.nextLine = some r') : r'.nextLine = some r' := by
  cases r <;> cases h <;> rfl

theorem not_literal_of_nextLine {r r' : Region} (h : r.nextLine = some r') :
    r ≠ .str ∧ r ≠ .rune := by
  constructor <;> (rintro rfl; cases h)

/-- One line, read from `r`; the next line starts in `r'`. -/
structure LineMarked (r : Region) (gs : List Glyph) (r' : Region) : Prop where
  single : '\n' ∉ glyphText gs
  marked : ∃ q, Marked none (.inside r) gs (.inside q) ∧ q.nextLine = some r'

/-- Lines of which each starts where the line before it leads; after the last one there is
code. -/
inductive LinesMarked : Region → List MarkedLine → Prop
  | nil : LinesMarked .code []
  | cons {r r' : Region} {l : MarkedLine} {ls : List MarkedLine} :
      l.verbatim = r.spansLines → LineMarked r l.glyphs r' → LinesMarked r' ls →
      LinesMarked r (l :: ls)

theorem MarkedLine.text_eq (l : MarkedLine) : l.text = glyphText l.glyphs := rfl

theorem cutLines_append {a : List Glyph} (ha : '\n' ∉ glyphText a) (v : Bool)
    (current b : List Glyph) :
    cutLines v current (a ++ b) = cutLines v (a.reverse ++ current) b := by
  induction a generalizing current with
  | nil => rfl
  | cons g a ih =>
    simp only [glyphText_cons, List.mem_cons, not_or] at ha
    rw [List.cons_append, cutLines, if_neg (Ne.symm ha.1), ih ha.2]
    simp

theorem cutLines_line {a : List Glyph} (ha : '\n' ∉ glyphText a) (v : Bool) (r : Region)
    (b : List Glyph) :
    cutLines v [] (a ++ ('\n', r) :: b) = ⟨v, a⟩ :: cutLines r.spansLines [] b := by
  rw [cutLines_append ha, cutLines, if_pos rfl]
  simp

theorem cutLines_last {a : List Glyph} (ha : '\n' ∉ glyphText a) (v : Bool) :
    cutLines v [] a = if a = [] then [] else [⟨v, a⟩] := by
  have h := cutLines_append ha v [] []
  rw [List.append_nil, List.append_nil] at h
  rw [h, cutLines, List.reverse_reverse]
  simp

theorem newline_cases (gs : List Glyph) :
    '\n' ∉ glyphText gs ∨
      ∃ a r b, gs = a ++ ('\n', r) :: b ∧ '\n' ∉ glyphText a := by
  induction gs with
  | nil => exact .inl (by simp)
  | cons g gs ih =>
    by_cases hg : g.1 = '\n'
    · exact .inr ⟨[], g.2, gs, by rw [← hg]; rfl, by simp⟩
    · rcases ih with h | ⟨a, r, b, rfl, ha⟩
      · exact .inl (by simp [h, Ne.symm hg])
      · exact .inr ⟨g :: a, r, b, rfl, by simp [ha, Ne.symm hg]⟩

theorem marked_line {r r₂ : Region} {a b : List Glyph} {m : Mode} :
    Marked none (.inside r) (a ++ ('\n', r₂) :: b) m ↔
      (∃ q, Marked none (.inside r) a (.inside q) ∧ q.nextLine = some r₂) ∧
        Marked none (.inside r₂) b m := by
  rw [marked_append]
  constructor
  · rintro ⟨m', ha, hb⟩
    have ha' : Marked none (.inside r) a m' := ha.congr_next sameNext_none_newline.symm
    obtain ⟨q, rfl⟩ := ha'.inside_of_none
    cases hb with
    | cons hr hb =>
      rw [read_newline] at hr
      obtain ⟨r', hq, he⟩ := Option.map_eq_some_iff.1 hr
      cases he
      exact ⟨⟨q, ha', hq⟩, hb⟩
  · rintro ⟨⟨q, ha, hq⟩, hb⟩
    refine ⟨.inside q, ha.congr_next sameNext_none_newline, .cons ?_ hb⟩
    rw [read_newline, hq]
    rfl

theorem linesMarked_cutLines {r q : Region} {gs : List Glyph} (hr : r.nextLine = some r)
    (h : Marked none (.inside r) gs (.inside q)) (hq : q.nextLine = some .code) :
    LinesMarked r (cutLines r.spansLines [] gs) := by
  induction hn : gs.length using Nat.strongRecOn generalizing r gs with
  | ind n ih =>
    rcases newline_cases gs with hs | ⟨a, r₂, b, rfl, ha⟩
    · rw [cutLines_last hs]
      split_ifs with he
      · subst he
        cases h
        rw [hr, Option.some_inj] at hq
        exact hq ▸ .nil
      · exact .cons rfl ⟨hs, q, h, hq⟩ .nil
    · obtain ⟨⟨q', hm, hq'⟩, hb⟩ := marked_line.1 h
      rw [cutLines_line ha]
      refine .cons rfl ⟨ha, q', hm, hq'⟩ (ih b.length ?_ (nextLine_nextLine hq') hb rfl)
      simp only [List.length_append, List.length_cons] at hn
      omega

def joinLines (texts : List (List Char)) : List Char := texts.flatMap (· ++ ['\n'])

@[simp] theorem joinLines_nil : joinLines [] = [] := rfl

@[simp] theorem joinLines_cons (t : List Char) (ts : List (List Char)) :
    joinLines (t :: ts) = t ++ '\n' :: joinLines ts := by simp [joinLines]

theorem joinLines_append (a b : List (List Char)) :
    joinLines (a ++ b) = joinLines a ++ joinLines b := List.flatMap_append

theorem exists_marked_joinLines {r : Region} {ls : List MarkedLine} (h : LinesMarked r ls) :
    ∃ gs, glyphText gs = joinLines (ls.map MarkedLine.text) ∧
      Marked none (.inside r) gs (.inside .code) ∧ cutLines r.spansLines [] gs = ls := by
  induction h with
  | nil => exact ⟨[], rfl, .nil _, rfl⟩
  | @cons r r' l ls hv hl _ ih =>
    obtain ⟨gs, ht, hm, hc⟩ := ih
    refine ⟨l.glyphs ++ ('\n', r') :: gs, ?_, marked_line.2 ⟨hl.marked, hm⟩, ?_⟩
    · simp [ht, MarkedLine.text_eq]
    · rw [cutLines_line hl.single, hc, ← hv]

theorem endFault?_inside_eq_none_iff {opened : Nat} {q : Region} :
    (Mode.inside q).endFault? opened = none ↔ q.nextLine = some .code := by
  cases q <;> simp [Mode.endFault?, Region.nextLine]

theorem markFrom_eq_ok_iff {m : Mode} {opened line : Nat} {done gs : List Glyph} {s : List Char} :
    markFrom m opened line done s = .ok gs ↔
      ∃ rest m', gs = done.reverse ++ rest ∧ glyphText rest = s ∧ Marked none m rest m' ∧
        m'.endFault? 0 = none := by
  have hend (m : Mode) (k : Nat) : m.endFault? k = none ↔ m.endFault? 0 = none := by
    rcases m with (_ | _) | (_ | _) | _ | _ <;> simp [Mode.endFault?]
  induction s generalizing m opened line done with
  | nil =>
    rw [markFrom]
    constructor
    · intro h
      split at h
      · next he =>
        cases h
        exact ⟨[], m, by simp, rfl, .nil m, (hend m opened).1 he⟩
      · cases h
    · rintro ⟨rest, m', rfl, hr, hm, he⟩
      obtain rfl := glyphText_eq_nil.1 hr
      cases hm
      rw [(hend m opened).2 he]
      simp
  | cons c s ih =>
    rw [markFrom]
    constructor
    · intro h
      split at h
      · cases h
      · next r m₁ hr =>
        obtain ⟨rest, m', rfl, rfl, hm, he⟩ := ih.1 h
        refine ⟨(c, r) :: rest, m', by simp, rfl, .cons ?_ hm, he⟩
        cases rest <;> exact hr
    · rintro ⟨rest, m', rfl, hr, hm, he⟩
      cases hm with
      | nil => simp at hr
      | @cons _ m₁ _ d r rest hread hm =>
        obtain ⟨rfl, rfl⟩ : d = c ∧ glyphText rest = s := by simpa using hr
        have hh : m.read d (glyphText rest).head? = some (r, m₁) := by
          cases rest <;> exact hread
        rw [hh]
        exact ih.2 ⟨rest, m', by simp, rfl, hm, he⟩

theorem mark_eq_ok_iff {s : List Char} {gs : List Glyph} :
    mark s = .ok gs ↔ glyphText gs = s ∧
      ∃ q, Marked none (.inside .code) gs (.inside q) ∧ q.nextLine = some .code := by
  rw [mark, markFrom_eq_ok_iff]
  constructor
  · rintro ⟨rest, m', rfl, ht, hm, he⟩
    obtain ⟨q, rfl⟩ := hm.inside_of_none
    exact ⟨ht, q, hm, endFault?_inside_eq_none_iff.1 he⟩
  · rintro ⟨ht, q, hm, hq⟩
    exact ⟨gs, .inside q, rfl, ht, hm, endFault?_inside_eq_none_iff.2 hq⟩

/-- Texts that begin and end in code can be put below one another. -/
theorem mark_line {a b : List Char} {ga gb : List Glyph} (ha : mark a = .ok ga)
    (hb : mark b = .ok gb) : mark (a ++ '\n' :: b) = .ok (ga ++ ('\n', .code) :: gb) := by
  obtain ⟨rfl, q, hqa, hq⟩ := mark_eq_ok_iff.1 ha
  obtain ⟨rfl, q', hqb, hq'⟩ := mark_eq_ok_iff.1 hb
  exact mark_eq_ok_iff.2 ⟨by simp, q', marked_line.2 ⟨⟨q, hqa, hq⟩, hqb⟩, hq'⟩

theorem exists_mark_of_newline {s : List Char} {gs : List Glyph} (h : mark (s ++ ['\n']) = .ok gs) :
    ∃ gs', mark s = .ok gs' ∧ gs = gs' ++ [('\n', .code)] := by
  obtain ⟨ht, q, hm, hq⟩ := mark_eq_ok_iff.1 h
  obtain ⟨gs, gb, rfl, rfl, htb⟩ := exists_of_glyphText_eq_append ht
  obtain ⟨⟨c, r⟩, gb, rfl, hc, hnil⟩ := List.map_eq_cons_iff.1 htb
  obtain rfl : c = '\n' := hc
  obtain rfl : gb = [] := List.map_eq_nil_iff.1 hnil
  obtain ⟨⟨p, hmp, hp⟩, hend⟩ := marked_line.1 hm
  obtain rfl : r = .code := by
    cases hend
    exact Option.some_inj.1 ((nextLine_nextLine hp).symm.trans hq)
  exact ⟨gs, mark_eq_ok_iff.2 ⟨rfl, p, hmp, hp⟩, rfl⟩

theorem linesMarked_of_mark {s : List Char} {gs : List Glyph} (h : mark s = .ok gs) :
    LinesMarked .code (cutLines false [] gs) := by
  obtain ⟨-, q, hm, hq⟩ := mark_eq_ok_iff.1 h
  exact linesMarked_cutLines rfl hm hq

theorem exists_mark_joinLines {ls : List MarkedLine} (h : LinesMarked .code ls) :
    ∃ gs, mark (joinLines (ls.map MarkedLine.text)) = .ok gs ∧ cutLines false [] gs = ls := by
  obtain ⟨gs, ht, hm, hc⟩ := exists_marked_joinLines h
  exact ⟨gs, mark_eq_ok_iff.2 ⟨ht, .code, hm, rfl⟩, hc⟩

end RpcStubs.Layout
