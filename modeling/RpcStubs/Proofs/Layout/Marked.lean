import Mathlib.Data.List.Basic
import Mathlib.Tactic.Common
import RpcStubs.Code.Layout.Region
import RpcStubs.Text.Blank

namespace RpcStubs.Layout

open Text

def glyphText (gs : List Glyph) : List Char := gs.map Prod.fst

@[simp] theorem glyphText_nil : glyphText [] = [] := rfl

@[simp] theorem glyphText_cons (g : Glyph) (gs : List Glyph) :
    glyphText (g :: gs) = g.1 :: glyphText gs := rfl

@[simp] theorem glyphText_append (a b : List Glyph) :
    glyphText (a ++ b) = glyphText a ++ glyphText b := List.map_append

@[simp] theorem glyphText_eq_nil {gs : List Glyph} : glyphText gs = [] ↔ gs = [] :=
  List.map_eq_nil_iff

theorem exists_of_glyphText_eq_append {gs : List Glyph} {a b : List Char}
    (h : glyphText gs = a ++ b) :
    ∃ ga gb, gs = ga ++ gb ∧ glyphText ga = a ∧ glyphText gb = b := by
  obtain ⟨ga, gb, rfl, rfl, rfl⟩ := List.map_eq_append_iff.1 h
  exact ⟨ga, gb, rfl, rfl, rfl⟩

def upcoming (gs : List Glyph) (next : Option Char) : Option Char :=
  match gs with
  | [] => next
  | g :: _ => some g.1

@[simp] theorem upcoming_nil (next : Option Char) : upcoming [] next = next := rfl

@[simp] theorem upcoming_cons (g : Glyph) (gs : List Glyph) (next : Option Char) :
    upcoming (g :: gs) next = some g.1 := rfl

theorem upcoming_append (a b : List Glyph) (next : Option Char) :
    upcoming (a ++ b) next = upcoming a (upcoming b next) := by cases a <;> rfl

/-- Reading the characters of `gs`, with `next` after them, gives their regions and leads from one
mode to the other. -/
inductive Marked (next : Option Char) : Mode → List Glyph → Mode → Prop
  | nil (m : Mode) : Marked next m [] m
  | cons {m m' m'' : Mode} {c : Char} {r : Region} {gs : List Glyph} :
      m.read c (upcoming gs next) = some (r, m') → Marked next m' gs m'' →
      Marked next m ((c, r) :: gs) m''

theorem marked_append {next : Option Char} {m m'' : Mode} {a b : List Glyph} :
    Marked next m (a ++ b) m'' ↔ ∃ m', Marked (upcoming b next) m a m' ∧ Marked next m' b m'' := by
  constructor
  · intro h
    induction a generalizing m with
    | nil => exact ⟨m, .nil m, h⟩
    | cons g a ih =>
      cases h with
      | cons hr h =>
        obtain ⟨m', ha, hb⟩ := ih h
        rw [List.append_eq, upcoming_append] at hr
        exact ⟨m', .cons hr ha, hb⟩
  · rintro ⟨m', ha, hb⟩
    induction ha with
    | nil => exact hb
    | cons hr _ ih =>
      refine .cons ?_ (ih hb)
      rwa [List.append_eq, upcoming_append]

theorem Marked.append {next : Option Char} {m m' m'' : Mode} {a b : List Glyph}
    (ha : Marked (upcoming b next) m a m') (hb : Marked next m' b m'') :
    Marked next m (a ++ b) m'' := marked_append.2 ⟨m', ha, hb⟩

theorem Marked.unique {next : Option Char} {m m₁ m₂ : Mode} {a b : List Glyph}
    (ha : Marked next m a m₁) (hb : Marked next m b m₂) (h : glyphText a = glyphText b) :
    a = b ∧ m₁ = m₂ := by
  induction ha generalizing b with
  | nil =>
    obtain rfl := glyphText_eq_nil.1 h.symm
    cases hb
    exact ⟨rfl, rfl⟩
  | @cons m m' m'' c r gs hr hs ih =>
    cases hb with
    | nil => simp at h
    | @cons _ n' _ d r' gs' hr' hs' =>
      obtain ⟨rfl, ht⟩ : c = d ∧ glyphText gs = glyphText gs' := by simpa using h
      have hu : upcoming gs next = upcoming gs' next := by
        cases gs <;> cases gs' <;> simp_all
      rw [hu, hr'] at hr
      obtain ⟨rfl, rfl⟩ : r' = r ∧ n' = m' := by simpa using hr
      obtain ⟨rfl, rfl⟩ := ih hs' ht
      exact ⟨rfl, rfl⟩

/-- What may come next: a mode in the middle of a marker or an escape was entered by looking
ahead. -/
def Mode.Fits : Mode → Option Char → Prop
  | .inside _, _ => True
  | .opening _, next => next = some '/' ∨ next = some '*'
  | .closing, next => next = some '/'
  | .escaped r, next => (r = .str ∨ r = .rune) ∧ ∃ c, next = some c ∧ c ≠ '\n'

theorem readLiteral_fits {r r' : Region} {c : Char} {next : Option Char} {m : Mode}
    (hr : r = .str ∨ r = .rune) (h : readLiteral r c next = some (r', m)) : m.Fits next := by
  unfold readLiteral at h
  split at h
  · cases h
  split at h
  · next hc =>
    obtain ⟨rfl, rfl⟩ : r = r' ∧ Mode.escaped r = m := by simpa using h
    obtain ⟨-, hn⟩ := hc
    cases next with
    | none => simp at hn
    | some n => exact ⟨hr, n, rfl, by simpa using hn⟩
  split at h <;>
  · obtain ⟨-, rfl⟩ : r = r' ∧ _ = m := by simpa using h
    trivial

theorem readCode_fits (c : Char) (next : Option Char) : (readCode c next).2.Fits next := by
  unfold readCode
  split
  · next h => exact .inl h.2
  split
  · next h => exact .inr h.2
  split_ifs <;> trivial

theorem read_fits {m m' : Mode} {c : Char} {next : Option Char} {r : Region}
    (h : m.read c next = some (r, m')) : m'.Fits next := by
  cases m with
  | inside region =>
    cases region with
    | code =>
      have hc := readCode_fits c next
      rw [Mode.read, Option.some_inj] at h
      rwa [h] at hc
    | lineComment =>
      rw [Mode.read] at h
      split at h <;> (cases h; trivial)
    | blockComment =>
      rw [Mode.read] at h
      split at h
      · next hc => cases h; exact hc.2
      · cases h; trivial
    | rawStr =>
      rw [Mode.read] at h
      obtain ⟨-, rfl⟩ : _ ∧ _ = m' := by simpa using h
      split <;> trivial
    | str => exact readLiteral_fits (.inl rfl) h
    | rune => exact readLiteral_fits (.inr rfl) h
  | opening region => cases h; trivial
  | closing => cases h; trivial
  | escaped region => cases h; trivial

theorem Marked.fits {next : Option Char} {m m' : Mode} {gs : List Glyph}
    (h : Marked next m gs m') (hm : m.Fits (upcoming gs next)) : m'.Fits next := by
  induction h with
  | nil => exact hm
  | cons hr _ ih => exact ih (read_fits hr)

/-- At the end of a line no marker and no escape is under way. -/
theorem Marked.inside_of_none {r : Region} {m : Mode} {gs : List Glyph}
    (h : Marked none (.inside r) gs m) : ∃ r', m = .inside r' := by
  have hf : m.Fits none := h.fits trivial
  cases m with
  | inside r' => exact ⟨r', rfl⟩
  | opening r' => simp [Mode.Fits] at hf
  | closing => simp [Mode.Fits] at hf
  | escaped r' => simp [Mode.Fits] at hf

def Spaces (cs : List Char) : Prop := ∀ c ∈ cs, isBlank c = true ∧ c ≠ '\n'

theorem Spaces.append {a b : List Char} (ha : Spaces a) (hb : Spaces b) : Spaces (a ++ b) :=
  fun c hc ↦ (List.mem_append.1 hc).elim (ha c) (hb c)

theorem Spaces.left {a b : List Char} (h : Spaces (a ++ b)) : Spaces a :=
  fun c hc ↦ h c (List.mem_append_left b hc)

theorem spaces_replicate_space (n : Nat) : Spaces (List.replicate n ' ') := by
  intro c hc
  obtain rfl := List.eq_of_mem_replicate hc
  decide

theorem spaces_replicate_tab (n : Nat) : Spaces (List.replicate n '\t') := by
  intro c hc
  obtain rfl := List.eq_of_mem_replicate hc
  decide

theorem ne_of_isBlank {c d : Char} (hc : isBlank c = true) (hd : isBlank d = false) : c ≠ d := by
  rintro rfl
  rw [hc] at hd
  cases hd

def isPlain (c : Char) : Bool :=
  c != '/' && c != Region.str.delimiter && c != Region.rawStr.delimiter &&
    c != Region.rune.delimiter

theorem isPlain_of_isBlank {c : Char} (h : isBlank c = true) : isPlain c = true := by
  simp only [isPlain, Bool.and_eq_true, bne_iff_ne]
  exact ⟨⟨⟨ne_of_isBlank h (by decide), ne_of_isBlank h (by decide)⟩,
    ne_of_isBlank h (by decide)⟩, ne_of_isBlank h (by decide)⟩

theorem readCode_of_isPlain {c : Char} (h : isPlain c = true) (next : Option Char) :
    readCode c next = (.code, .inside .code) := by
  simp only [isPlain, Bool.and_eq_true, bne_iff_ne] at h
  obtain ⟨⟨⟨h₁, h₂⟩, h₃⟩, h₄⟩ := h
  simp [readCode, h₁, h₂, h₃, h₄]

theorem marked_plain {next : Option Char} {s : List Char} (h : ∀ c ∈ s, isPlain c = true) :
    Marked next (.inside .code) (s.map (·, .code)) (.inside .code) := by
  induction s with
  | nil => exact .nil _
  | cons c s ih =>
    refine .cons ?_ (ih fun d hd ↦ h d (List.mem_cons_of_mem c hd))
    rw [Mode.read, readCode_of_isPlain (h c List.mem_cons_self)]

theorem glyphText_map_pair (cs : List Char) (r : Region) : glyphText (cs.map (·, r)) = cs := by
  simp [glyphText, Function.comp_def]

theorem eq_of_marked_plain {next : Option Char} {gs : List Glyph} {m : Mode}
    (h : Marked next (.inside .code) gs m) (hp : ∀ c ∈ glyphText gs, isPlain c = true) :
    gs = (glyphText gs).map (·, .code) ∧ m = .inside .code :=
  h.unique (marked_plain hp) (glyphText_map_pair _ _).symm

theorem read_inside_space {c : Char} (hc : isBlank c = true) (hn : c ≠ '\n') (r : Region)
    (next : Option Char) : (Mode.inside r).read c next = some (r, .inside r) := by
  have h₁ : c ≠ '*' := ne_of_isBlank hc (by decide)
  have h₂ : c ≠ '\\' := ne_of_isBlank hc (by decide)
  have h₃ : c ≠ r.delimiter := by cases r <;> exact ne_of_isBlank hc (by decide)
  cases r with
  | code => rw [Mode.read, readCode_of_isPlain (isPlain_of_isBlank hc)]
  | lineComment => simp [Mode.read, hn]
  | blockComment => simp [Mode.read, h₁]
  | rawStr => simp [Mode.read, h₃]
  | str => simp [Mode.read, readLiteral, hn, h₂, h₃]
  | rune => simp [Mode.read, readLiteral, hn, h₂, h₃]

def Mode.region : Mode → Region
  | .inside r | .opening r | .escaped r => r
  | .closing => .blockComment

theorem read_space {m : Mode} {c : Char} (hc : isBlank c = true) (hn : c ≠ '\n')
    (hf : m.Fits (some c)) (next : Option Char) :
    m.read c next = some (m.region, .inside m.region) := by
  cases m with
  | inside r => exact read_inside_space hc hn r next
  | opening r =>
    have h₁ : c ≠ '/' := ne_of_isBlank hc (by decide)
    have h₂ : c ≠ '*' := ne_of_isBlank hc (by decide)
    simp [Mode.Fits, h₁, h₂] at hf
  | closing =>
    have h₁ : c ≠ '/' := ne_of_isBlank hc (by decide)
    simp [Mode.Fits, h₁] at hf
  | escaped r => rfl

theorem marked_spaces {next : Option Char} {cs : List Char} (h : Spaces cs) (r : Region) :
    Marked next (.inside r) (cs.map (·, r)) (.inside r) := by
  induction cs with
  | nil => exact .nil _
  | cons c cs ih =>
    obtain ⟨hb, hn⟩ := h c List.mem_cons_self
    exact .cons (read_inside_space hb hn r _) (ih fun d hd ↦ h d (List.mem_cons_of_mem c hd))

theorem marked_spaces_of_fits {next : Option Char} {c : Char} {cs : List Char} {m : Mode}
    (h : Spaces (c :: cs)) (hm : m.Fits (some c)) :
    Marked next m ((c :: cs).map (·, m.region)) (.inside m.region) := by
  obtain ⟨hb, hn⟩ := h c List.mem_cons_self
  exact .cons (read_space hb hn hm _)
    (marked_spaces (fun d hd ↦ h d (List.mem_cons_of_mem c hd)) _)

def SameNext (n n' : Option Char) : Prop :=
  (n = some '/' ↔ n' = some '/') ∧ (n = some '*' ↔ n' = some '*') ∧
    n.any (· ≠ '\n') = n'.any (· ≠ '\n')

theorem SameNext.symm {n n' : Option Char} (h : SameNext n n') : SameNext n' n :=
  ⟨h.1.symm, h.2.1.symm, h.2.2.symm⟩

theorem sameNext_none_newline : SameNext none (some '\n') := by simp [SameNext]

theorem sameNext_spaces {c d : Char} (hc : isBlank c = true) (hcn : c ≠ '\n')
    (hd : isBlank d = true) (hdn : d ≠ '\n') : SameNext (some c) (some d) := by
  have h (x : Char) (hx : isBlank x = true) (y : Char) (hy : isBlank y = false) : x ≠ y :=
    ne_of_isBlank hx hy
  simp [SameNext, h c hc '/' (by decide), h d hd '/' (by decide), h c hc '*' (by decide),
    h d hd '*' (by decide), hcn, hdn]

theorem read_congr {m : Mode} {c : Char} {n n' : Option Char} (h : SameNext n n') :
    m.read c n = m.read c n' := by
  obtain ⟨h₁, h₂, h₃⟩ := h
  have hl (r : Region) : readLiteral r c n = readLiteral r c n' := by simp only [readLiteral, h₃]
  cases m with
  | inside r => cases r <;> simp only [Mode.read, readCode, h₁, h₂, hl]
  | opening r => rfl
  | closing => rfl
  | escaped r => rfl

theorem Marked.congr_next {n n' : Option Char} {m m' : Mode} {gs : List Glyph}
    (h : Marked n m gs m') (hn : SameNext n n') : Marked n' m gs m' := by
  induction h with
  | nil => exact .nil _
  | @cons m m₁ m₂ c r gs hr _ ih =>
    refine .cons ?_ ih
    cases gs with
    | nil => rwa [upcoming_nil, ← read_congr hn]
    | cons g gs => exact hr

/-- Without the blank that follows, the last character is read alike unless it escapes. -/
theorem read_none_of_inside {m : Mode} {c d : Char} {r r' : Region} (hd : isBlank d = true)
    (h : m.read c (some d) = some (r, .inside r')) : m.read c none = some (r, .inside r') := by
  have h₁ : d ≠ '/' := ne_of_isBlank hd (by decide)
  have h₂ : d ≠ '*' := ne_of_isBlank hd (by decide)
  have hl {q : Region} (hq : readLiteral q c (some d) = some (r, .inside r')) :
      readLiteral q c none = some (r, .inside r') := by
    unfold readLiteral at hq ⊢
    split_ifs at hq ⊢ <;> grind
  cases m with
  | inside q =>
    cases q with
    | str => exact hl h
    | rune => exact hl h
    | _ => simpa [Mode.read, readCode, h₁, h₂] using h
  | opening q => exact h
  | closing => exact h
  | escaped q => exact h

theorem Marked.none_of_inside {m : Mode} {d : Char} {r : Region} {gs : List Glyph}
    (hd : isBlank d = true) (h : Marked (some d) m gs (.inside r)) :
    Marked none m gs (.inside r) := by
  induction gs generalizing m with
  | nil => cases h; exact .nil _
  | cons g gs ih =>
    cases h with
    | @cons _ m₁ _ c q _ hr hs =>
      refine .cons ?_ (ih hs)
      cases gs with
      | nil =>
        cases hs
        exact read_none_of_inside hd hr
      | cons => exact hr

theorem Marked.drop_lead {next : Option Char} {lead gs : List Glyph} {m : Mode}
    (h : Marked next (.inside .code) (lead ++ gs) m) (hs : Spaces (glyphText lead)) :
    lead = (glyphText lead).map (·, .code) ∧ Marked next (.inside .code) gs m := by
  obtain ⟨m', hl, hg⟩ := marked_append.1 h
  obtain ⟨he, rfl⟩ := eq_of_marked_plain hl fun c hc ↦ isPlain_of_isBlank (hs c hc).1
  exact ⟨he, hg⟩

/-- Blanks after the mode `m` all lie in its region. -/
theorem Marked.spaces_eq {next : Option Char} {m m' : Mode} {bs : List Glyph}
    (h : Marked next m bs m') (hm : m.Fits (upcoming bs next)) (hs : Spaces (glyphText bs))
    (hne : bs ≠ []) : bs = (glyphText bs).map (·, m.region) ∧ m' = .inside m.region := by
  cases bs with
  | nil => exact absurd rfl hne
  | cons g bs => exact h.unique (marked_spaces_of_fits hs hm) (glyphText_map_pair _ _).symm

theorem Marked.drop_trail {q r : Region} {gs trail : List Glyph}
    (h : Marked none (.inside q) (gs ++ trail) (.inside r)) (hs : Spaces (glyphText trail))
    (hr : r ≠ .str ∧ r ≠ .rune) : Marked none (.inside q) gs (.inside r) := by
  obtain ⟨m, hg, ht⟩ := marked_append.1 h
  cases trail with
  | nil =>
    cases ht
    exact hg
  | cons g trail =>
    have hf : m.Fits (some g.1) := hg.fits trivial
    obtain ⟨-, he⟩ := ht.spaces_eq hf hs (List.cons_ne_nil _ _)
    have hi : m = .inside r := by
      cases m with
      | inside r' => exact he.symm
      | opening r' =>
        have h₁ : g.1 ≠ '/' := ne_of_isBlank (hs g.1 List.mem_cons_self).1 (by decide)
        have h₂ : g.1 ≠ '*' := ne_of_isBlank (hs g.1 List.mem_cons_self).1 (by decide)
        simp [Mode.Fits, h₁, h₂] at hf
      | closing =>
        have h₁ : g.1 ≠ '/' := ne_of_isBlank (hs g.1 List.mem_cons_self).1 (by decide)
        simp [Mode.Fits, h₁] at hf
      | escaped r' =>
        obtain rfl : r = r' := by simpa [Mode.region] using he
        exact absurd hf.1 (by simp [hr])
    subst hi
    exact hg.none_of_inside (hs g.1 List.mem_cons_self).1

/-- Blanks between other characters may become any other blanks, as long as some are left. -/
theorem Marked.respace {next : Option Char} {q : Region} {m' : Mode} {a bs b : List Glyph}
    (h : Marked next (.inside q) (a ++ bs ++ b) m') (hs : Spaces (glyphText bs)) (hne : bs ≠ []) :
    ∃ r, bs = (glyphText bs).map (·, r) ∧ ∀ cs, Spaces cs → cs ≠ [] →
      Marked next (.inside q) (a ++ cs.map (·, r) ++ b) m' := by
  rw [List.append_assoc] at h
  obtain ⟨m, ha, hbb⟩ := marked_append.1 h
  obtain ⟨m₁, hbs, hb⟩ := marked_append.1 hbb
  cases bs with
  | nil => exact absurd rfl hne
  | cons g bs =>
    have hf : m.Fits (some g.1) := ha.fits trivial
    obtain ⟨he, rfl⟩ := hbs.spaces_eq hf hs hne
    refine ⟨m.region, he, fun cs hcs hc ↦ ?_⟩
    cases cs with
    | nil => exact absurd rfl hc
    | cons c cs =>
      obtain ⟨hgb, hgn⟩ := hs g.1 List.mem_cons_self
      obtain ⟨hcb, hcn⟩ := hcs c List.mem_cons_self
      have hsame : SameNext (some g.1) (some c) := sameNext_spaces hgb hgn hcb hcn
      have ha' : Marked (some c) (.inside q) a m := ha.congr_next hsame
      rw [List.append_assoc]
      exact marked_append.2 ⟨m, ha',
        marked_append.2 ⟨_, marked_spaces_of_fits hcs (ha'.fits trivial), hb⟩⟩

end RpcStubs.Layout
