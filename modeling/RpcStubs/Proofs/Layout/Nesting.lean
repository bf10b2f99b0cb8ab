import RpcStubs.Proofs.Layout.Lines

namespace RpcStubs.Layout

open Text

structure Frame where
  bracket : Char
  opener : Opener
  deriving DecidableEq, Repr

def OpenBracket.frame (b : OpenBracket) : Frame := ⟨b.bracket, b.opener⟩

/-- What a bracket in code does. -/
inductive Turn where
  | opens (f : Frame)
  | closes (c : Char) (first : Bool)
  deriving DecidableEq, Repr

def turnAt (before : List Char) (g : Glyph) : List Turn :=
  if g.2 = .code then
    if isOpening g.1 then [.opens ⟨g.1, .of g.1 before⟩]
    else if isClosing g.1 then [.closes g.1 (g.1 = '\x7d' && before.all isBlank)]
    else []
  else []

def turns (before : List Char) : List Glyph → List Turn
  | [] => []
  | g :: gs => turnAt before g ++ turns (before ++ [g.1]) gs

theorem turns_append (before : List Char) (a b : List Glyph) :
    turns before (a ++ b) = turns before a ++ turns (before ++ glyphText a) b := by
  induction a generalizing before with
  | nil => simp [turns]
  | cons g a ih => simp [turns, ih]

/-- The brackets open at a place, and the opener of the brace that begins the line. -/
structure Nesting where
  frames : List Frame
  closedFirst : Option Opener := none
  deriving DecidableEq, Repr

namespace Nesting

def turn (n : Nesting) : Turn → Option Nesting
  | .opens f => some { n with frames := f :: n.frames }
  | .closes c first =>
    match n.frames with
    | [] => none
    | f :: rest =>
      if Layout.closes f.bracket c then
        some ⟨rest, if first then some f.opener else n.closedFirst⟩
      else none

def run (n : Nesting) : List Turn → Option Nesting
  | [] => some n
  | t :: ts => (n.turn t).bind (·.run ts)

theorem run_append (n : Nesting) (a b : List Turn) :
    n.run (a ++ b) = (n.run a).bind (·.run b) := by
  induction a generalizing n with
  | nil => rfl
  | cons t a ih =>
    simp only [List.cons_append, run]
    cases n.turn t with
    | none => rfl
    | some n' => exact ih n'

end Nesting

def Brackets.nesting (b : Brackets) : Nesting := ⟨b.stack.map OpenBracket.frame, b.closedFirst⟩

theorem toOption_read (line : Nat) (before : List Char) (c : Char) (b : Brackets) :
    (b.read line before c).toOption.map Brackets.nesting =
      b.nesting.run (turnAt before.reverse (c, .code)) := by
  obtain ⟨stack, first⟩ := b
  unfold Brackets.read turnAt
  by_cases ho : isOpening c
  · simp [ho, Nesting.run, Nesting.turn, Brackets.nesting, Except.toOption, OpenBracket.frame]
  by_cases hc : isClosing c
  · cases stack with
    | nil => simp [ho, hc, Nesting.run, Nesting.turn, Brackets.nesting, Except.toOption]
    | cons top stack =>
      by_cases ht : closes top.bracket c <;>
        simp [ho, hc, ht, Nesting.run, Nesting.turn, Brackets.nesting, Except.toOption,
          OpenBracket.frame]
  · simp [ho, hc, Nesting.run, Brackets.nesting, Except.toOption]

theorem toOption_readLine (line : Nat) (before : List Char) (b : Brackets) (gs : List Glyph) :
    (b.readLine line before gs).toOption.map Brackets.nesting =
      b.nesting.run (turns before.reverse gs) := by
  induction gs generalizing before b with
  | nil => rfl
  | cons g gs ih =>
    obtain ⟨c, r⟩ := g
    have hb : before.reverse ++ [c] = (c :: before).reverse := by simp
    rw [turns, Nesting.run_append, Brackets.readLine, hb]
    by_cases hr : r = .code
    · subst hr
      rw [if_pos rfl, ← toOption_read line before c b]
      cases b.read line before c with
      | error fault => rfl
      | ok b' => exact ih (c :: before) b'
    · have ht : turnAt before.reverse (c, r) = [] := by simp [turnAt, hr]
      rw [if_neg hr, ht]
      exact ih (c :: before) b

/-- The rules for a line with the given bracket around its start and the given one closed by a
brace that begins it. -/
structure Obeys (trimmed : List Char) (enclosing closedFirst : Option Opener) : Prop where
  attached : startsElse trimmed = true → closedFirst = some .ifBlock
  tight : isLooseElse trimmed = false
  clause : startsCase trimmed = true ∨ startsDefault trimmed = true → enclosing = some .switch

theorem clauseFault?_eq_none_iff {trimmed : List Char} {line : Nat}
    {enclosing closedFirst : Option Opener} :
    clauseFault? trimmed line enclosing closedFirst = none ↔
      Obeys trimmed enclosing closedFirst := by
  unfold clauseFault?
  constructor
  · intro h
    split_ifs at h with h₁ h₂ h₃ h₄
    simp only [Bool.and_eq_true, decide_eq_true_eq, not_and, ne_eq, not_not] at h₁ h₃ h₄
    exact ⟨h₁, by simpa using h₂, fun hc ↦ hc.elim h₃ h₄⟩
  · rintro ⟨h₁, h₂, h₃⟩
    have h₄ (hc : startsCase trimmed = true) := h₃ (.inl hc)
    have h₅ (hd : startsDefault trimmed = true) := h₃ (.inr hd)
    rw [if_neg (by simpa using h₁), if_neg (by simp [h₂]), if_neg (by simpa using h₄),
      if_neg (by simpa using h₅)]

def enclosingOpener (frames : List Frame) : Option Opener := frames.head?.map (·.opener)

def lineOf (verbatim : Bool) (frames : List Frame) (text : List Char) (after : Nesting) : Line where
  depth := frames.length
  verbatim := verbatim
  enclosing := enclosingOpener frames
  balanced := after.closedFirst.isNone && after.frames.length == frames.length
  text := text

structure LineNested (frames : List Frame) (l : MarkedLine) (line : Line) (after : Nesting) :
    Prop where
  run_eq : Nesting.run ⟨frames, none⟩ (turns [] l.glyphs) = some after
  obeys : l.verbatim = false → Obeys (trim l.text) (enclosingOpener frames) after.closedFirst
  line_eq : line = lineOf l.verbatim frames l.text after

inductive LinesNested : List Frame → List MarkedLine → List Line → List Frame → Prop
  | nil (frames : List Frame) : LinesNested frames [] [] frames
  | cons {frames frames' : List Frame} {l : MarkedLine} {ls : List MarkedLine} {line : Line}
      {lines : List Line} {after : Nesting} :
      LineNested frames l line after → LinesNested after.frames ls lines frames' →
      LinesNested frames (l :: ls) (line :: lines) frames'

theorem head?_map_opener (stack : List OpenBracket) :
    stack.head?.map (·.opener) = enclosingOpener (stack.map OpenBracket.frame) := by
  cases stack <;> rfl

theorem nestLines_cons_eq_ok_iff {n : Nat} {stack : List OpenBracket} {l : MarkedLine}
    {ls : List MarkedLine} {lines : List Line} :
    nestLines n stack (l :: ls) = .ok lines ↔
      ∃ b rest, Brackets.readLine n [] ⟨stack, none⟩ l.glyphs = .ok b ∧
        (l.verbatim = false →
          clauseFault? (trim l.text) n (stack.head?.map (·.opener)) b.closedFirst = none) ∧
        nestLines (n + 1) b.stack ls = .ok rest ∧
        lines = ⟨stack.length, l.verbatim, stack.head?.map (·.opener),
          b.closedFirst.isNone && b.stack.length == stack.length, l.text⟩ :: rest := by
  rw [nestLines]
  cases hb : Brackets.readLine n [] ⟨stack, none⟩ l.glyphs with
  | error fault =>
    constructor
    · intro h
      cases h
    · rintro ⟨b, rest, h, -⟩
      cases h
  | ok b =>
    cases hv : l.verbatim with
    | true =>
      cases hn : nestLines (n + 1) b.stack ls with
      | error fault => simp [bind, Except.bind, hn]
      | ok rest => simp [bind, Except.bind, pure, Except.pure, hn, eq_comm]
    | false =>
      cases hf : clauseFault? (trim l.text) n (stack.head?.map (·.opener)) b.closedFirst with
      | some fault => simp [bind, Except.bind, hf, throw, throwThe, MonadExceptOf.throw]
      | none =>
        cases hn : nestLines (n + 1) b.stack ls with
        | error fault => simp [bind, Except.bind, hf, hn]
        | ok rest => simp [bind, Except.bind, pure, Except.pure, hf, hn, eq_comm]

theorem run_turns_eq_some_iff {n : Nat} {stack : List OpenBracket} {gs : List Glyph}
    {after : Nesting} :
    Nesting.run ⟨stack.map OpenBracket.frame, none⟩ (turns [] gs) = some after ↔
      ∃ b, Brackets.readLine n [] ⟨stack, none⟩ gs = .ok b ∧ b.nesting = after := by
  have h := toOption_readLine n [] ⟨stack, none⟩ gs
  rw [List.reverse_nil, Brackets.nesting] at h
  rw [← h]
  cases Brackets.readLine n [] ⟨stack, none⟩ gs <;> simp [Except.toOption]

theorem nestLines_eq_ok_iff {n : Nat} {stack : List OpenBracket} {ls : List MarkedLine}
    {lines : List Line} :
    nestLines n stack ls = .ok lines ↔
      LinesNested (stack.map OpenBracket.frame) ls lines [] := by
  induction ls generalizing n stack lines with
  | nil =>
    cases stack with
    | nil =>
      constructor <;> (intro h; cases h)
      · exact .nil _
      · rfl
    | cons top stack => constructor <;> (intro h; cases h)
  | cons l ls ih =>
    rw [nestLines_cons_eq_ok_iff]
    constructor
    · rintro ⟨b, rest, hb, hc, hrest, rfl⟩
      refine .cons (⟨run_turns_eq_some_iff.2 ⟨b, hb, rfl⟩, fun hv ↦ ?_, ?_⟩ :
        LineNested _ l _ b.nesting) (ih.1 hrest)
      · rw [← head?_map_opener]
        exact clauseFault?_eq_none_iff.1 (hc hv)
      · simp [lineOf, Brackets.nesting, ← head?_map_opener]
    · intro h
      cases h with
      | @cons _ _ _ _ line rest after hl hrest =>
        obtain ⟨hrun, hobeys, rfl⟩ := hl
        obtain ⟨b, hb, rfl⟩ := (run_turns_eq_some_iff (n := n)).1 hrun
        refine ⟨b, rest, hb, fun hv ↦ ?_, ih.2 hrest, ?_⟩
        · rw [clauseFault?_eq_none_iff, head?_map_opener]
          exact hobeys hv
        · simp [lineOf, Brackets.nesting, ← head?_map_opener]

structure Start where
  region : Region := .code
  frames : List Frame := []

/-- The lines lead from one start to another. -/
inductive Reads : Start → List MarkedLine → List Line → Start → Prop
  | nil (st : Start) : Reads st [] [] st
  | cons {st st' : Start} {r : Region} {l : MarkedLine} {ls : List MarkedLine} {line : Line}
      {lines : List Line} {after : Nesting} :
      l.verbatim = st.region.spansLines → LineMarked st.region l.glyphs r →
      LineNested st.frames l line after → Reads ⟨r, after.frames⟩ ls lines st' →
      Reads st (l :: ls) (line :: lines) st'

theorem Reads.linesMarked {st st' : Start} {ls : List MarkedLine} {lines : List Line}
    (h : Reads st ls lines st') (hc : st'.region = .code) : LinesMarked st.region ls := by
  induction h with
  | nil => exact hc ▸ .nil
  | cons hv hl _ _ ih => exact .cons hv hl (ih hc)

theorem Reads.linesNested {st st' : Start} {ls : List MarkedLine} {lines : List Line}
    (h : Reads st ls lines st') : LinesNested st.frames ls lines st'.frames := by
  induction h with
  | nil => exact .nil _
  | cons _ _ hn _ ih => exact .cons hn ih

theorem LinesMarked.reads {r : Region} {ls : List MarkedLine} (h : LinesMarked r ls)
    {σ σ' : List Frame} {lines : List Line} (hn : LinesNested σ ls lines σ') :
    Reads ⟨r, σ⟩ ls lines ⟨.code, σ'⟩ := by
  induction h generalizing σ lines with
  | nil =>
    cases hn
    exact .nil _
  | cons hv hl _ ih =>
    cases hn with
    | cons hline hrest => exact .cons hv hl hline (ih hrest)

theorem nest_eq_ok_iff {s : List Char} {lines : List Line} :
    nest s = .ok lines ↔
      ∃ gs, mark s = .ok gs ∧ Reads {} (cutLines false [] gs) lines {} := by
  rw [nest]
  cases hm : mark s with
  | error fault =>
    constructor
    · intro h
      cases h
    · rintro ⟨gs, h, -⟩
      cases h
  | ok gs =>
    have hn : nestLines 1 [] (cutLines false [] gs) = .ok lines ↔
        LinesNested [] (cutLines false [] gs) lines [] := nestLines_eq_ok_iff
    constructor
    · intro h
      exact ⟨gs, rfl, (linesMarked_of_mark hm).reads (hn.1 h)⟩
    · rintro ⟨gs', h, hr⟩
      cases h
      exact hn.2 hr.linesNested

theorem nest_joinLines {ls : List MarkedLine} {lines : List Line} (h : Reads {} ls lines {}) :
    nest (joinLines (ls.map MarkedLine.text)) = .ok lines := by
  obtain ⟨gs, hm, hc⟩ := exists_mark_joinLines (h.linesMarked rfl)
  exact nest_eq_ok_iff.2 ⟨gs, hm, hc ▸ h⟩

end RpcStubs.Layout
