import Mathlib.Data.List.Induction
import RpcStubs.Proofs.Layout.Openers

namespace RpcStubs.Layout

open Text

/-- Words in which every bracket is matched by one of its kind. -/
inductive Dyck : List Char → Prop
  | nil : Dyck []
  | wrap {o c : Char} {inner rest : List Char} :
      closes o c = true → Dyck inner → Dyck rest → Dyck (o :: (inner ++ c :: rest))

theorem Dyck.append {a b : List Char} (ha : Dyck a) (hb : Dyck b) : Dyck (a ++ b) := by
  induction ha with
  | nil => exact hb
  | @wrap o c inner rest hc hi _ _ ih =>
    have h := Dyck.wrap hc hi ih
    rwa [show o :: (inner ++ c :: (rest ++ b)) = o :: (inner ++ c :: rest) ++ b by simp] at h

def bracketsOf (gs : List Glyph) : List Char :=
  (gs.filter fun g ↦ g.2 = .code && (isOpening g.1 || isClosing g.1)).map Prod.fst

theorem bracketsOf_append (a b : List Glyph) :
    bracketsOf (a ++ b) = bracketsOf a ++ bracketsOf b := by
  simp [bracketsOf]

def lastLine (cs : List Char) : List Char := (cs.reverse.takeWhile (· ≠ '\n')).reverse

/-- The innermost bracket open at the end of `seen` is a brace of the given kind: only matched
brackets follow it. -/
def InBrace (seen : List Glyph) (kind : Opener) : Prop :=
  ∃ pre mid, seen = pre ++ ('\x7b', .code) :: mid ∧ Dyck (bracketsOf mid) ∧
    Opener.of '\x7b' (lastLine (glyphText pre)) = kind

def textTurns (before : List Char) : List Glyph → List Turn
  | [] => []
  | g :: gs => turnAt before g ++ textTurns (if g.1 = '\n' then [] else before ++ [g.1]) gs

def openAfter (frames : List Frame) : List Turn → Option (List Frame)
  | [] => some frames
  | .opens f :: ts => openAfter (f :: frames) ts
  | .closes c _ :: ts =>
    match frames with
    | [] => none
    | f :: rest => if closes f.bracket c then openAfter rest ts else none

theorem openAfter_append (frames : List Frame) (a b : List Turn) :
    openAfter frames (a ++ b) = (openAfter frames a).bind fun frames ↦ openAfter frames b := by
  induction a generalizing frames with
  | nil => rfl
  | cons t a ih =>
    cases t with
    | opens f => exact ih _
    | closes c first =>
      cases frames with
      | nil => rfl
      | cons f rest =>
        simp only [List.cons_append, openAfter]
        split_ifs
        · exact ih rest
        · rfl

theorem map_frames_run (n : Nesting) (ts : List Turn) :
    (n.run ts).map (·.frames) = openAfter n.frames ts := by
  induction ts generalizing n with
  | nil => rfl
  | cons t ts ih =>
    cases t with
    | opens f => exact ih _
    | closes c first =>
      obtain ⟨frames, closedFirst⟩ := n
      cases frames with
      | nil => rfl
      | cons f rest =>
        simp only [Nesting.run, Nesting.turn, openAfter]
        split_ifs
        · exact ih _
        · exact ih _
        · rfl

theorem lastLine_newline (a b : List Char) : lastLine (a ++ '\n' :: b) = lastLine b := by
  rw [lastLine, lastLine, List.reverse_append, List.reverse_cons, List.append_assoc,
    List.singleton_append]
  congr 1
  induction b.reverse with
  | nil => simp
  | cons c cs ih =>
    rw [List.cons_append, List.takeWhile_cons, List.takeWhile_cons, ih]

theorem lastLine_of_single {cs : List Char} (h : '\n' ∉ cs) : lastLine cs = cs := by
  rw [lastLine, List.takeWhile_eq_self_iff.2, List.reverse_reverse]
  intro c hc
  have hne : c ≠ '\n' := by
    rintro rfl
    exact h (List.mem_reverse.1 hc)
  simpa using hne

theorem textTurns_of_single {gs : List Glyph} (h : '\n' ∉ glyphText gs) (before : List Char) :
    textTurns before gs = turns before gs := by
  induction gs generalizing before with
  | nil => rfl
  | cons g gs ih =>
    simp only [glyphText_cons, List.mem_cons, not_or] at h
    rw [textTurns, turns, if_neg (Ne.symm h.1), ih h.2]

theorem textTurns_append {before : List Char} (h : '\n' ∉ before) (a b : List Glyph) :
    textTurns before (a ++ b) =
      textTurns before a ++ textTurns (lastLine (before ++ glyphText a)) b := by
  induction a generalizing before with
  | nil => simp [textTurns, lastLine_of_single h]
  | cons g a ih =>
    rw [List.cons_append, textTurns, textTurns, List.append_assoc, glyphText_cons]
    split_ifs with hg
    · rw [ih (by simp), hg, lastLine_newline, List.nil_append]
    · rw [ih (by simp [h, Ne.symm hg]), List.append_assoc, List.singleton_append]

theorem turnAt_newline (before : List Char) (r : Region) : turnAt before ('\n', r) = [] := by
  simp [turnAt, isOpening, isClosing]

theorem textTurns_line {a : List Glyph} (h : '\n' ∉ glyphText a) (r : Region) (b : List Glyph) :
    textTurns [] (a ++ ('\n', r) :: b) = turns [] a ++ textTurns [] b := by
  rw [textTurns_append (by simp), textTurns_of_single h, textTurns, turnAt_newline, if_pos rfl,
    List.nil_append]

theorem turnAt_cases (before : List Char) (g : Glyph) :
    (turnAt before g = [] ∧ bracketsOf [g] = []) ∨
      (isOpening g.1 = true ∧ g.2 = .code ∧ turnAt before g = [.opens ⟨g.1, .of g.1 before⟩] ∧
        bracketsOf [g] = [g.1]) ∨
      (isClosing g.1 = true ∧ g.2 = .code ∧ bracketsOf [g] = [g.1] ∧
        ∃ first, turnAt before g = [.closes g.1 first]) := by
  unfold turnAt bracketsOf
  by_cases hr : g.2 = .code
  · by_cases ho : isOpening g.1 = true
    · simp [hr, ho]
    · by_cases hc : isClosing g.1 = true
      · simp [hr, ho, hc]
      · simp [hr, ho, hc]
  · simp [hr]

/-- The open brackets of a text: what stands between and behind them is matched. -/
inductive Layered : List Glyph → List Frame → Prop
  | flat {gs : List Glyph} : Dyck (bracketsOf gs) → Layered gs []
  | push {pre mid : List Glyph} {frames : List Frame} {b : Char} :
      Layered pre frames → isOpening b = true → Dyck (bracketsOf mid) →
      Layered (pre ++ (b, .code) :: mid) (⟨b, .of b (lastLine (glyphText pre))⟩ :: frames)

theorem Layered.append {gs more : List Glyph} {frames : List Frame} (h : Layered gs frames)
    (hm : Dyck (bracketsOf more)) : Layered (gs ++ more) frames := by
  cases h with
  | flat h =>
    refine .flat ?_
    rw [bracketsOf_append]
    exact h.append hm
  | push hp hb hmid =>
    rw [List.append_assoc, List.cons_append]
    refine .push hp hb ?_
    rw [bracketsOf_append]
    exact hmid.append hm

/-- What one more character does to the stack. -/
theorem Layered.snoc {gs : List Glyph} {frames frames' : List Frame} (h : Layered gs frames)
    {g : Glyph} (hg : openAfter frames (turnAt (lastLine (glyphText gs)) g) = some frames') :
    Layered (gs ++ [g]) frames' := by
  rcases turnAt_cases (lastLine (glyphText gs)) g with
    ⟨ht, hb⟩ | ⟨ho, hr, ht, -⟩ | ⟨-, hr, hb, first, ht⟩
  · rw [ht] at hg
    cases hg
    exact h.append (by rw [hb]; exact .nil)
  · rw [ht] at hg
    cases hg
    obtain ⟨c, r⟩ := g
    obtain rfl : r = .code := hr
    exact .push h ho .nil
  · rw [ht] at hg
    cases h with
    | flat h => cases hg
    | @push pre mid rest b hp ho hmid =>
      rw [openAfter] at hg
      split_ifs at hg with hc
      cases hg
      rw [List.append_assoc]
      refine hp.append ?_
      have hbr : bracketsOf [(b, Region.code)] = [b] := by simp [bracketsOf, ho]
      rw [List.cons_append, ← List.singleton_append, bracketsOf_append, bracketsOf_append, hb, hbr]
      exact .wrap hc hmid .nil

theorem layered_of_openAfter {gs : List Glyph} {frames : List Frame}
    (h : openAfter [] (textTurns [] gs) = some frames) : Layered gs frames := by
  induction gs using List.reverseRecOn generalizing frames with
  | nil =>
    cases h
    exact .flat .nil
  | append_singleton gs g ih =>
    rw [textTurns_append (by simp), openAfter_append, List.nil_append, textTurns, textTurns,
      List.append_nil] at h
    obtain ⟨frames₁, h₁, h₂⟩ := Option.bind_eq_some_iff.1 h
    exact (ih h₁).snoc h₂

def Turn.char : Turn → Char
  | .opens f => f.bracket
  | .closes c _ => c

def Turn.Proper : Turn → Prop
  | .opens f => isOpening f.bracket = true
  | .closes c _ => isClosing c = true

theorem textTurns_spec (before : List Char) (gs : List Glyph) :
    (textTurns before gs).map Turn.char = bracketsOf gs ∧ ∀ t ∈ textTurns before gs, t.Proper := by
  induction gs generalizing before with
  | nil => exact ⟨rfl, by simp [textTurns]⟩
  | cons g gs ih =>
    obtain ⟨hchar, hproper⟩ := ih (if g.1 = '\n' then [] else before ++ [g.1])
    rw [textTurns, List.map_append, hchar, ← List.singleton_append, bracketsOf_append]
    rcases turnAt_cases before g with ⟨ht, hb⟩ | ⟨ho, -, ht, hb⟩ | ⟨hc, -, hb, first, ht⟩
    · rw [ht, hb]
      exact ⟨rfl, hproper⟩
    · rw [ht, hb]
      refine ⟨rfl, fun t h ↦ ?_⟩
      rcases List.mem_cons.1 h with rfl | h
      · exact ho
      · exact hproper t h
    · rw [ht, hb]
      refine ⟨rfl, fun t h ↦ ?_⟩
      rcases List.mem_cons.1 h with rfl | h
      · exact hc
      · exact hproper t h

theorem isOpening_of_closes {o c : Char} (h : closes o c = true) :
    isClosing o = false ∧ isOpening c = false := by
  simp only [closes, Bool.or_eq_true, Bool.and_eq_true, beq_iff_eq] at h
  rcases h with (⟨rfl, rfl⟩ | ⟨rfl, rfl⟩) | ⟨rfl, rfl⟩ <;> decide

theorem openAfter_of_dyck {ts : List Turn} (hp : ∀ t ∈ ts, t.Proper) (hd : Dyck (ts.map Turn.char))
    (frames : List Frame) : openAfter frames ts = some frames := by
  generalize hw : ts.map Turn.char = w at hd
  induction hd generalizing ts frames with
  | nil =>
    obtain rfl := List.map_eq_nil_iff.1 hw
    rfl
  | @wrap o c inner rest hc _ _ ihInner ihRest =>
    obtain ⟨t, ts, rfl, ho, hts⟩ := List.map_eq_cons_iff.1 hw
    obtain ⟨inner', ts, rfl, hinner, hts⟩ := List.map_eq_append_iff.1 hts
    obtain ⟨t', rest', rfl, hc', hrest⟩ := List.map_eq_cons_iff.1 hts
    cases t with
    | closes c₁ first =>
      -- a bracket that has a partner to its right is no closing one
      obtain rfl : c₁ = o := ho
      have hclosing : isClosing c₁ = true := hp _ List.mem_cons_self
      rw [(isOpening_of_closes hc).1] at hclosing
      cases hclosing
    | opens f =>
      cases t' with
      | opens f' =>
        obtain rfl : f'.bracket = c := hc'
        have hopening : isOpening f'.bracket = true := hp (.opens f') (by simp)
        rw [(isOpening_of_closes hc).2] at hopening
        cases hopening
      | closes c₁ first =>
        obtain rfl : c₁ = c := hc'
        obtain rfl : f.bracket = o := ho
        have hi := ihInner (fun u hu ↦ hp u (by simp [hu])) (f :: frames) hinner
        have hr := ihRest (fun u hu ↦ hp u (by simp [hu])) frames hrest
        rw [openAfter, openAfter_append, hi, Option.bind_some, openAfter, if_pos hc, hr]

theorem openAfter_textTurns_of_dyck {gs : List Glyph} (h : Dyck (bracketsOf gs))
    (before : List Char) (frames : List Frame) :
    openAfter frames (textTurns before gs) = some frames := by
  obtain ⟨hchar, hproper⟩ := textTurns_spec before gs
  exact openAfter_of_dyck hproper (hchar ▸ h) frames

theorem dyck_iff {gs : List Glyph} :
    Dyck (bracketsOf gs) ↔ openAfter [] (textTurns [] gs) = some [] := by
  constructor
  · exact fun h ↦ openAfter_textTurns_of_dyck h [] []
  · intro h
    cases layered_of_openAfter h with
    | flat h => exact h

theorem of_eq_group {c : Char} (h : c ≠ '\x7b') (before : List Char) :
    Opener.of c before = .group := by
  rw [Opener.of, if_pos h]

/-- The top of the stack is the innermost open bracket. -/
theorem inBrace_iff {seen : List Glyph} {frames : List Frame}
    (h : openAfter [] (textTurns [] seen) = some frames) {kind : Opener} :
    InBrace seen kind ↔ ∃ rest, frames = ⟨'\x7b', kind⟩ :: rest := by
  constructor
  · rintro ⟨pre, mid, rfl, hmid, hkind⟩
    have hopen (before : List Char) :
        turnAt before ('\x7b', .code) = [.opens ⟨'\x7b', .of '\x7b' before⟩] := by
      simp [turnAt, isOpening]
    rw [textTurns_append (by simp), openAfter_append] at h
    obtain ⟨rest, -, h⟩ := Option.bind_eq_some_iff.1 h
    rw [textTurns, hopen, List.singleton_append, openAfter, openAfter_textTurns_of_dyck hmid,
      Option.some_inj, List.nil_append, hkind] at h
    exact ⟨rest, h.symm⟩
  · rintro ⟨rest, rfl⟩
    generalize hf : (⟨'\x7b', kind⟩ : Frame) = f at h
    cases layered_of_openAfter h with
    | push hp ho hmid =>
      obtain ⟨rfl, rfl⟩ := Frame.mk.inj hf
      exact ⟨_, _, rfl, hmid, rfl⟩

/-- Only a brace can be of a kind of its own. -/
theorem bracket_eq_of_opener {seen : List Glyph} {f : Frame} {rest : List Frame}
    (h : openAfter [] (textTurns [] seen) = some (f :: rest)) (hf : f.opener ≠ .group) :
    f.bracket = '\x7b' := by
  cases layered_of_openAfter h with
  | push hp ho hmid =>
    by_contra hne
    exact hf (of_eq_group hne _)

end RpcStubs.Layout
