import RpcStubs.Proofs.Layout.Grammar
import RpcStubs.Proofs.Layout.NormalForm
import RpcStubs.Proofs.Text.Pieces

namespace RpcStubs.Layout

open Text

def gapLine : Line := lineOf false [] [] ⟨[], none⟩

theorem Reads.append {st st' st'' : Start} {a b : List MarkedLine} {la lb : List Line}
    (ha : Reads st a la st') (hb : Reads st' b lb st'') : Reads st (a ++ b) (la ++ lb) st'' := by
  induction ha with
  | nil => exact hb
  | cons hv hl hn _ ih => exact .cons hv hl hn (ih hb)

theorem reads_gap (n : Nat) :
    Reads {} (List.replicate n ⟨false, []⟩) (List.replicate n gapLine) {} := by
  induction n with
  | zero => exact .nil {}
  | succ n ih =>
    have hmarked : LineMarked .code [] .code := ⟨by simp, .code, .nil _, rfl⟩
    have hobeys : Obeys (trim []) (enclosingOpener []) none := by
      constructor <;> decide
    have hnested : LineNested [] ⟨false, []⟩ gapLine ⟨[], none⟩ := ⟨rfl, fun _ ↦ hobeys, rfl⟩
    exact .cons rfl hmarked hnested ih

/-- A newline after a text ends its last line, or is a line of its own if no line is begun. -/
theorem exists_cutLines_newline {r q : Region} {gs : List Glyph} (hr : r.nextLine = some r)
    (h : Marked none (.inside r) gs (.inside q)) (hq : q.nextLine = some .code)
    (rest : List Glyph) :
    ∃ n, cutLines r.spansLines [] (gs ++ ('\n', .code) :: rest) =
      cutLines r.spansLines [] gs ++ (List.replicate n ⟨false, []⟩ ++ cutLines false [] rest) := by
  induction hn : gs.length using Nat.strongRecOn generalizing r gs with
  | ind n ih =>
    rcases newline_cases gs with hs | ⟨a, r', b, rfl, ha⟩
    · rw [cutLines_line hs, cutLines_last hs]
      split_ifs with he
      · subst he
        cases h
        obtain rfl := Option.some_inj.1 (hr.symm.trans hq)
        exact ⟨1, rfl⟩
      · exact ⟨0, rfl⟩
    · obtain ⟨⟨q', -, hq'⟩, hb⟩ := marked_line.1 h
      have hlen : b.length < n := by
        simp only [List.length_append, List.length_cons] at hn
        omega
      obtain ⟨m, hm⟩ := ih b.length hlen (nextLine_nextLine hq') hb rfl
      refine ⟨m, ?_⟩
      rw [List.append_assoc, List.cons_append, cutLines_line ha, cutLines_line ha, hm,
        List.cons_append]

theorem exists_nest_gap {a b : List Char} {la lb : List Line} (ha : nest a = .ok la)
    (hb : nest b = .ok lb) :
    ∃ n, nest (a ++ '\n' :: '\n' :: b) = .ok (la ++ (List.replicate (n + 1) gapLine ++ lb)) := by
  obtain ⟨ga, hma, hra⟩ := nest_eq_ok_iff.1 ha
  obtain ⟨gb, hmb, hrb⟩ := nest_eq_ok_iff.1 hb
  obtain ⟨-, q, hm, hq⟩ := mark_eq_ok_iff.1 hma
  obtain ⟨n, hcut⟩ := exists_cutLines_newline rfl hm hq (('\n', .code) :: gb)
  have hblank : cutLines false [] (('\n', .code) :: gb) = ⟨false, []⟩ :: cutLines false [] gb := rfl
  have hmark : mark (a ++ '\n' :: '\n' :: b) = .ok (ga ++ ('\n', .code) :: ('\n', .code) :: gb) :=
    mark_line hma (mark_line (rfl : mark [] = .ok []) hmb)
  refine ⟨n, nest_eq_ok_iff.2 ⟨_, hmark, ?_⟩⟩
  rw [show cutLines false [] _ = _ from hcut, hblank, List.append_cons, ← List.replicate_succ']
  exact hra.append ((reads_gap _).append hrb)

theorem runFrom_append_other (depth : Nat) (slots rest : List Slot) :
    runFrom depth (slots ++ .other :: rest) = runFrom depth slots := by
  induction slots with
  | nil => rfl
  | cons s slots ih =>
    cases s with
    | comment => exact ih
    | other => rfl
    | cells d c =>
      rw [List.cons_append, runFrom, runFrom, ih]

theorem alignSlot_append_other_left (before rest after : List Slot) (s : Slot) :
    alignSlot (before ++ .other :: rest) after s = alignSlot before after s := by
  cases s with
  | cells depth c => rw [alignSlot, alignSlot, runFrom_append_other]
  | _ => rfl

theorem alignSlot_append_other_right (before after rest : List Slot) (s : Slot) :
    alignSlot before (after ++ .other :: rest) s = alignSlot before after s := by
  cases s with
  | cells depth c => rw [alignSlot, alignSlot, runFrom_append_other]
  | _ => rfl

theorem arrangeFrom_append_other (before rest : List Slot) (lines : List Line) :
    arrangeFrom (before ++ .other :: rest) lines = arrangeFrom before lines := by
  induction lines generalizing before with
  | nil => rfl
  | cons l lines ih =>
    rw [arrangeFrom_cons, arrangeFrom_cons, alignSlot_append_other_left, ← List.cons_append, ih]

theorem arrangeFrom_break {l : Line} (hl : l.slot = .other) (before : List Slot)
    (above below : List Line) :
    arrangeFrom before (above ++ l :: below) =
      arrangeFrom before above ++ l.indented :: arrange below := by
  induction above generalizing before with
  | nil =>
    rw [List.nil_append, arrangeFrom_cons, hl]
    exact congrArg (l.indented :: ·) (arrangeFrom_append_other [] before below)
  | cons l' above ih =>
    rw [List.cons_append, arrangeFrom_cons, arrangeFrom_cons, ih, List.map_append, List.map_cons,
      hl, alignSlot_append_other_right, List.cons_append]

theorem arrange_gap (la lb : List Line) (n : Nat) :
    arrange (la ++ (List.replicate (n + 1) gapLine ++ lb)) =
      arrange la ++ (List.replicate (n + 1) none ++ arrange lb) := by
  have hbreak (above below : List Line) :
      arrange (above ++ gapLine :: below) = arrange above ++ none :: arrange below :=
    arrangeFrom_break rfl [] above below
  induction n generalizing la with
  | zero => exact hbreak la lb
  | succ n ih =>
    rw [List.replicate_succ, List.cons_append, hbreak, ← List.nil_append (_ ++ lb), ih]
    rfl

/-- What is written up to a line with text does not depend on what follows it. -/
theorem exists_tidy_eq (previous : Option (List Char)) (front : List (Option (List Char)))
    (p : List Char) :
    ∃ ts, ∀ rest, tidy previous (front ++ some p :: rest) = ts ++ p :: tidy (some p) rest := by
  induction front generalizing previous with
  | nil => exact ⟨[], fun rest ↦ rfl⟩
  | cons x front ih =>
    cases x with
    | some text =>
      obtain ⟨ts, hts⟩ := ih (some text)
      exact ⟨text :: ts, fun rest ↦ congrArg (text :: ·) (hts rest)⟩
    | none =>
      have hkeeps (rest : List (Option (List Char))) :
          keepsBlank previous (front ++ some p :: rest) =
            keepsBlank previous (front ++ [some p]) := by
        refine keepsBlank_congr ?_ previous
        simp [nextText, List.findSome?_append]
      obtain ⟨ts, hts⟩ := ih (some [])
      obtain ⟨ts', hts'⟩ := ih previous
      by_cases hk : keepsBlank previous (front ++ [some p]) = true
      · refine ⟨[] :: ts, fun rest ↦ ?_⟩
        rw [List.cons_append, tidy, hkeeps, if_pos hk, hts, List.cons_append]
      · refine ⟨ts', fun rest ↦ ?_⟩
        rw [List.cons_append, tidy, hkeeps, if_neg hk, hts']

theorem tidy_replicate_none (previous : Option (List Char)) (n : Nat) :
    tidy previous (List.replicate n none) = [] := by
  have hkeeps (n : Nat) : keepsBlank previous (List.replicate n none) = false := by
    have hnext : nextText (List.replicate n none) = none := by simp [nextText]
    unfold keepsBlank
    rw [hnext]
    cases previous <;> rfl
  induction n with
  | zero => rfl
  | succ n ih => rw [List.replicate_succ, tidy, hkeeps, if_neg Bool.false_ne_true, ih]

/-- Blank lines in front are dropped where none is kept. -/
theorem tidy_blank_front {previous : Option (List Char)} {texts : List (Option (List Char))}
    (h : keepsBlank previous texts = false) (n : Nat) :
    tidy previous (List.replicate n none ++ texts) = tidy none texts := by
  induction n with
  | zero =>
    induction texts with
    | nil => rfl
    | cons x texts ih =>
      cases x with
      | some text => rfl
      | none =>
        have h' : keepsBlank previous texts = false := h
        have ih' := ih h'
        rw [List.replicate_zero, List.nil_append] at ih' ⊢
        rw [tidy, tidy, h', if_neg Bool.false_ne_true, ih']
        rfl
  | succ n ih =>
    have h' : keepsBlank previous (List.replicate n none ++ texts) = false := by
      rw [← h]
      refine keepsBlank_congr ?_ previous
      simp [nextText, List.findSome?_append]
    rw [List.replicate_succ, List.cons_append, tidy, h', if_neg Bool.false_ne_true, ih]

theorem last_text_cases (texts : List (Option (List Char))) :
    (∃ n, texts = List.replicate n none) ∨
      ∃ front p n, texts = front ++ some p :: List.replicate n none := by
  induction texts using List.reverseRecOn with
  | nil => exact .inl ⟨0, rfl⟩
  | append_singleton texts x ih =>
    cases x with
    | some p => exact .inr ⟨texts, p, 0, rfl⟩
    | none =>
      rcases ih with ⟨n, rfl⟩ | ⟨front, p, n, rfl⟩
      · exact .inl ⟨n + 1, List.replicate_succ'.symm⟩
      · exact .inr ⟨front, p, n + 1, by simp [List.replicate_succ']⟩

theorem tidy_append_replicate_none (texts : List (Option (List Char))) (n : Nat) :
    tidy none (texts ++ List.replicate n none) = tidy none texts := by
  rcases last_text_cases texts with ⟨k, rfl⟩ | ⟨front, p, k, rfl⟩
  · rw [← List.replicate_add, tidy_replicate_none, tidy_replicate_none]
  · obtain ⟨ts, hts⟩ := exists_tidy_eq none front p
    rw [List.append_assoc, List.cons_append, ← List.replicate_add, hts, hts, tidy_replicate_none,
      tidy_replicate_none]

/-- One blank line is left between two texts, and none behind a line that ends open. -/
theorem tidy_gap {a b : List (Option (List Char))} {p n : List Char}
    (hp : (tidy none a).getLast? = some p) (hpne : p ≠ []) (hn : nextText b = some n)
    (hclosed : startsClosed n = false) (m : Nat) :
    tidy none (a ++ (List.replicate (m + 1) none ++ b)) =
      tidy none a ++ ((if endsOpen p then [] else [[]]) ++ tidy none b) := by
  rcases last_text_cases a with ⟨k, rfl⟩ | ⟨front, p', k, rfl⟩
  · rw [tidy_replicate_none] at hp
    cases hp
  · obtain ⟨ts, hts⟩ := exists_tidy_eq none front p'
    rw [hts, tidy_replicate_none, List.getLast?_concat, Option.some_inj] at hp
    subst hp
    have hcount : List.replicate k none ++ (List.replicate (m + 1) none ++ b) =
        none :: (List.replicate (k + m) none ++ b) := by
      rw [← List.append_assoc, ← List.replicate_add, ← Nat.add_assoc, List.replicate_succ,
        List.cons_append]
    have hnext (j : Nat) : nextText (List.replicate j none ++ b) = some n := by
      rw [← hn]
      simp [nextText, List.findSome?_append]
    have hkeeps (j : Nat) :
        keepsBlank (some p') (List.replicate j none ++ b) = !endsOpen p' := by
      simp [keepsBlank, hnext, hpne, hclosed]
    have hempty : keepsBlank (some []) b = false := by
      unfold keepsBlank
      rw [hn]
      rfl
    rw [List.append_assoc, List.cons_append, hts, hts, tidy_replicate_none, hcount, tidy, hkeeps]
    cases ho : endsOpen p' with
    | true =>
      have hopen : keepsBlank (some p') b = false := by
        rw [← List.nil_append b, ← List.replicate_zero, hkeeps, ho]
        rfl
      simp [tidy_blank_front hopen]
    | false => simp [tidy_blank_front hempty]

def HasText (s : String) : Prop := ∃ line ∈ pieces '\n' s.toList, trim line ≠ []

theorem hasText_iff {s : String} : HasText s ↔ ¬Blanks s.toList := by
  constructor
  · rintro ⟨line, hline, hne⟩ hb
    refine hne (trim_eq_nil_iff.2 fun c hc ↦ hb c ?_)
    rw [← intercalate_pieces '\n' s.toList]
    exact mem_intercalate_of_mem hline hc ['\n']
  · intro hb
    by_contra hno
    refine hb fun c hc ↦ ?_
    rw [← intercalate_pieces '\n' s.toList] at hc
    rcases mem_of_mem_intercalate hc with hsep | ⟨line, hline, hc⟩
    · obtain rfl := List.mem_singleton.1 hsep
      decide
    · have hblank : trim line = [] := not_not.1 fun hne ↦ hno ⟨line, hline, hne⟩
      exact trim_eq_nil_iff.1 hblank c hc

/-- The texts written for the lines of a text, from the first one to the last. -/
structure EndTexts (t : List Char) (texts : List (Option (List Char))) (n p : List Char) :
    Prop where
  text : t = joinLines (tidy none texts)
  first : nextText texts = some n
  not_startsClosed : startsClosed n = false
  last : (tidy none texts).getLast? = some p
  last_ne_nil : p ≠ []
  single : '\n' ∉ p

theorem head?_tidy (texts : List (Option (List Char))) :
    (tidy none texts).head? = nextText texts := by
  induction texts with
  | nil => rfl
  | cons x texts ih =>
    cases x with
    | some text => rfl
    | none => exact ih

theorem Indented.not_startsClosed {text : List Char} (h : Indented [] text) :
    startsClosed text = false := by
  obtain ⟨unclosed, core, hu, hne, htight, hout, rfl⟩ := h
  obtain rfl : unclosed = [] := List.length_eq_zero_iff.1 (by simpa using hu.length_add)
  have hcore : outdents core = false := by
    by_contra ho
    exact hout (by simpa using ho) rfl
  have hstart : trimStart core = core := dropWhile_of_head htight.head
  obtain ⟨c, core, rfl⟩ := List.exists_cons_of_ne_nil hne
  rw [hcore, List.length_nil, if_neg Bool.false_ne_true, List.replicate_zero, List.nil_append,
    startsClosed, hstart]
  simp only [outdents, isClosing, List.head?_cons, Option.any_some, Bool.or_eq_false_iff] at hcore ⊢
  exact hcore.1.1.1

/-- Where something is to be seen, something is written. -/
theorem tidy_ne_nil {s : List Char} {lines : List Line} (h : nest s = .ok lines)
    (hs : ¬Blanks s) : tidy none (arrange lines) ≠ [] := by
  intro hnil
  obtain ⟨gs, gt, hgs, hgt, hcontent⟩ := content_layOut h
  have hlayout : layOut lines = ['\n'] := by
    rw [layOut_eq, hnil]
    rfl
  have hmark : mark ['\n'] = .ok [('\n', .code)] := rfl
  rw [hlayout, hmark] at hgt
  obtain rfl := Except.ok.inj hgt
  apply hs
  rw [← (mark_eq_ok_iff.1 hgs).1, ← visible_eq_nil_iff, ← flatten_content, ← hcontent]
  rfl

theorem exists_endTexts {s t : String} (hs : HasText s) (h : format s = .ok t) :
    ∃ lines n p, nest s.toList = .ok lines ∧ layOut lines = t.toList ∧
      EndTexts t.toList (arrange lines) n p := by
  obtain ⟨lines, hnest, hlay⟩ := formatChars_eq_ok_iff.1 (format_eq_ok_iff.1 h)
  obtain ⟨ls, hm, hform, htexts⟩ := exists_normalForm hnest
  have hne : ls ≠ [] := by
    rintro rfl
    exact tidy_ne_nil hnest (hasText_iff.1 hs) htexts.symm
  obtain ⟨above, l, hlast⟩ := (List.eq_nil_or_concat' ls).resolve_left hne
  obtain ⟨l', below, hfirst⟩ := List.exists_cons_of_ne_nil hne
  refine ⟨lines, l'.text, l.text, hnest, hlay, ?_, ?_, ?_, ?_, ?_, ?_⟩
  · rw [← hlay, layOut_eq, ← htexts, hfirst]
    rfl
  · rw [← head?_tidy, ← htexts, hfirst]
    rfl
  · rw [hfirst] at hform hm
    exact (hform.first_indented hm).not_startsClosed
  · rw [← htexts, hlast]
    simp
  · rw [hlast] at hform hm
    exact hform.last_ne_nil hm
  · exact hm.single l.text (by simp [hlast])

def seam (text : String) : String :=
  if endsOpen (lastLine text.toList.dropLast) then "" else "\n"

theorem lastLine_joinLines {p : List Char} (hp : '\n' ∉ p) (ts : List (List Char)) :
    lastLine (joinLines ts ++ p) = p := by
  induction ts with
  | nil => exact lastLine_of_single hp
  | cons t ts ih => rw [joinLines_cons, List.append_assoc, List.cons_append, lastLine_newline, ih]

theorem EndTexts.exists_eq {t n p : List Char} {texts : List (Option (List Char))}
    (h : EndTexts t texts n p) : ∃ ts, t = joinLines ts ++ p ++ ['\n'] := by
  obtain ⟨ts, hts⟩ := List.getLast?_eq_some_iff.1 h.last
  refine ⟨ts, ?_⟩
  rw [h.text, hts, joinLines_append]
  simp

theorem EndTexts.lastLine_eq {t n p : List Char} {texts : List (Option (List Char))}
    (h : EndTexts t texts n p) : lastLine t.dropLast = p := by
  obtain ⟨ts, rfl⟩ := h.exists_eq
  rw [List.dropLast_concat, lastLine_joinLines h.single]

theorem format_append {a b a' b' : String} (ha : HasText a) (hb : HasText b)
    (hfa : format a = .ok a') (hfb : format b = .ok b') :
    format (a ++ "\n\n" ++ b) = .ok (a' ++ seam a' ++ b') := by
  obtain ⟨la, fa, p, hna, -, hea⟩ := exists_endTexts ha hfa
  obtain ⟨lb, n, pb, hnb, -, heb⟩ := exists_endTexts hb hfb
  obtain ⟨m, hnest⟩ := exists_nest_gap hna hnb
  have hsource : (a ++ "\n\n" ++ b).toList = a.toList ++ '\n' :: '\n' :: b.toList := by simp
  refine format_eq_ok_iff.2 (formatChars_eq_ok_iff.2 ⟨_, hsource ▸ hnest, ?_⟩)
  have htidy := tidy_gap hea.last hea.last_ne_nil heb.first heb.not_startsClosed m
  have hne : tidy none (arrange la) ≠ [] := by
    intro hnil
    have hlast := hea.last
    rw [hnil] at hlast
    cases hlast
  rw [layOut_eq, arrange_gap, htidy, orEmptyLine, if_neg (by simp [hne]), joinLines_append,
    joinLines_append, ← hea.text, ← heb.text, String.toList_append, String.toList_append, seam,
    hea.lastLine_eq, List.append_assoc]
  split_ifs <;> rfl

/-- A newline at the end changes nothing. -/
theorem format_newline {s t : String} (h : format s = .ok t) : format (s ++ "\n") = .ok t := by
  obtain ⟨lines, hnest, hlay⟩ := formatChars_eq_ok_iff.1 (format_eq_ok_iff.1 h)
  obtain ⟨gs, hmark, hreads⟩ := nest_eq_ok_iff.1 hnest
  obtain ⟨-, q, hm, hq⟩ := mark_eq_ok_iff.1 hmark
  obtain ⟨n, hcut⟩ := exists_cutLines_newline rfl hm hq []
  have hmark' : mark (s.toList ++ ['\n']) = .ok (gs ++ [('\n', .code)]) :=
    mark_line hmark (rfl : mark [] = .ok [])
  have hnest' : nest (s.toList ++ ['\n']) = .ok (lines ++ List.replicate n gapLine) := by
    refine nest_eq_ok_iff.2 ⟨_, hmark', ?_⟩
    rw [show cutLines false [] _ = _ from hcut, cutLines, List.isEmpty_nil, if_pos rfl,
      List.append_nil]
    exact hreads.append (reads_gap n)
  have harrange : arrange (lines ++ List.replicate n gapLine) =
      arrange lines ++ List.replicate n none := by
    cases n with
    | zero => rw [List.replicate_zero, List.append_nil, List.replicate_zero, List.append_nil]
    | succ n =>
      have hgap := arrange_gap lines [] n
      rwa [List.append_nil, show arrange [] = [] from rfl, List.append_nil] at hgap
  have hsource : (s ++ "\n").toList = s.toList ++ ['\n'] := by simp
  refine format_eq_ok_iff.2 (formatChars_eq_ok_iff.2 ⟨_, hsource ▸ hnest', ?_⟩)
  rw [← hlay, layOut_eq, layOut_eq, harrange, tidy_append_replicate_none]

theorem Dyck.not_isOpening_last {word : List Char} (h : Dyck word) :
    ∀ b, word.getLast? = some b → isOpening b = false := by
  induction h with
  | nil => simp
  | @wrap o c inner rest hc _ _ _ ih =>
    intro b hb
    rw [← List.cons_append, List.getLast?_append_of_ne_nil _ (List.cons_ne_nil _ _)] at hb
    cases rest with
    | nil =>
      obtain rfl : c = b := by simpa using hb
      exact (isOpening_of_closes hc).2
    | cons d rest => exact ih b (by simpa using hb)

theorem isOpening_cases {c : Char} (h : isOpening c = true) : c = '\x7b' ∨ c = '(' ∨ c = '[' := by
  simpa [isOpening, or_assoc] using h

theorem read_inside_of_isOpening {c : Char} (h : isOpening c = true) (r : Region) :
    (Mode.inside r).read c none = some (r, .inside r) := by
  rcases isOpening_cases h with rfl | rfl | rfl <;> cases r <;> rfl

/-- A bracket is in none of the markers, so a text that ends behind it ends in its region. -/
theorem region_eq_of_isOpening {m : Mode} {c : Char} {r q : Region} (hc : isOpening c = true)
    (hf : m.Fits (some c)) (h : m.read c none = some (r, .inside q)) : r = q := by
  have hslash : c ≠ '/' ∧ c ≠ '*' := by
    rcases isOpening_cases hc with rfl | rfl | rfl <;> decide
  cases m with
  | inside region =>
    rw [read_inside_of_isOpening hc] at h
    cases h
    rfl
  | opening region => simp [Mode.Fits, hslash] at hf
  | closing => simp [Mode.Fits, hslash] at hf
  | escaped region =>
    cases h
    rfl

/-- The brackets in the code of a laid out text match, as they do in its source. -/
theorem exists_dyck_layOut {s : List Char} {lines : List Line} (h : nest s = .ok lines) :
    ∃ gt, mark (layOut lines) = .ok gt ∧ Dyck (bracketsOf gt) := by
  obtain ⟨gs, gt, hgs, hgt, hcontent⟩ := content_layOut h
  obtain ⟨gs', hgs', hd, -⟩ := exists_nest_eq_ok_iff.1 ⟨lines, h⟩
  obtain rfl := Except.ok.inj (hgs.symm.trans hgs')
  refine ⟨gt, hgt, ?_⟩
  rwa [← bracketsOf_visible, ← flatten_content, hcontent, flatten_content, bracketsOf_visible]

theorem exists_mark_opening {t : List Char} {c : Char} {gt : List Glyph} (hc : isOpening c = true)
    (h : mark (t ++ [c] ++ ['\n']) = .ok gt) :
    ∃ gs r, gt = gs ++ [(c, r), ('\n', .code)] ∧ r.nextLine = some .code := by
  obtain ⟨gs, hmark, rfl⟩ := exists_mark_of_newline h
  obtain ⟨htext, q, hm, hq⟩ := mark_eq_ok_iff.1 hmark
  obtain ⟨gs, last, rfl, -, hlast⟩ := exists_of_glyphText_eq_append htext
  obtain ⟨⟨d, r⟩, rest, rfl, rfl, hrest⟩ := List.map_eq_cons_iff.1 hlast
  obtain rfl := List.map_eq_nil_iff.1 hrest
  obtain ⟨m, hm, hend⟩ := marked_append.1 hm
  refine ⟨gs, r, by simp, ?_⟩
  cases hend with
  | cons hread hnil =>
    cases hnil
    rwa [region_eq_of_isOpening hc (hm.fits trivial) hread]

/-- The seam behind a text is closed only by a comment: no bracket in code is open there. -/
theorem exists_lineComment {s t : String} (hs : HasText s) (h : format s = .ok t)
    (ho : endsOpen (lastLine t.toList.dropLast) = true) :
    ∃ gs c, mark t.toList = .ok (gs ++ [(c, .lineComment), ('\n', .code)]) := by
  obtain ⟨lines, n, p, hnest, hlay, he⟩ := exists_endTexts hs h
  obtain ⟨gt, hgt, hdyck⟩ := exists_dyck_layOut hnest
  obtain ⟨ts, htext⟩ := he.exists_eq
  rw [he.lastLine_eq] at ho
  obtain ⟨p, c, rfl⟩ := (List.eq_nil_or_concat' p).resolve_left he.last_ne_nil
  have hc : isOpening c = true := by
    simp only [endsOpen, List.getLast?_concat, Option.any_some, Bool.or_eq_true] at ho
    simp only [isOpening, Bool.or_eq_true]
    exact .inl ho
  rw [hlay] at hgt
  rw [htext, ← List.append_assoc] at hgt ⊢
  obtain ⟨gs, r, rfl, hr⟩ := exists_mark_opening hc hgt
  cases r with
  | lineComment => exact ⟨gs, c, hgt⟩
  | code =>
    have hlast : bracketsOf (gs ++ [(c, .code), ('\n', .code)]) = bracketsOf gs ++ [c] := by
      rw [bracketsOf_append]
      congr 1
      have hnewline : (isOpening '\n' || isClosing '\n') = false := by decide
      simp [bracketsOf, hc, hnewline]
    rw [hlast] at hdyck
    rw [hdyck.not_isOpening_last c List.getLast?_concat] at hc
    cases hc
  | _ => cases hr

end RpcStubs.Layout
