import RpcStubs.Proofs.Code.Flat
import RpcStubs.Proofs.Text.Pieces

namespace RpcStubs.Layout

open Text

/-- Text that no clause rule is about, wherever it stands. -/
structure Tame (t : List Char) : Prop where
  attached : startsElse (trim t) = false
  tight : isLooseElse (trim t) = false
  clause : startsCase (trim t) = false ∧ startsDefault (trim t) = false
  calm : "else ".toList.isPrefixOf (trim t) = false

def clauseWords : List (List Char) := ["else".toList, "case".toList, "default".toList]

def leadWord (t : List Char) : List Char := t.takeWhile Name.isWordChar

theorem leadWord_append {w : List Char} (hw : ∀ c ∈ w, Name.isWordChar c = true) {d : Char}
    (hd : Name.isWordChar d = false) (rest : List Char) : leadWord (w ++ d :: rest) = w := by
  rw [leadWord, List.takeWhile_append_of_pos hw, List.takeWhile_cons_of_neg (by simp [hd]),
    List.append_nil]

theorem leadWord_self {w : List Char} (hw : ∀ c ∈ w, Name.isWordChar c = true) :
    leadWord w = w := List.takeWhile_eq_self_iff.2 hw

theorem exists_trim_of_head {t : List Char} (hb : ∀ c, t.head? = some c → isBlank c = false) :
    ∃ trail, t = trim t ++ trail ∧ Blanks trail := by
  obtain ⟨trail, ht, htrail, -⟩ := exists_trimEnd t
  refine ⟨trail, ?_, htrail⟩
  rwa [trim, trimStart, dropWhile_of_head hb]

theorem leadWord_trim {t : List Char} (hb : ∀ c, t.head? = some c → isBlank c = false) :
    leadWord (trim t) = leadWord t := by
  obtain ⟨trail, ht, htrail⟩ := exists_trim_of_head hb
  have hnil : trail.takeWhile Name.isWordChar = [] := by
    cases trail with
    | nil => rfl
    | cons c trail =>
      refine List.takeWhile_cons_of_neg fun hc ↦ ?_
      have hblank := htrail c List.mem_cons_self
      rw [isBlank_of_isWordChar hc] at hblank
      cases hblank
  conv_rhs => rw [ht]
  rw [leadWord, leadWord, List.takeWhile_append, hnil, List.append_nil]
  split_ifs with hl
  · exact List.takeWhile_prefix _ |>.eq_of_length hl
  · rfl

theorem head?_trim {t : List Char} (hb : ∀ c, t.head? = some c → isBlank c = false) :
    (trim t).head? = t.head? := by
  obtain ⟨trail, ht, htrail⟩ := exists_trim_of_head hb
  cases hc : trim t with
  | nil =>
    rw [hc, List.nil_append] at ht
    cases t with
    | nil => rfl
    | cons c t =>
      have hblank := htrail c (ht ▸ List.mem_cons_self)
      rw [hb c rfl] at hblank
      cases hblank
  | cons c rest =>
    rw [hc] at ht
    rw [ht]
    rfl

/-- A line is tame if it starts with none of the words of clauses, and with no closing brace. -/
theorem tame_of_leadWord {t : List Char} (hb : ∀ c, t.head? = some c → isBlank c = false)
    (hbrace : t.head? ≠ some '\x7d')
    (hw : leadWord t ∉ clauseWords) : Tame t := by
  rw [← leadWord_trim hb] at hw
  rw [← head?_trim hb] at hbrace
  have hword {w : List Char} (hmem : w ∈ clauseWords)
      (hchars : ∀ c ∈ w, Name.isWordChar c = true) {d : Char} (hd : Name.isWordChar d = false)
      (tail : List Char) : ¬(w ++ d :: tail) <+: trim t := by
    rintro ⟨rest, hrest⟩
    rw [← hrest, List.append_assoc, List.cons_append, leadWord_append hchars hd] at hw
    exact hw hmem
  have hclose (tail : List Char) : ¬('\x7d' :: tail) <+: trim t := by
    rintro ⟨rest, hrest⟩
    rw [← hrest] at hbrace
    exact hbrace rfl
  have helse {d : Char} (hd : Name.isWordChar d = false) (tail : List Char) :
      ¬("else".toList ++ d :: tail) <+: trim t := hword (by decide) (by decide) hd tail
  refine ⟨?_, ?_, ⟨?_, ?_⟩, ?_⟩
  · rw [← Bool.not_eq_true, startsElse_iff, not_or]
    exact ⟨hclose _, hclose _⟩
  · refine isLooseElse_eq_false_iff.2 ⟨fun h ↦ hw ?_, helse (d := ' ') (by decide) ['\x7b'],
      helse (d := ' ') (by decide) "if ".toList⟩
    rw [h]
    decide
  · rw [startsCase, ← Bool.not_eq_true, List.isPrefixOf_iff_prefix]
    exact hword (w := "case".toList) (d := ' ') (by decide) (by decide) (by decide) []
  · rw [startsDefault, ← Bool.not_eq_true, List.isPrefixOf_iff_prefix]
    exact hword (w := "default".toList) (d := ':') (by decide) (by decide) (by decide) []
  · rw [← Bool.not_eq_true, List.isPrefixOf_iff_prefix]
    exact helse (d := ' ') (by decide) []

theorem Tame.obeys {t : List Char} (h : Tame t) (enclosing closedFirst : Option Opener) :
    Obeys (trim t) enclosing closedFirst := by
  refine ⟨fun he ↦ ?_, h.tight, fun hc ↦ ?_⟩
  · rw [h.attached] at he
    cases he
  · rw [h.clause.1, h.clause.2] at hc
    rcases hc with hc | hc <;> cases hc

theorem tame_of_head {c : Char} (hc : isBlank c = false) (hw : c ∉ ['\x7d', 'e', 'c', 'd'])
    (rest : List Char) : Tame (c :: rest) := by
  simp only [List.mem_cons, List.not_mem_nil, or_false, not_or] at hw
  obtain ⟨hbrace, he, hcase, hd⟩ := hw
  refine tame_of_leadWord (by simp [hc]) (by simpa using hbrace) fun hmem ↦ ?_
  have hhead : ∀ w ∈ clauseWords,
      w.head? = some 'e' ∨ w.head? = some 'c' ∨ w.head? = some 'd' := by decide
  have hlead : ∀ d, (leadWord (c :: rest)).head? = some d → d = c := by
    intro d hd
    rw [leadWord, List.takeWhile_cons] at hd
    split_ifs at hd
    · simpa using hd.symm
    · cases hd
  rcases hhead _ hmem with h | h | h
  · exact he (hlead _ h).symm
  · exact hcase (hlead _ h).symm
  · exact hd (hlead _ h).symm

theorem tame_of_startsWord {c : Char} {rest : List Char} (hc : startsWord c = true)
    (hw : leadWord (c :: rest) ∉ clauseWords) : Tame (c :: rest) := by
  have hblank := isBlank_of_isWordChar (isWordChar_of_startsWord hc)
  refine tame_of_leadWord (by simp [hblank]) (fun h ↦ ?_) hw
  obtain rfl : c = '\x7d' := by simpa using h
  exact absurd hc (by decide)

theorem tame_of_isWord {w : List Char} (hw : isWord w = true) (hc : w ∉ clauseWords) : Tame w := by
  have hlead := leadWord_self fun _ ↦ isWordChar_of_mem hw
  obtain ⟨c, w, rfl, hstart⟩ := exists_of_isWord hw
  exact tame_of_startsWord hstart (hlead.symm ▸ hc)

/-- Text that begins tame lines only. -/
def Leads (t : List Char) : Prop := ∀ rest, Tame (t ++ rest)

theorem Leads.append {t : List Char} (h : Leads t) (u : List Char) : Leads (t ++ u) := by
  intro rest
  rw [List.append_assoc]
  exact h (u ++ rest)

theorem Leads.tame {t : List Char} (h : Leads t) : Tame t := by
  have h' := h []
  rwa [List.append_nil] at h'

theorem leads_word {w sep : List Char} (hw : isWord w = true) (hc : w ∉ clauseWords)
    (hs : sep.head?.any (fun d ↦ !Name.isWordChar d) = true) : Leads (w ++ sep) := by
  intro rest
  cases sep with
  | nil => cases hs
  | cons d sep =>
    have hd : Name.isWordChar d = false := by simpa using hs
    have hlead := leadWord_append (fun _ ↦ isWordChar_of_mem hw) hd (sep ++ rest)
    rw [List.append_assoc, List.cons_append]
    obtain ⟨c, w, rfl, hstart⟩ := exists_of_isWord hw
    exact tame_of_startsWord hstart (hlead.symm ▸ hc)

def isLead (t : List Char) : Bool :=
  isWord (leadWord t) && !clauseWords.contains (leadWord t) &&
    (t.dropWhile Name.isWordChar).head?.any fun d ↦ !Name.isWordChar d

theorem leads_of_isLead {t : List Char} (h : isLead t = true) : Leads t := by
  simp only [isLead, Bool.and_eq_true] at h
  obtain ⟨⟨hw, hc⟩, hs⟩ := h
  have hl := leads_word hw (by simpa using hc) hs
  rwa [leadWord, List.takeWhile_append_dropWhile] at hl

theorem leads_ofList {t : List Char} (h : isLead t = true) : Leads (String.ofList t).toList := by
  rw [String.toList_ofList]
  exact leads_of_isLead h

theorem soundLine_of_run {frames : List Frame} {gs : List Glyph} {q : Region} {after : Nesting}
    (hs : '\n' ∉ glyphText gs) (hm : Marked none (.inside .code) gs (.inside q))
    (hq : q.nextLine = some .code) (hrun : Nesting.run ⟨frames, none⟩ (turns [] gs) = some after)
    (ho : Obeys (trim (glyphText gs)) (enclosingOpener frames) after.closedFirst)
    (hc : enclosingOpener frames = some .struct →
      "else ".toList.isPrefixOf (trim (glyphText gs)) = false) :
    SoundLine frames (glyphText gs) after.frames :=
  ⟨⟨gs, after, rfl, ⟨hs, q, hm, hq⟩, ⟨hrun, fun _ ↦ ho, rfl⟩, rfl⟩, hc⟩

theorem run_of_dyck {gs : List Glyph} (hs : '\n' ∉ glyphText gs) (hd : Dyck (bracketsOf gs))
    (n : Nesting) (before : List Char) :
    ∃ after, n.run (turns before gs) = some after ∧ after.frames = n.frames := by
  have h := openAfter_textTurns_of_dyck hd before n.frames
  rw [textTurns_of_single hs, ← map_frames_run] at h
  obtain ⟨after, hrun, hframes⟩ := Option.map_eq_some_iff.1 h
  exact ⟨after, hrun, hframes⟩

/-- A statement that closes what it opens may stand where the rules let its text stand. -/
theorem Flat.soundLine_of_obeys {t : List Char} (h : Flat t) {frames : List Frame}
    (ho : ∀ closedFirst, Obeys (trim t) (enclosingOpener frames) closedFirst)
    (hc : enclosingOpener frames = some .struct → "else ".toList.isPrefixOf (trim t) = false) :
    SoundLine frames t frames := by
  obtain ⟨hs, gs, rfl, hd, hm⟩ := h
  obtain ⟨after, hrun, hframes⟩ := run_of_dyck hs hd ⟨frames, none⟩ []
  have hline := soundLine_of_run hs (hm none) rfl hrun (ho _) hc
  rwa [hframes] at hline

theorem Flat.soundLine {t : List Char} (h : Flat t) (ht : Tame t) (frames : List Frame) :
    SoundLine frames t frames :=
  h.soundLine_of_obeys (ht.obeys _) fun _ ↦ ht.calm

theorem isPlain_of_isOpening {b : Char} (h : isOpening b = true) : isPlain b = true ∧ b ≠ '\n' := by
  simp only [isOpening, Bool.or_eq_true, beq_iff_eq] at h
  rcases h with (rfl | rfl) | rfl <;> decide

theorem marked_bracket {b : Char} (h : isPlain b = true) (next : Option Char) :
    Marked next (.inside .code) [(b, .code)] (.inside .code) :=
  marked_plain (s := [b]) (by simpa using h)

theorem Flat.soundLine_opening {head : List Char} {b : Char} (h : Flat head)
    (hb : isOpening b = true) (ht : Tame (head ++ [b])) (frames : List Frame) :
    SoundLine frames (head ++ [b]) (⟨b, .of b head⟩ :: frames) := by
  obtain ⟨hs, gs, rfl, hd, hm⟩ := h
  obtain ⟨hplain, hn⟩ := isPlain_of_isOpening hb
  obtain ⟨after, hrun, hframes⟩ := run_of_dyck hs hd ⟨frames, none⟩ []
  have htext : glyphText (gs ++ [(b, .code)]) = glyphText gs ++ [b] := by simp
  rw [← htext] at ht ⊢
  have hopen : turns (glyphText gs) [(b, .code)] = [.opens ⟨b, .of b (glyphText gs)⟩] := by
    simp [turns, turnAt, hb]
  have hrun' : Nesting.run ⟨frames, none⟩ (turns [] (gs ++ [(b, .code)])) =
      some { after with frames := ⟨b, .of b (glyphText gs)⟩ :: frames } := by
    obtain rfl : after.frames = frames := hframes
    rw [turns_append, Nesting.run_append, hrun, List.nil_append, hopen]
    rfl
  exact soundLine_of_run (by simp [hs, hn.symm])
    ((hm _).append (marked_bracket hplain none)) rfl hrun' (ht.obeys _ _) fun _ ↦ ht.calm

theorem soundLine_closing {f : Frame} {c : Char} (hc : closes f.bracket c = true)
    (frames : List Frame) : SoundLine (f :: frames) [c] frames := by
  have hclosing : isOpening c = false ∧ isClosing c = true ∧ isPlain c = true ∧ c ≠ '\n' ∧
      Tame [c] := by
    simp only [closes, Bool.or_eq_true, Bool.and_eq_true, beq_iff_eq] at hc
    rcases hc with (⟨-, rfl⟩ | ⟨-, rfl⟩) | ⟨-, rfl⟩
    · exact ⟨by decide, by decide, by decide, by decide, by decide, by decide, by decide, by decide⟩
    · exact ⟨by decide, by decide, by decide, by decide, tame_of_head (by decide) (by decide) []⟩
    · exact ⟨by decide, by decide, by decide, by decide, tame_of_head (by decide) (by decide) []⟩
  obtain ⟨ho, hcl, hplain, hn, ht⟩ := hclosing
  have hrun : Nesting.run ⟨f :: frames, none⟩ (turns [] [(c, .code)]) =
      some ⟨frames, if c = '\x7d' then some f.opener else none⟩ := by
    simp [turns, turnAt, ho, hcl, Nesting.run, Nesting.turn, hc]
  have hline := soundLine_of_run (by simpa using hn.symm) (marked_bracket hplain none) rfl hrun
    (ht.obeys _ _) fun _ ↦ ht.calm
  exact hline

theorem not_isPrefixOf_trim_brace {c : Char} (hc : c ≠ '\x7d') (w rest : List Char) :
    (c :: w).isPrefixOf (trim ('\x7d' :: rest)) = false := by
  have hh : (trim ('\x7d' :: rest)).head? = some '\x7d' :=
    head?_trim fun d hd ↦ by rw [← Option.some_inj.1 hd]; decide
  obtain ⟨rest', hr⟩ := exists_cons_of_head? hh
  rw [hr, List.isPrefixOf, beq_eq_false_iff_ne.2 hc, Bool.false_and]

/-- A line that begins with a brace may only be an `else`. -/
theorem obeys_brace {rest : List Char} (enclosing : Option Opener) :
    Obeys (trim ('\x7d' :: rest)) enclosing (some .ifBlock) := by
  refine ⟨fun _ ↦ rfl, ?_, fun hc ↦ ?_⟩
  · rw [isLooseElse, Bool.or_eq_false_iff, Bool.or_eq_false_iff]
    refine ⟨⟨decide_eq_false fun he ↦ ?_, not_isPrefixOf_trim_brace (by decide) _ _⟩,
      not_isPrefixOf_trim_brace (by decide) _ _⟩
    have hp := not_isPrefixOf_trim_brace (c := 'e') (by decide) "lse".toList rest
    rw [he] at hp
    exact absurd hp (by decide)
  · have hcase := not_isPrefixOf_trim_brace (c := 'c') (by decide) "ase ".toList rest
    have hdefault := not_isPrefixOf_trim_brace (c := 'd') (by decide) "efault:".toList rest
    rcases hc with hc | hc
    · exact absurd (hcase.symm.trans hc) (by decide)
    · exact absurd (hdefault.symm.trans hc) (by decide)

/-- A line that closes an `if` and opens its other branch. -/
theorem Flat.soundLine_else {mid : List Char} (h : Flat mid) (frames : List Frame) :
    SoundLine (⟨'\x7b', .ifBlock⟩ :: frames) ('\x7d' :: (mid ++ ['\x7b']))
      (⟨'\x7b', .of '\x7b' ('\x7d' :: mid)⟩ :: frames) := by
  obtain ⟨hs, gs, rfl, hd, hm⟩ := h
  obtain ⟨after, hrun, hframes⟩ := run_of_dyck hs hd ⟨frames, some .ifBlock⟩ ['\x7d']
  have hfirst : after.closedFirst = some .ifBlock :=
    closedFirst_of_inner (inner_turns (by decide) gs) hrun
  obtain ⟨σ, closedFirst⟩ := after
  obtain rfl : σ = frames := hframes
  obtain rfl : closedFirst = some .ifBlock := hfirst
  have hclose : turnAt [] ('\x7d', .code) = [.closes '\x7d' true] := by decide
  have hopen : turns ('\x7d' :: glyphText gs) [('\x7b', .code)] =
      [.opens ⟨'\x7b', .of '\x7b' ('\x7d' :: glyphText gs)⟩] := by
    simp [turns, turnAt, isOpening]
  have hrun' : Nesting.run ⟨⟨'\x7b', .ifBlock⟩ :: σ, none⟩
      (turns [] (('\x7d', .code) :: (gs ++ [('\x7b', .code)]))) =
      some ⟨⟨'\x7b', .of '\x7b' ('\x7d' :: glyphText gs)⟩ :: σ, some .ifBlock⟩ := by
    rw [turns, hclose, List.nil_append, turns_append]
    simp only [List.singleton_append, hopen, Nesting.run, Nesting.turn]
    rw [if_pos (by decide), Option.bind_some, if_pos trivial, Nesting.run_append, hrun]
    rfl
  have hmarked : Marked none (.inside .code) (('\x7d', .code) :: (gs ++ [('\x7b', .code)]))
      (.inside .code) :=
    (marked_bracket (by decide) _).append ((hm _).append (marked_bracket (by decide) none))
  have htext : glyphText (('\x7d', .code) :: (gs ++ [('\x7b', .code)])) =
      '\x7d' :: (glyphText gs ++ ['\x7b']) := by simp
  rw [← htext]
  refine soundLine_of_run (by simp [hs]) hmarked rfl hrun' ?_ fun _ ↦ ?_
  · rw [htext]
    exact obeys_brace _
  · rw [htext]
    exact not_isPrefixOf_trim_brace (by decide) _ _

theorem soundLine_comment {s : List Char} (h : '\n' ∉ s) (frames : List Frame) :
    SoundLine frames ('/' :: '/' :: s) frames := by
  have htame : Tame ('/' :: '/' :: s) := tame_of_head (by decide) (by decide) _
  have htext : glyphText (('/' :: '/' :: s).map (·, .lineComment)) = '/' :: '/' :: s :=
    glyphText_map_pair _ _
  have hmarked : Marked none (.inside .code) (('/' :: '/' :: s).map (·, .lineComment))
      (.inside .lineComment) :=
    .cons (rfl : _ = some (Region.lineComment, Mode.opening .lineComment))
      (.cons rfl (marked_lineComment h))
  have hturns (before t : List Char) : turns before (t.map (·, Region.lineComment)) = [] := by
    induction t generalizing before with
    | nil => rfl
    | cons c t ih => simp [turns, turnAt, ih]
  rw [← htext] at htame ⊢
  have hrun : Nesting.run ⟨frames, none⟩ (turns [] (('/' :: '/' :: s).map (·, .lineComment))) =
      some ⟨frames, none⟩ := by
    rw [hturns]
    rfl
  refine soundLine_of_run ?_ hmarked rfl hrun (htame.obeys _ _) fun _ ↦ htame.calm
  rw [htext]
  simp [h]

theorem soundLine_blank (frames : List Frame) : SoundLine frames [] frames :=
  flat_nil.soundLine ⟨by decide, by decide, by decide, by decide⟩ frames

/-- Text of which the lines lead from one stack to another. -/
def SoundText (frames : List Frame) (s : List Char) (frames' : List Frame) : Prop :=
  Sound frames (pieces '\n' s) frames'

theorem SoundLine.single {frames frames' : List Frame} {t : List Char}
    (h : SoundLine frames t frames') : '\n' ∉ t := by
  obtain ⟨⟨gs, after, rfl, hm, -⟩, -⟩ := h
  exact hm.single

theorem SoundLine.text {frames frames' : List Frame} {t : List Char}
    (h : SoundLine frames t frames') : SoundText frames t frames' := by
  rw [SoundText, pieces_of_not_mem h.single]
  exact .cons h (.nil _)

theorem SoundText.append {frames frames' frames'' : List Frame} {a b : List Char}
    (ha : SoundText frames a frames') (hb : SoundText frames' b frames'') :
    SoundText frames (a ++ '\n' :: b) frames'' := by
  rw [SoundText, pieces_append]
  exact Sound.append ha hb

theorem Sound.single {frames frames' : List Frame} {ts : List (List Char)}
    (h : Sound frames ts frames') : ∀ t ∈ ts, '\n' ∉ t := by
  induction h with
  | nil => simp
  | cons hl _ ih =>
    intro t ht
    rcases List.mem_cons.1 ht with rfl | ht
    · exact hl.single
    · exact ih t ht

/-- Sound text that ends in something visible can be laid out, with nothing but a newline below. -/
theorem SoundText.exists_tidy {s : String} (h : SoundText [] s.toList []) {c : Char}
    (hc : s.toList.getLast? = some c) (hb : isBlank c = false) :
    ∃ text, format s = .ok (text ++ "\n") ∧ formatFragment s = .ok text ∧
      Formatted (pieces '\n' s.toList) (pieces '\n' text.toList) := by
  have hn : c ≠ '\n' := by
    rintro rfl
    exact absurd hb (by decide)
  obtain ⟨t, ht, htc⟩ := exists_getLast?_pieces hc hn
  have hblank : trim t ≠ [] := by
    intro htrim
    have h' := trim_eq_nil_iff.1 htrim c (List.mem_of_getLast? htc)
    rw [hb] at h'
    cases h'
  obtain ⟨ts', hformat, hf⟩ := Sound.exists_format h ht hblank
  rw [intercalate_pieces] at hformat
  have hne : ts' ≠ [] := by
    obtain ⟨t', -, hhead, -⟩ := hf.tidy.first
    rintro rfl
    cases hhead
  refine ⟨String.ofList (List.intercalate ['\n'] ts'), ?_, ?_, ?_⟩
  · rw [format_eq_ok_iff, hformat, joinLines_eq_intercalate hne]
    simp
  · rw [formatFragment, format, hformat, ← hf.tidy.trim_joinLines]
    simp [Except.map]
  · rwa [String.toList_ofList, pieces_intercalate hne hf.sound.single]

/-- Sound text that ends in something visible can be laid out as a fragment. -/
theorem SoundText.exists_fragment {s : String} (h : SoundText [] s.toList []) {c : Char}
    (hc : s.toList.getLast? = some c) (hb : isBlank c = false) :
    ∃ text, formatFragment s = .ok text ∧
      Formatted (pieces '\n' s.toList) (pieces '\n' text.toList) := by
  obtain ⟨text, -, hfragment, hf⟩ := h.exists_tidy hc hb
  exact ⟨text, hfragment, hf⟩

end RpcStubs.Layout
