import RpcStubs.Proofs.Code.StatementShapes

namespace RpcStubs

open Text Layout

/-- The line is indented as the row says, and has columns only where the row has a field. -/
structure Row.Fits (r : Row) (l : Line) : Prop where
  indented : l.indented = some r.line
  slot : (r.field? = none ∧ l.slot = .other) ∨
    ∃ w rest, r.field? = some w ∧ r.text.toList = w.toList ++ ' ' :: rest ∧
      l.slot = .cells r.depth (.field w.toList rest none)

/-- The row leads from the brackets open before it to those open after it. -/
structure Row.Read (frames : List Frame) (r : Row) (frames' : List Frame) : Prop where
  sound : SoundLine frames r.text.toList frames'
  ne_nil : r.text.toList ≠ []
  fits : ∀ gs after, glyphText gs = r.text.toList →
    Nesting.run ⟨frames, none⟩ (turns [] gs) = some after → after.frames = frames' →
      r.Fits (lineOf false frames r.text.toList after)

theorem indented_lineOf {t : List Char} (ht : Tight t) (hne : t ≠ []) (frames : List Frame)
    (after : Nesting) :
    (lineOf false frames t after).indented =
      some (List.replicate
        (if outdents t then frames.length - 1 else frames.length) '\t' ++ t) := by
  simp [Line.indented, Line.indent, lineOf, ht.trim_eq, hne]

/-- A line that has no columns, whatever is around it. -/
theorem Row.read_of_slot {frames frames' : List Frame} {depth : Nat} {text : String}
    (hs : SoundLine frames text.toList frames') (ht : Tight text.toList) (hne : text.toList ≠ [])
    (hdepth : (if outdents text.toList then frames.length - 1 else frames.length) = depth)
    (hslot : ∀ after : Nesting, after.frames = frames' →
      (lineOf false frames text.toList after).slot = .other) :
    Row.Read frames ⟨depth, text, none⟩ frames' where
  sound := hs
  ne_nil := hne
  fits gs after _ _ hafter := by
    refine ⟨?_, .inl ⟨rfl, hslot after hafter⟩⟩
    rw [indented_lineOf ht hne, hdepth]
    rfl

theorem slot_of_cells?_eq_none {l : Line} (hc : isCommentText (trim l.text) = false)
    (h : l.cells? = none) : l.slot = .other := by
  simp [Line.slot, hc, h]

theorem slot_of_cells?_eq_some {l : Line} {c : Cells} (hc : isCommentText (trim l.text) = false)
    (h : l.cells? = some c) : l.slot = .cells l.depth c := by
  simp [Line.slot, hc, h]

theorem isCommentText_of_head? {t : List Char} {c : Char} (hc : t.head? = some c) (hne : c ≠ '/') :
    isCommentText t = false := by
  obtain ⟨rest, rfl⟩ := exists_cons_of_head? hc
  rw [isCommentText]
  exact not_isPrefixOf_of_head (w := "//".toList) rfl rfl (Ne.symm hne)

/-- What is around a body, and whether it is taken for a structure. -/
structure Below (frames : List Frame) (inStruct : Bool) : Prop where
  struct_iff : enclosingOpener frames = some .struct ↔ inStruct = true
  not_literal : enclosingOpener frames ≠ some .literal

theorem Below.cells?_eq_none {frames : List Frame} (h : Below frames false) (t : List Char)
    (after : Nesting) : (lineOf false frames t after).cells? = none := by
  have hstruct : enclosingOpener frames ≠ some .struct := by simp [h.struct_iff]
  have hliteral := h.not_literal
  simp only [Line.cells?, lineOf]
  split_ifs <;> rfl

/-- A line that begins with something else than a brace closes nothing first. -/
theorem closedFirst_of_head? {gs : List Glyph} {c : Char} (hc : (glyphText gs).head? = some c)
    (hb : isBlank c = false) (hne : c ≠ '\x7d') {frames : List Frame} {after : Nesting}
    (h : Nesting.run ⟨frames, none⟩ (turns [] gs) = some after) : after.closedFirst = none := by
  refine closedFirst_of_inner (n := ⟨frames, none⟩) ?_ h
  cases gs with
  | nil => cases hc
  | cons g gs =>
    obtain rfl : g.1 = c := Option.some_inj.1 hc
    intro d hd
    rw [turns, List.mem_append] at hd
    rcases hd with hd | hd
    · unfold turnAt at hd
      split_ifs at hd <;> simp [hne] at hd
    · exact inner_turns (by simp [hb]) gs d hd

section Statements

variable {t : List Char} {w : Option String} (h : Statement t w)
include h

theorem Statement.ne_nil : t ≠ [] := by
  obtain ⟨c, hc, -⟩ := h.shape.exists_head
  rintro rfl
  cases hc

theorem Statement.isCommentText_eq_false : isCommentText t = false := by
  obtain ⟨c, hc, hstart⟩ := h.shape.exists_head
  refine isCommentText_of_head? hc ?_
  rintro rfl
  exact absurd hstart (by decide)

/-- A statement that may stand anywhere is neither a closing bracket nor a clause. -/
theorem Statement.outdents_eq_false (hs : SoundLine [] t []) : outdents t = false := by
  obtain ⟨c, hc, hstart⟩ := h.shape.exists_head
  obtain ⟨gs, after, htext, -, hn, -⟩ := hs.read
  have hobeys := hn.obeys rfl
  rw [MarkedLine.text_eq, htext, h.tight.trim_eq] at hobeys
  have hclosing : isClosing c = false := by
    have hword : isWord [c] = true := by simp [isWord, hstart]
    exact (unbracketed_of_isWord hword c List.mem_cons_self).2
  have hcase : startsCase t = false := by
    by_contra hcase
    cases hobeys.clause (.inl (by simpa using hcase))
  have hdefault : startsDefault t = false := by
    by_contra hdefault
    cases hobeys.clause (.inr (by simpa using hdefault))
  simp [outdents, hc, hclosing, hcase, hdefault]

/-- In a structure, a statement has the columns of a field. -/
theorem Statement.cells?_eq {frames : List Frame} (hbelow : Below frames true) {gs : List Glyph}
    (ht : glyphText gs = t) {after : Nesting}
    (hrun : Nesting.run ⟨frames, none⟩ (turns [] gs) = some after)
    (hafter : after.frames = frames) :
    (lineOf false frames t after).cells? = fieldCells? t := by
  obtain ⟨c, hc, hstart⟩ := h.shape.exists_head
  have hfirst : after.closedFirst = none := by
    refine closedFirst_of_head? (ht ▸ hc)
      (isBlank_of_isWordChar (isWordChar_of_startsWord hstart)) ?_ hrun
    rintro rfl
    exact absurd hstart (by decide)
  simp [Line.cells?, lineOf, hfirst, hafter, h.isCommentText_eq_false, hbelow.struct_iff.2 rfl,
    h.tight.trim_eq]

end Statements

theorem Statement.read {text : String} {w : Option String} (h : Statement text.toList w)
    {frames : List Frame} (hs : ∀ frames, SoundLine frames text.toList frames) {inStruct : Bool}
    (hbelow : Below frames inStruct) :
    Row.Read frames ⟨frames.length, text, if inStruct then w else none⟩ frames := by
  have hcomment : isCommentText (trim text.toList) = false := by
    rw [h.tight.trim_eq]
    exact h.isCommentText_eq_false
  have hdepth : (if outdents text.toList then frames.length - 1 else frames.length) =
      frames.length := by
    simp [h.outdents_eq_false (hs [])]
  cases inStruct with
  | false =>
    exact Row.read_of_slot (hs frames) h.tight h.ne_nil hdepth fun after _ ↦
      slot_of_cells?_eq_none hcomment (hbelow.cells?_eq_none _ after)
  | true =>
    refine ⟨hs frames, h.ne_nil, fun gs after htext hrun hafter ↦ ⟨?_, ?_⟩⟩
    · rw [indented_lineOf h.tight h.ne_nil, hdepth]
      rfl
    · have hcells := h.cells?_eq hbelow htext hrun hafter
      cases w with
      | none =>
        exact .inl ⟨rfl, slot_of_cells?_eq_none hcomment (hcells.trans h.shape.fieldCells?_eq_none)⟩
      | some w =>
        have hquote : '\x60' ∉ text.toList := fun hmem ↦ (h.bare _ hmem).2 rfl
        obtain ⟨rest, hrest, hfield⟩ := h.shape.exists_fieldCells? hquote
        exact .inr ⟨w, rest, rfl, hrest, slot_of_cells?_eq_some hcomment (hcells.trans hfield)⟩

theorem Step.exists_read {s : Step} (hp : s.isPlain = true) (h : s.Simple) {b : Block}
    (hb : s.emit = .ok b) {frames : List Frame} {inStruct : Bool} (hbelow : Below frames inStruct) :
    ∃ text, s.lines = [text] ∧ Row.Read frames
      ⟨frames.length, text, if inStruct then s.firstWord? else none⟩ frames := by
  have hstatement := Step.yields_statement hp h
  rw [hb] at hstatement
  obtain ⟨text, htext, hstatement⟩ := hstatement.of_ok
  refine ⟨text, htext, hstatement.read (fun frames ↦ ?_) hbelow⟩
  have hemits : Emits (fun _ ↦ True) frames s frames := Step.emits_plain hp h
  rw [Emits, hb] at hemits
  have hlines := hemits.of_ok.lines
  rw [Step.lines_emit hb, htext] at hlines
  cases hlines with
  | cons hline hnil =>
    cases hnil
    rw [SoundText, pieces_of_not_mem fun hmem ↦ (hstatement.bare _ hmem).1 rfl] at hline
    cases hline with
    | cons hline hnil =>
      cases hnil
      exact hline

theorem tight_of_ends {t : List Char} {c d : Char} (hc : t.head? = some c) (hb : isBlank c = false)
    (hd : t.getLast? = some d) (hb' : isBlank d = false) : Tight t := by
  constructor
  · intro e he
    obtain rfl := Option.some_inj.1 (hc.symm.trans he)
    exact hb
  · intro e he
    obtain rfl := Option.some_inj.1 (hd.symm.trans he)
    exact hb'

theorem outdents_of_tame {t : List Char} (ht : Tame t) (htight : Tight t) {c : Char}
    (hc : t.head? = some c) (hclosing : isClosing c = false) : outdents t = false := by
  have hclause := ht.clause
  rw [htight.trim_eq] at hclause
  simp only [outdents, hc, Option.any_some, hclosing, hclause.1, hclause.2, Bool.or_self]

theorem Row.read_flat {text : String} (hf : Flat text.toList) (ht : Tame text.toList)
    (htight : Tight text.toList) {c : Char} (hc : text.toList.head? = some c)
    (hclosing : isClosing c = false) (hslash : c ≠ '/') {frames : List Frame}
    (hcells : ∀ after : Nesting, (lineOf false frames text.toList after).cells? = none) :
    Row.Read frames ⟨frames.length, text, none⟩ frames := by
  have hne : text.toList ≠ [] := by
    intro hnil
    rw [hnil] at hc
    cases hc
  have hdepth : (if outdents text.toList then frames.length - 1 else frames.length) =
      frames.length := by
    rw [outdents_of_tame ht htight hc hclosing]
    rfl
  have hcomment : isCommentText (trim text.toList) = false := by
    rw [htight.trim_eq]
    exact isCommentText_of_head? hc hslash
  exact Row.read_of_slot (hf.soundLine ht frames) htight hne hdepth fun after _ ↦
    slot_of_cells?_eq_none hcomment (hcells after)

theorem Row.read_open {before : String} (hf : Flat before.toList) (hl : Leads before.toList)
    {c : Char} (hc : before.toList.head? = some c) (hw : startsWord c = true)
    (frames : List Frame) :
    Row.Read frames ⟨frames.length, before ++ "\x7b", none⟩
      (⟨'\x7b', .of '\x7b' before.toList⟩ :: frames) := by
  have hsplit : (before ++ "\x7b").toList = before.toList ++ ['\x7b'] := by simp
  have hhead : (before ++ "\x7b").toList.head? = some c := by
    rw [hsplit, List.head?_append, hc]
    rfl
  have hlast : (before ++ "\x7b").toList.getLast? = some '\x7b' := by
    rw [hsplit, List.getLast?_append]
    rfl
  have hblank := isBlank_of_isWordChar (isWordChar_of_startsWord hw)
  have htight := tight_of_ends hhead hblank hlast (by decide)
  have htame : Tame (before ++ "\x7b").toList := by
    rw [hsplit]
    exact hl _
  have hsound : SoundLine frames (before ++ "\x7b").toList
      (⟨'\x7b', .of '\x7b' before.toList⟩ :: frames) := by
    rw [hsplit] at htame ⊢
    exact hf.soundLine_opening rfl htame frames
  have hclosing : isClosing c = false := by
    have hword : isWord [c] = true := by simp [isWord, hw]
    exact (unbracketed_of_isWord hword c List.mem_cons_self).2
  have hdepth : (if outdents (before ++ "\x7b").toList then frames.length - 1
      else frames.length) = frames.length := by
    rw [outdents_of_tame htame htight hhead hclosing]
    rfl
  refine Row.read_of_slot hsound htight (by simp) hdepth fun after hafter ↦ ?_
  have hcomment : isCommentText (trim (before ++ "\x7b").toList) = false := by
    rw [htight.trim_eq]
    refine isCommentText_of_head? hhead ?_
    rintro rfl
    exact absurd hw (by decide)
  refine slot_of_cells?_eq_none hcomment ?_
  simp [Line.cells?, lineOf, hafter]

theorem Row.read_opening {head : String} (hf : Flat head.toList) (hl : Leads head.toList) {c : Char}
    (hc : head.toList.head? = some c) (hw : startsWord c = true) (frames : List Frame) :
    Row.Read frames ⟨frames.length, head ++ " \x7b", none⟩ (blockFrame head :: frames) := by
  have hspaced : (head ++ " ").toList = head.toList ++ [' '] := by simp
  have htext : head ++ " " ++ "\x7b" = head ++ " \x7b" := by
    rw [String.append_assoc]
    rfl
  have hread : Row.Read frames ⟨frames.length, head ++ " " ++ "\x7b", none⟩
      (⟨'\x7b', .of '\x7b' (head ++ " ").toList⟩ :: frames) := by
    refine Row.read_open ?_ ?_ (c := c) ?_ hw frames <;> rw [hspaced]
    · exact hf.append (flat_of_isFlat (by decide))
    · exact hl.append _
    · rw [List.head?_append, hc]
      rfl
  rwa [htext, hspaced] at hread

/-- A line that begins with something else than a word has no columns. -/
theorem columnless_of_head {t : List Char} {c : Char} (h : t.head? = some c)
    (hw : startsWord c = false) (ht : Tight t) : Columnless t := by
  obtain ⟨rest, rfl⟩ := exists_cons_of_head? h
  have hname {sep : Char} {name tail : List Char}
      (hcut : cutFirst sep (c :: rest) = some (name, tail)) : isWord name = false := by
    obtain ⟨hsplit, -⟩ := cutFirst_eq_some_iff.1 hcut
    cases name with
    | nil => rfl
    | cons d name =>
      obtain rfl := (List.cons.inj hsplit).1
      rw [isWord, hw, Bool.false_and]
  constructor
  · rw [ht.trim_eq, fieldCells?]
    split
    · rfl
    · next name tail hcut => simp [hname hcut]
  · rw [ht.trim_eq, keyedCells?]
    split
    · rfl
    · next key value hcut => simp [hname hcut]

theorem Row.read_brace {f : Frame} {frames frames' : List Frame} {text : String}
    (hs : SoundLine (f :: frames) text.toList frames') (hhead : text.toList.head? = some '\x7d')
    {c : Char} (hlast : text.toList.getLast? = some c) (hb : isBlank c = false) :
    Row.Read (f :: frames) ⟨frames.length, text, none⟩ frames' := by
  have htight := tight_of_ends hhead (by decide) hlast hb
  have hne : text.toList ≠ [] := by
    intro hnil
    rw [hnil] at hhead
    cases hhead
  have houtdents : outdents text.toList = true := by simp [outdents, hhead, isClosing]
  refine Row.read_of_slot hs htight hne (by simp [houtdents]) fun after _ ↦ ?_
  refine slot_of_cells?_eq_none ?_
    (Columnless.cells?_eq_none (columnless_of_head hhead (by decide) htight))
  show isCommentText (trim text.toList) = false
  rw [htight.trim_eq]
  exact isCommentText_of_head? hhead (by decide)

theorem Row.read_close (o : Opener) (frames : List Frame) :
    Row.Read (⟨'\x7b', o⟩ :: frames) ⟨frames.length, "\x7d", none⟩ frames :=
  Row.read_brace (soundLine_closing rfl frames) rfl (c := '\x7d') rfl (by decide)

theorem Row.read_else {mid : String} (h : Flat mid.toList) (frames : List Frame) :
    Row.Read (⟨'\x7b', .ifBlock⟩ :: frames) ⟨frames.length, "\x7d" ++ mid ++ " \x7b", none⟩
      (blockFrame ("\x7d" ++ mid) :: frames) := by
  have hline := (h.append (b := [' ']) (flat_of_isFlat (by decide))).soundLine_else frames
  have hsplit := toList_elseLine mid
  rw [blockFrame_elseLine]
  refine Row.read_brace (c := '\x7b') (hsplit ▸ hline) (by rw [hsplit]; rfl) ?_ (by decide)
  rw [hsplit, ← List.cons_append, List.getLast?_append]
  rfl

theorem below_switch (frames : List Frame) : Below (switchFrame :: frames) false :=
  ⟨by simp [enclosingOpener, switchFrame], by simp [enclosingOpener, switchFrame]⟩

structure Label (text : String) : Prop where
  flat : Flat text.toList
  clause : startsCase text.toList = true ∨ startsDefault text.toList = true
  ends : Ends text.toList

theorem Label.exists_head {text : String} (h : Label text) :
    ∃ c, text.toList.head? = some c ∧ (c = 'c' ∨ c = 'd') := by
  rcases h.clause with hc | hc
  · rw [startsCase, List.isPrefixOf_iff_prefix] at hc
    obtain ⟨rest, hrest⟩ := hc
    exact ⟨'c', by rw [← hrest]; rfl, .inl rfl⟩
  · rw [startsDefault, List.isPrefixOf_iff_prefix] at hc
    obtain ⟨rest, hrest⟩ := hc
    exact ⟨'d', by rw [← hrest]; rfl, .inr rfl⟩

theorem Label.tight {text : String} (h : Label text) : Tight text.toList := by
  obtain ⟨c, hc, hcd⟩ := h.exists_head
  obtain ⟨d, hd, hb⟩ := h.ends
  refine tight_of_ends hc ?_ hd hb
  rcases hcd with rfl | rfl <;> decide

theorem label_default : Label "default:" :=
  ⟨flat_ofList (by decide), .inr rfl, ':', rfl, by decide⟩

theorem label_case {values : List String} (h : ∀ v ∈ values, IsSelector v) :
    Label (clauseLabel values) where
  flat := by
    rw [clauseLabel, String.toList_append, String.toList_append]
    exact ((flat_ofList (by decide)).append (flat_valueList fun v hv ↦
      (h v hv).selector.flat)).append (flat_ofList (by decide))
  clause := by
    left
    rw [startsCase, List.isPrefixOf_iff_prefix, clauseLabel, String.toList_append,
      String.toList_append, List.append_assoc]
    exact List.prefix_append _ _
  ends := by
    rw [clauseLabel, String.toList_append]
    exact Ends.append ⟨':', rfl, by decide⟩ _

/-- A branch directly inside a switch. -/
theorem Label.read {text : String} (h : Label text) (frames : List Frame) :
    Row.Read (switchFrame :: frames) ⟨frames.length, text, none⟩ (switchFrame :: frames) := by
  obtain ⟨c, hc, hcd⟩ := h.exists_head
  have hne : text.toList ≠ [] := by
    intro hnil
    rw [hnil] at hc
    cases hc
  have houtdents : outdents text.toList = true := by
    rw [outdents, Bool.or_assoc, Bool.or_eq_true, Bool.or_eq_true]
    exact .inr h.clause
  refine Row.read_of_slot (h.flat.soundLine_clause hc hcd frames) h.tight hne
    (by simp [houtdents]) fun after _ ↦ ?_
  refine slot_of_cells?_eq_none ?_ ((below_switch frames).cells?_eq_none _ after)
  show isCommentText (trim text.toList) = false
  rw [h.tight.trim_eq]
  refine isCommentText_of_head? hc ?_
  rcases hcd with rfl | rfl <;> decide

/-- A branch outside of a switch. -/
theorem Label.unreadable {text : String} (h : Label text) {frames : List Frame}
    (hf : enclosingOpener frames ≠ some .switch) : Unreadable frames text.toList := by
  refine ⟨h.flat.single, ?_, fun gs m line after ht _ hn ↦ hf ?_⟩
  · obtain ⟨c, hc, -⟩ := h.exists_head
    intro hnil
    rw [hnil] at hc
    cases hc
  · have hclause := (hn.obeys rfl).clause
    rw [MarkedLine.text_eq, ht, h.tight.trim_eq] at hclause
    exact hclause h.clause

def blockOf (kind : Opener) (takes : Bool) : Frame := ⟨'\x7b', if takes then kind else .struct⟩

theorem below_blockOf {kind : Opener} (hs : kind ≠ .struct) (hl : kind ≠ .literal) (takes : Bool)
    (frames : List Frame) : Below (blockOf kind takes :: frames) (!takes) := by
  cases takes <;> constructor <;> simp [enclosingOpener, blockOf, hs, hl]

/-- The kind of a block of which the head ends in an operand. -/
theorem blockFrame_operand {head lead right : String} (hhead : head = lead ++ " " ++ right)
    (hr : Selector right) {c : Char} (hc : lead.toList.head? = some c) (hb : isBlank c = false)
    {kind : Opener} (hkind : Opener.ofHead head.toList = kind) :
    blockFrame head = blockOf kind (takesBranches right) := by
  have htext : head.toList = lead.toList ++ [' '] ++ right.toList := by simp [hhead]
  have hsplit : head.toList ++ [' '] = lead.toList ++ [' '] ++ (right.toList ++ [' ']) := by
    rw [htext, List.append_assoc]
  rw [blockFrame, hsplit, of_operand hr hc hb, ← htext, hkind]
  rfl

theorem not_struct_of_getLast? {t : List Char} {c : Char} (h : t.getLast? = some c) (hc : 't' ≠ c) :
    "struct".toList.isSuffixOf t = false := by
  by_contra hsuffix
  rw [Bool.not_eq_false, List.isSuffixOf_iff_suffix] at hsuffix
  obtain ⟨lead, hlead⟩ := hsuffix
  rw [← hlead, List.getLast?_append] at h
  exact hc (Option.some_inj.1 h)

/-- The kind of a block of which the head ends in a closing parenthesis. -/
theorem blockFrame_paren {head : String} {c : Char} (hc : head.toList.head? = some c)
    (hb : isBlank c = false) (hlast : head.toList.getLast? = some ')') {kind : Opener}
    (hkind : Opener.ofHead head.toList = kind) : blockFrame head = ⟨'\x7b', kind⟩ := by
  have htrim : trim (head.toList ++ [' ']) = head.toList := by
    rw [trim_append_blanks (blanks_singleton rfl),
      (tight_of_ends hc hb hlast (by decide)).trim_eq]
  have hgap : (head.toList ++ [' ']).getLast?.any isBlank = true := by
    rw [List.getLast?_append]
    exact (by decide : isBlank ' ' = true)
  rw [blockFrame, of_brace, htrim, not_struct_of_getLast? hlast (by decide), hgap, hkind,
    Bool.not_true, Bool.and_false]
  rfl

/-- A brace right behind a type opens a literal. -/
theorem of_eq_literal {t : List Char} {c d : Char} (hc : t.head? = some c) (hb : isBlank c = false)
    (hd : t.getLast? = some d) (hb' : isBlank d = false) (hne : 't' ≠ d) :
    Opener.of '\x7b' t = .literal := by
  have htight := tight_of_ends hc hb hd hb'
  have hempty : t.isEmpty = false := by
    obtain ⟨rest, rfl⟩ := exists_cons_of_head? hc
    rfl
  rw [of_brace, htight.trim_eq, not_struct_of_getLast? hd hne, hd, Option.any_some, hb', hempty]
  rfl

end RpcStubs
