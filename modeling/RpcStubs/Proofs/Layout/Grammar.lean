import RpcStubs.Proofs.Layout.Brackets
import RpcStubs.Proofs.Layout.Content

namespace RpcStubs.Layout

open Text

structure LineAt (gs before line : List Glyph) : Prop where
  split : ∃ after, gs = before ++ (line ++ after) ∧
    (after = [] ∨ ∃ r rest, after = ('\n', r) :: rest)
  single : '\n' ∉ glyphText line
  start : before = [] ∨ ∃ lines r, before = lines ++ [('\n', r)]

def StartsInside (before : List Glyph) : Prop :=
  ∃ lines r, before = lines ++ [('\n', r)] ∧ r.spansLines = true

/-- Where clauses may stand. -/
structure ClauseRules (before line : List Glyph) : Prop where
  attached : "\x7d else \x7b".toList <+: trim (glyphText line) ∨
      "\x7d else if ".toList <+: trim (glyphText line) →
    ∃ lead rest, line = lead ++ ('\x7d', .code) :: rest ∧ Blanks (glyphText lead) ∧
      InBrace (before ++ lead) .ifBlock
  tight : trim (glyphText line) ≠ "else".toList ∧ ¬"else \x7b".toList <+: trim (glyphText line) ∧
    ¬"else if ".toList <+: trim (glyphText line)
  clause : "case ".toList <+: trim (glyphText line) ∨ "default:".toList <+: trim (glyphText line) →
    InBrace before .switch

theorem first_newline_unique {a a' b b' : List Glyph} {r r' : Region} (ha : '\n' ∉ glyphText a)
    (ha' : '\n' ∉ glyphText a') (h : a ++ ('\n', r) :: b = a' ++ ('\n', r') :: b') :
    a = a' ∧ r = r' ∧ b = b' := by
  induction a generalizing a' with
  | nil =>
    cases a' with
    | nil =>
      cases h
      exact ⟨rfl, rfl, rfl⟩
    | cons g a' =>
      obtain ⟨rfl, -⟩ := List.cons.inj h
      simp at ha'
  | cons g a ih =>
    cases a' with
    | nil =>
      obtain ⟨rfl, -⟩ := List.cons.inj h
      simp at ha
    | cons g' a' =>
      obtain ⟨rfl, htail⟩ := List.cons.inj h
      simp only [glyphText_cons, List.mem_cons, not_or] at ha ha'
      obtain ⟨rfl, rfl, rfl⟩ := ih ha.2 ha'.2 htail
      exact ⟨rfl, rfl, rfl⟩

theorem lineAt_of_single {gs before line : List Glyph} (h : '\n' ∉ glyphText gs) :
    LineAt gs before line ↔ before = [] ∧ line = gs := by
  constructor
  · rintro ⟨⟨after, rfl, hafter⟩, hline, hstart⟩
    simp only [glyphText_append, List.mem_append, not_or] at h
    obtain ⟨hb, -, ha⟩ := h
    obtain rfl : before = [] := by
      rcases hstart with hb' | ⟨lines, r, rfl⟩
      · exact hb'
      · simp at hb
    obtain rfl : after = [] := by
      rcases hafter with ha' | ⟨r, rest, rfl⟩
      · exact ha'
      · simp at ha
    simp
  · rintro ⟨rfl, rfl⟩
    exact ⟨⟨[], by simp, .inl rfl⟩, h, .inl rfl⟩

theorem lineAt_cons {a b before line : List Glyph} {r : Region} (ha : '\n' ∉ glyphText a) :
    LineAt (a ++ ('\n', r) :: b) before line ↔
      (before = [] ∧ line = a) ∨
        ∃ before', before = a ++ ('\n', r) :: before' ∧ LineAt b before' line := by
  constructor
  · rintro ⟨⟨after, hsplit, hafter⟩, hline, hstart⟩
    rcases newline_cases before with hb | ⟨a', r', before', rfl, ha'⟩
    · left
      obtain rfl : before = [] := by
        rcases hstart with hb' | ⟨lines, r, rfl⟩
        · exact hb'
        · simp at hb
      rcases hafter with rfl | ⟨r', rest, rfl⟩
      · rw [List.nil_append, List.append_nil] at hsplit
        rw [← hsplit] at hline
        simp at hline
      · obtain ⟨rfl, -⟩ := first_newline_unique ha hline hsplit
        exact ⟨rfl, rfl⟩
    · right
      rw [List.append_assoc, List.cons_append] at hsplit
      obtain ⟨rfl, rfl, rfl⟩ := first_newline_unique ha ha' hsplit
      refine ⟨before', rfl, ⟨after, rfl, hafter⟩, hline, ?_⟩
      rcases hstart with hb | ⟨lines, r', hb⟩
      · simp at hb
      · rcases List.eq_nil_or_concat before' with rfl | ⟨pre, g, rfl⟩
        · exact .inl rfl
        · refine .inr ⟨pre, r', ?_⟩
          have hcat : (a ++ ('\n', r) :: pre) ++ [g] = lines ++ [('\n', r')] := by simpa using hb
          rw [List.concat_eq_append, (List.append_inj' hcat rfl).2]
  · rintro (⟨rfl, rfl⟩ | ⟨before', rfl, ⟨after, rfl, hafter⟩, hline, hstart⟩)
    · exact ⟨⟨('\n', r) :: b, rfl, .inr ⟨r, b, rfl⟩⟩, ha, .inl rfl⟩
    · refine ⟨⟨after, by simp, hafter⟩, hline, .inr ?_⟩
      rcases hstart with rfl | ⟨lines, r', rfl⟩
      · exact ⟨a, r, rfl⟩
      · exact ⟨a ++ ('\n', r) :: lines, r', by simp⟩

theorem startsElse_iff {t : List Char} :
    startsElse t = true ↔
      "\x7d else \x7b".toList <+: t ∨ "\x7d else if ".toList <+: t := by
  rw [startsElse, Bool.or_eq_true, List.isPrefixOf_iff_prefix, List.isPrefixOf_iff_prefix]

theorem isLooseElse_eq_false_iff {t : List Char} :
    isLooseElse t = false ↔ t ≠ "else".toList ∧ ¬"else \x7b".toList <+: t ∧
      ¬"else if ".toList <+: t := by
  rw [isLooseElse, Bool.or_eq_false_iff, Bool.or_eq_false_iff, decide_eq_false_iff_not,
    ← Bool.not_eq_true, ← Bool.not_eq_true, List.isPrefixOf_iff_prefix, List.isPrefixOf_iff_prefix,
    and_assoc]

theorem exists_of_startsElse {line : List Glyph} {m : Mode}
    (hm : Marked none (.inside .code) line m) (hs : '\n' ∉ glyphText line)
    (h : startsElse (trim (glyphText line)) = true) :
    ∃ lead rest, line = lead ++ ('\x7d', .code) :: rest ∧ Blanks (glyphText lead) := by
  obtain ⟨lead, core, trail, he, hl, -, hcore⟩ := exists_glyphs_trim line
  obtain ⟨rest, hrest⟩ : ∃ rest, trim (glyphText line) = '\x7d' :: rest := by
    rcases startsElse_iff.1 h with ⟨rest, hr⟩ | ⟨rest, hr⟩ <;> exact ⟨_, hr.symm⟩
  rw [hrest] at hcore
  cases core with
  | nil => cases hcore
  | cons g core =>
    obtain ⟨c, r⟩ := g
    obtain ⟨rfl, -⟩ := List.cons.inj hcore
    have hsl : Spaces (glyphText lead) := by
      refine spaces_of_blanks hl fun hn ↦ hs ?_
      rw [he]
      simp [hn]
    rw [he, List.append_assoc] at hm
    obtain ⟨-, hm'⟩ := hm.drop_lead hsl
    obtain rfl : r = .code := by
      cases hm' with
      | cons hr _ =>
        rw [Mode.read, readCode_of_isPlain (by decide)] at hr
        cases hr
        rfl
    exact ⟨lead, core ++ trail, by rw [he]; simp, hl⟩

theorem closedFirst_of_inner {ts : List Turn} (hi : Inner ts) {n after : Nesting}
    (h : n.run ts = some after) : after.closedFirst = n.closedFirst := by
  induction ts generalizing n with
  | nil =>
    cases h
    rfl
  | cons t ts ih =>
    have hi' : Inner ts := fun c hc ↦ hi c (List.mem_cons_of_mem t hc)
    cases t with
    | opens f => exact ih (n := { n with frames := f :: n.frames }) hi' h
    | closes c first =>
      obtain rfl : first = false := by
        cases first with
        | false => rfl
        | true => exact absurd List.mem_cons_self (hi c)
      obtain ⟨frames, closedFirst⟩ := n
      cases frames with
      | nil => cases h
      | cons f rest =>
        rw [Nesting.run, Nesting.turn] at h
        by_cases hc : closes f.bracket c = true
        · simp only [hc, if_true, Bool.false_eq_true, if_false, Option.bind_some] at h
          exact ih (n := ⟨rest, closedFirst⟩) hi' h
        · simp [hc] at h

/-- A brace that begins a line closes the innermost bracket, which is a brace. -/
theorem closedFirst_of_brace {frames : List Frame} {lead rest : List Glyph} {after : Nesting}
    (hl : Blanks (glyphText lead))
    (h : Nesting.run ⟨frames, none⟩ (turns [] (lead ++ ('\x7d', .code) :: rest)) = some after) :
    ∃ f below, frames = f :: below ∧ f.bracket = '\x7b' ∧ after.closedFirst = some f.opener := by
  have hall : (glyphText lead).all isBlank = true := List.all_eq_true.2 hl
  have hturn : turnAt (glyphText lead) ('\x7d', .code) = [.closes '\x7d' true] := by
    simp only [turnAt, hall]
    rfl
  have hinner : Inner (turns (glyphText lead ++ ['\x7d']) rest) := by
    refine inner_turns ?_ rest
    rw [List.all_append, hall]
    decide
  rw [turns_append, turns_of_unbracketed (unbracketed_of_blanks hl), List.nil_append,
    List.nil_append, turns, hturn, List.singleton_append] at h
  obtain ⟨n', hn', hrun⟩ := Option.bind_eq_some_iff.1 h
  cases frames with
  | nil => cases hn'
  | cons f below =>
    rw [Nesting.turn] at hn'
    simp only at hn'
    split_ifs at hn' with hc
    · cases hn'
      refine ⟨f, below, rfl, ?_, ?_⟩
      · simpa [closes] using hc
      · exact closedFirst_of_inner hinner hrun

theorem openAfter_lead {before lead : List Glyph} {frames : List Frame}
    (h : openAfter [] (textTurns [] before) = some frames) (hl : Blanks (glyphText lead)) :
    openAfter [] (textTurns [] (before ++ lead)) = some frames := by
  have hnone : bracketsOf lead = [] := by
    refine List.map_eq_nil_iff.2 (List.filter_eq_nil_iff.2 fun g hg ↦ ?_)
    obtain ⟨ho, hc⟩ := unbracketed_of_blanks hl g.1 (List.mem_map_of_mem hg)
    simp [ho, hc]
  rw [textTurns_append (by simp), openAfter_append, h, Option.bind_some]
  exact openAfter_textTurns_of_dyck (hnone ▸ .nil) _ _

theorem enclosingOpener_eq_switch_iff {before : List Glyph} {frames : List Frame}
    (h : openAfter [] (textTurns [] before) = some frames) :
    enclosingOpener frames = some .switch ↔ InBrace before .switch := by
  rw [inBrace_iff h]
  constructor
  · intro he
    cases frames with
    | nil => cases he
    | cons f rest =>
      have hf : f.opener = .switch := Option.some_inj.1 he
      have hb : f.bracket = '\x7b' := bracket_eq_of_opener h (by rw [hf]; decide)
      obtain ⟨b, o⟩ := f
      obtain rfl : o = .switch := hf
      obtain rfl : b = '\x7b' := hb
      exact ⟨rest, rfl⟩
  · rintro ⟨rest, rfl⟩
    rfl

/-- What is checked when a line is read are the rules for where it stands. -/
theorem obeys_iff_clauseRules {before line : List Glyph} {frames : List Frame} {after : Nesting}
    {m : Mode} (hm : Marked none (.inside .code) line m) (hs : '\n' ∉ glyphText line)
    (hbefore : openAfter [] (textTurns [] before) = some frames)
    (hrun : Nesting.run ⟨frames, none⟩ (turns [] line) = some after) :
    Obeys (trim (glyphText line)) (enclosingOpener frames) after.closedFirst ↔
      ClauseRules before line := by
  have hclause : startsCase (trim (glyphText line)) = true ∨
      startsDefault (trim (glyphText line)) = true ↔
      "case ".toList <+: trim (glyphText line) ∨ "default:".toList <+: trim (glyphText line) := by
    rw [startsCase, startsDefault, List.isPrefixOf_iff_prefix, List.isPrefixOf_iff_prefix]
  constructor
  · rintro ⟨hattached, htight, hcase⟩
    refine ⟨fun h ↦ ?_, isLooseElse_eq_false_iff.1 htight, fun h ↦ ?_⟩
    · have helse := startsElse_iff.2 h
      obtain ⟨lead, rest, rfl, hl⟩ := exists_of_startsElse hm hs helse
      obtain ⟨f, below, rfl, hb, hfirst⟩ := closedFirst_of_brace hl hrun
      rw [hattached helse, Option.some_inj] at hfirst
      refine ⟨lead, rest, rfl, hl, (inBrace_iff (openAfter_lead hbefore hl)).2 ⟨below, ?_⟩⟩
      rw [hfirst, ← hb]
    · exact (enclosingOpener_eq_switch_iff hbefore).1 (hcase (hclause.2 h))
  · rintro ⟨hattached, htight, hcase⟩
    refine ⟨fun h ↦ ?_, isLooseElse_eq_false_iff.2 htight, fun h ↦ ?_⟩
    · obtain ⟨lead, rest, rfl, hl, hin⟩ := hattached (startsElse_iff.1 h)
      obtain ⟨f, below, rfl, -, hfirst⟩ := closedFirst_of_brace hl hrun
      obtain ⟨below', hf⟩ := (inBrace_iff (openAfter_lead hbefore hl)).1 hin
      obtain ⟨rfl, -⟩ := List.cons.inj hf
      exact hfirst
    · exact (enclosingOpener_eq_switch_iff hbefore).2 (hcase (hclause.1 h))

theorem exists_lineNested_iff {v : Bool} {before line : List Glyph} {frames frames' : List Frame}
    {r : Region} {m : Mode} (hr : r.nextLine = some r) (hv : v = r.spansLines)
    (hm : Marked none (.inside r) line m) (hs : '\n' ∉ glyphText line)
    (hbefore : openAfter [] (textTurns [] before) = some frames) :
    (∃ l after, LineNested frames ⟨v, line⟩ l after ∧ after.frames = frames') ↔
      openAfter frames (turns [] line) = some frames' ∧ (v = false → ClauseRules before line) := by
  have hopen : openAfter frames (turns [] line) = some frames' ↔
      ∃ after, Nesting.run ⟨frames, none⟩ (turns [] line) = some after ∧
        after.frames = frames' := by
    rw [← map_frames_run ⟨frames, none⟩, Option.map_eq_some_iff]
  have hcode (h : v = false) : Marked none (.inside .code) line m := by
    rwa [eq_code_of_spansLines hr (hv ▸ h)] at hm
  constructor
  · rintro ⟨l, after, hl, hframes⟩
    exact ⟨hopen.2 ⟨after, hl.run_eq, hframes⟩,
      fun h ↦ (obeys_iff_clauseRules (hcode h) hs hbefore hl.run_eq).1 (hl.obeys h)⟩
  · rintro ⟨h, hrules⟩
    obtain ⟨after, hrun, hframes⟩ := hopen.1 h
    exact ⟨_, after, ⟨hrun,
      fun h ↦ (obeys_iff_clauseRules (hcode h) hs hbefore hrun).2 (hrules h), rfl⟩, hframes⟩

theorem startsInside_newline {lines : List Glyph} {r : Region} :
    StartsInside (lines ++ [('\n', r)]) ↔ r.spansLines = true := by
  constructor
  · rintro ⟨lines', r', h, hr⟩
    obtain ⟨-, hlast⟩ := List.append_inj' h rfl
    cases hlast
    exact hr
  · exact fun h ↦ ⟨lines, r, rfl, h⟩

theorem clauseRules_nil (before : List Glyph) : ClauseRules before [] := by
  have h : trim (glyphText []) = [] := rfl
  refine ⟨?_, ?_, ?_⟩ <;> rw [h] <;> simp

theorem linesNested_cons_iff {frames : List Frame} {l : MarkedLine} {ls : List MarkedLine} :
    (∃ lines, LinesNested frames (l :: ls) lines []) ↔
      ∃ frames', (∃ line after, LineNested frames l line after ∧ after.frames = frames') ∧
        ∃ lines, LinesNested frames' ls lines [] := by
  constructor
  · rintro ⟨_, h⟩
    cases h with
    | cons hl hls => exact ⟨_, ⟨_, _, hl, rfl⟩, _, hls⟩
  · rintro ⟨_, ⟨line, after, hl, rfl⟩, lines, hls⟩
    exact ⟨_, .cons hl hls⟩

/-- All lines of the rest of a text obey the rules, when `done` stands before it. -/
def Ruled (done rest : List Glyph) : Prop :=
  ∀ before line, LineAt rest before line → ¬StartsInside (done ++ before) →
    ClauseRules (done ++ before) line

theorem ruled_of_single {done rest : List Glyph} (hs : '\n' ∉ glyphText rest) :
    Ruled done rest ↔ (¬StartsInside done → ClauseRules done rest) := by
  constructor
  · intro h
    have hline := h [] rest ((lineAt_of_single hs).2 ⟨rfl, rfl⟩)
    rwa [List.append_nil] at hline
  · rintro h before line hline
    obtain ⟨rfl, rfl⟩ := (lineAt_of_single hs).1 hline
    rwa [List.append_nil]

theorem ruled_line {done a b : List Glyph} {r : Region} (ha : '\n' ∉ glyphText a) :
    Ruled done (a ++ ('\n', r) :: b) ↔
      (¬StartsInside done → ClauseRules done a) ∧ Ruled (done ++ a ++ [('\n', r)]) b := by
  have hassoc (before : List Glyph) :
      done ++ (a ++ ('\n', r) :: before) = done ++ a ++ [('\n', r)] ++ before := by simp
  simp only [Ruled, lineAt_cons ha]
  constructor
  · intro h
    refine ⟨?_, fun before line hline ↦ ?_⟩
    · have hline := h [] a (.inl ⟨rfl, rfl⟩)
      rwa [List.append_nil] at hline
    · rw [← hassoc]
      exact h _ line (.inr ⟨before, rfl, hline⟩)
  · rintro ⟨hfirst, hrest⟩ before line (⟨rfl, rfl⟩ | ⟨before', rfl, hline⟩)
    · rwa [List.append_nil]
    · rw [hassoc]
      exact hrest before' line hline

/-- Where the text behind `done` starts. -/
structure StartsAt (done : List Glyph) (r : Region) (frames : List Frame) : Prop where
  nextLine : r.nextLine = some r
  inside : ¬StartsInside done ↔ r.spansLines = false
  lastLine : lastLine (glyphText done) = []
  openAfter : openAfter [] (textTurns [] done) = some frames

theorem startsAt_nil : StartsAt [] .code [] where
  nextLine := rfl
  inside := by simp [StartsInside, Region.spansLines]
  lastLine := rfl
  openAfter := rfl

theorem StartsAt.line {done a : List Glyph} {r q r' : Region} {frames frames' : List Frame}
    (h : StartsAt done r frames) (ha : '\n' ∉ glyphText a) (hq : q.nextLine = some r')
    (hl : Layout.openAfter frames (turns [] a) = some frames') :
    StartsAt (done ++ a ++ [('\n', r')]) r' frames' where
  nextLine := nextLine_nextLine hq
  inside := by rw [startsInside_newline, Bool.not_eq_true]
  lastLine := by
    rw [glyphText_append]
    exact lastLine_newline _ []
  openAfter := by
    rw [List.append_assoc, textTurns_append (by simp), List.nil_append, h.lastLine,
      textTurns_line ha, textTurns, List.append_nil, openAfter_append, h.openAfter,
      Option.bind_some, hl]

/-- Reading the lines of a text is checking its brackets and its rules. -/
theorem exists_linesNested_iff {done rest : List Glyph} {frames : List Frame} {q r : Region}
    (h : StartsAt done r frames) (hm : Marked none (.inside r) rest (.inside q)) :
    (∃ lines, LinesNested frames (cutLines r.spansLines [] rest) lines []) ↔
      openAfter frames (textTurns [] rest) = some [] ∧ Ruled done rest := by
  induction hn : rest.length using Nat.strongRecOn generalizing done rest frames r with
  | ind n ih =>
    rcases newline_cases rest with hs | ⟨a, r₂, b, rfl, ha⟩
    · rw [cutLines_last hs, textTurns_of_single hs, ruled_of_single hs, h.inside]
      split_ifs with he
      · subst he
        constructor
        · rintro ⟨lines, h⟩
          cases h
          exact ⟨rfl, fun _ ↦ clauseRules_nil done⟩
        · rintro ⟨h, -⟩
          cases h
          exact ⟨[], .nil []⟩
      · rw [linesNested_cons_iff, ← exists_lineNested_iff h.nextLine rfl hm hs h.openAfter]
        constructor
        · rintro ⟨frames', hl, lines, h⟩
          cases h
          exact hl
        · exact fun hl ↦ ⟨[], hl, [], .nil []⟩
    · obtain ⟨⟨q', hma, hq'⟩, hmb⟩ := marked_line.1 hm
      have hlen : b.length < n := by
        simp only [List.length_append, List.length_cons] at hn
        omega
      have hline (frames' : List Frame) : (∃ l after, LineNested _ ⟨_, a⟩ l after ∧
          after.frames = frames') ↔ _ :=
        exists_lineNested_iff h.nextLine rfl hma ha h.openAfter
      rw [cutLines_line ha, linesNested_cons_iff, textTurns_line ha, openAfter_append,
        ruled_line ha, h.inside]
      constructor
      · rintro ⟨frames', hl, hls⟩
        obtain ⟨hl', hfirst⟩ := (hline frames').1 hl
        obtain ⟨hb, hrest⟩ := (ih b.length hlen (h.line ha hq' hl') hmb rfl).1 hls
        exact ⟨by rw [hl', Option.bind_some, hb], hfirst, hrest⟩
      · rintro ⟨hb, hfirst, hrest⟩
        obtain ⟨frames', hl', hb⟩ := Option.bind_eq_some_iff.1 hb
        exact ⟨frames', (hline frames').2 ⟨hl', hfirst⟩,
          (ih b.length hlen (h.line ha hq' hl') hmb rfl).2 ⟨hb, hrest⟩⟩

theorem exists_nest_eq_ok_iff {s : List Char} :
    (∃ lines, nest s = .ok lines) ↔
      ∃ gs, mark s = .ok gs ∧ Dyck (bracketsOf gs) ∧ Ruled [] gs := by
  have hlines {gs : List Glyph} (h : mark s = .ok gs) :
      (∃ lines, LinesNested [] (cutLines false [] gs) lines []) ↔
        Dyck (bracketsOf gs) ∧ Ruled [] gs := by
    obtain ⟨-, q, hm, -⟩ := mark_eq_ok_iff.1 h
    rw [dyck_iff]
    exact exists_linesNested_iff startsAt_nil hm
  constructor
  · rintro ⟨lines, h⟩
    obtain ⟨gs, hmark, hreads⟩ := nest_eq_ok_iff.1 h
    exact ⟨gs, hmark, (hlines hmark).1 ⟨lines, hreads.linesNested⟩⟩
  · rintro ⟨gs, hmark, h⟩
    obtain ⟨lines, hnested⟩ := (hlines hmark).2 h
    exact ⟨lines, nest_eq_ok_iff.2 ⟨gs, hmark, (linesMarked_of_mark hmark).reads hnested⟩⟩

theorem format_eq_error {s : String} {e : Failure} (h : format s = .error e) :
    ∃ reason, e = .format reason s := by
  unfold format at h
  split at h
  · cases h
  · cases h
    exact ⟨_, rfl⟩

/-- The texts that can be laid out, and what is said about the others. -/
theorem exists_format_eq_ok_iff (s : String) :
    ((∃ t, format s = .ok t) ↔
      ∃ gs, mark s.toList = .ok gs ∧ Dyck (bracketsOf gs) ∧
        ∀ before line, LineAt gs before line → ¬StartsInside before → ClauseRules before line) ∧
      ∀ e, format s = .error e → ∃ reason, e = .format reason s := by
  refine ⟨?_, fun e ↦ format_eq_error⟩
  have hformat : (∃ t, format s = .ok t) ↔ ∃ lines, nest s.toList = .ok lines := by
    constructor
    · rintro ⟨t, h⟩
      obtain ⟨lines, hnest, -⟩ := formatChars_eq_ok_iff.1 (format_eq_ok_iff.1 h)
      exact ⟨lines, hnest⟩
    · rintro ⟨lines, hnest⟩
      refine ⟨String.ofList (layOut lines), format_eq_ok_iff.2 ?_⟩
      rw [String.toList_ofList]
      exact formatChars_eq_ok_iff.2 ⟨lines, hnest, rfl⟩
  rw [hformat, exists_nest_eq_ok_iff]
  rfl

end RpcStubs.Layout
