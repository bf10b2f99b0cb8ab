import RpcStubs.Proofs.Layout.Lines

namespace RpcStubs.Layout

open Text

inductive LiteralBody (quote : Char) : List Char → Prop
  | nil : LiteralBody quote []
  | plain {c : Char} {s : List Char} :
      c ≠ '\n' → c ≠ quote → c ≠ '\\' → LiteralBody quote s → LiteralBody quote (c :: s)
  | escape {c : Char} {s : List Char} :
      c ≠ '\n' → LiteralBody quote s → LiteralBody quote ('\\' :: c :: s)

/-- A piece of text in one region, with `rest` behind it. -/
inductive Segment : Region → List Char → List Char → Prop
  | code {c : Char} {rest : List Char} :
      c ≠ '"' → c ≠ '\x60' → c ≠ '\x27' →
      (c = '/' → rest.head? ≠ some '/' ∧ rest.head? ≠ some '*') → Segment .code [c] rest
  | lineComment {s rest : List Char} :
      '\n' ∉ s → rest = [] ∨ rest.head? = some '\n' → Segment .lineComment ('/' :: '/' :: s) rest
  /-- The first `*/` behind the opening marker ends the comment. -/
  | blockComment {s rest : List Char} :
      ¬['*', '/'] <:+: s → Segment .blockComment ('/' :: '*' :: (s ++ ['*', '/'])) rest
  | rawStr {s rest : List Char} : '\x60' ∉ s → Segment .rawStr ('\x60' :: (s ++ ['\x60'])) rest
  | str {s rest : List Char} : LiteralBody '"' s → Segment .str ('"' :: (s ++ ['"'])) rest
  | rune {s rest : List Char} :
      LiteralBody '\x27' s → Segment .rune ('\x27' :: (s ++ ['\x27'])) rest

inductive Segments : List Char → List (Region × List Char) → Prop
  | nil : Segments [] []
  | cons {r : Region} {text rest : List Char} {segs : List (Region × List Char)} :
      Segment r text rest → Segments rest segs → Segments (text ++ rest) ((r, text) :: segs)

def segmentGlyphs (segs : List (Region × List Char)) : List Glyph :=
  segs.flatMap fun seg ↦ seg.2.map (·, seg.1)

theorem Segments.glyphText_eq {s : List Char} {segs : List (Region × List Char)}
    (h : Segments s segs) : glyphText (segmentGlyphs segs) = s := by
  induction h with
  | nil => rfl
  | cons _ _ ih =>
    rw [segmentGlyphs, List.flatMap_cons, glyphText_append, glyphText_map_pair, ← segmentGlyphs, ih]

theorem LiteralBody.exists_head? {quote : Char} (hq : quote ≠ '\n') {s : List Char}
    (h : LiteralBody quote s) : ∃ c, (s ++ [quote]).head? = some c ∧ c ≠ '\n' := by
  cases h with
  | nil => exact ⟨quote, rfl, hq⟩
  | plain hn => exact ⟨_, rfl, hn⟩
  | escape => exact ⟨'\\', rfl, by decide⟩

theorem upcoming_none (gs : List Glyph) : upcoming gs none = (glyphText gs).head? := by
  cases gs <;> rfl

theorem upcoming_map (s : List Char) (r : Region) (next : Option Char) :
    upcoming (s.map (·, r)) next = s.head?.or next := by
  cases s <;> rfl

theorem marked_lineComment {next : Option Char} {s : List Char} (h : '\n' ∉ s) :
    Marked next (.inside .lineComment) (s.map (·, .lineComment)) (.inside .lineComment) := by
  induction s with
  | nil => exact .nil _
  | cons c s ih =>
    obtain ⟨hc, hs⟩ : '\n' ≠ c ∧ '\n' ∉ s := by simpa using h
    exact .cons (if_neg hc.symm) (ih hs)

theorem marked_blockBody {s : List Char} (h : ¬['*', '/'] <:+: s) (next : Option Char) :
    Marked next (.inside .blockComment) ((s ++ ['*', '/']).map (·, .blockComment))
      (.inside .code) := by
  induction s with
  | nil => exact .cons rfl (.cons rfl (.nil _))
  | cons c s ih =>
    refine .cons ?_ (ih fun hi ↦ h (List.infix_cons hi))
    refine if_neg ?_
    rintro ⟨rfl, hnext⟩
    cases s with
    | nil => cases hnext
    | cons d s =>
      obtain rfl : d = '/' := by simpa [upcoming] using hnext
      exact h ⟨[], s, rfl⟩

theorem marked_rawBody {s : List Char} (h : '\x60' ∉ s) (next : Option Char) :
    Marked next (.inside .rawStr) ((s ++ ['\x60']).map (·, .rawStr)) (.inside .code) := by
  induction s with
  | nil => exact .cons rfl (.nil _)
  | cons c s ih =>
    obtain ⟨hc, hs⟩ : '\x60' ≠ c ∧ '\x60' ∉ s := by simpa using h
    refine .cons ?_ (ih hs)
    rw [Mode.read, if_neg (show c ≠ Region.rawStr.delimiter from hc.symm)]

/-- Strings and runes are read by one rule. -/
theorem read_literal {r : Region} (hr : r = .str ∨ r = .rune) (c : Char) (next : Option Char) :
    (Mode.inside r).read c next = readLiteral r c next := by
  rcases hr with rfl | rfl <;> rfl

theorem delimiter_ne {r : Region} (hr : r = .str ∨ r = .rune) :
    r.delimiter ≠ '\n' ∧ r.delimiter ≠ '\\' := by
  rcases hr with rfl | rfl <;> decide

theorem marked_literalBody {r : Region} (hr : r = .str ∨ r = .rune) {s : List Char}
    (h : LiteralBody r.delimiter s) (next : Option Char) :
    Marked next (.inside r) ((s ++ [r.delimiter]).map (·, r)) (.inside .code) := by
  obtain ⟨hdn, hdb⟩ := delimiter_ne hr
  induction h with
  | nil =>
    refine .cons ?_ (.nil _)
    rw [read_literal hr, readLiteral, if_neg hdn, if_neg fun h ↦ hdb h.1, if_pos rfl]
  | plain hn hq hb _ ih =>
    refine .cons ?_ ih
    rw [read_literal hr, readLiteral, if_neg hn, if_neg fun h ↦ hb h.1, if_neg hq]
  | escape hn _ ih =>
    refine .cons ?_ (.cons (rfl : (Mode.escaped r).read _ _ = _) ih)
    rw [read_literal hr, readLiteral, if_neg (by decide),
      if_pos ⟨rfl, by simpa [upcoming] using hn⟩]

/-- The region that is left open behind a segment: a line comment goes on up to a newline. -/
def RunsOn (q : Region) (rest : List Char) : Prop :=
  q = .code ∨ q = .lineComment ∧ (rest = [] ∨ rest.head? = some '\n')

theorem Segment.exists_marked {r : Region} {text rest : List Char} (h : Segment r text rest) :
    ∃ q, Marked rest.head? (.inside .code) (text.map (·, r)) (.inside q) ∧ RunsOn q rest := by
  cases h with
  | @code c _ hstr hraw hrune hslash =>
    refine ⟨.code, .cons ?_ (.nil _), .inl rfl⟩
    rw [List.map_nil, upcoming_nil, Mode.read, readCode, if_neg fun h ↦ (hslash h.1).1 h.2,
      if_neg fun h ↦ (hslash h.1).2 h.2, if_neg (show c ≠ Region.str.delimiter from hstr),
      if_neg (show c ≠ Region.rawStr.delimiter from hraw),
      if_neg (show c ≠ Region.rune.delimiter from hrune)]
  | lineComment hs hrest =>
    exact ⟨.lineComment, .cons (rfl : _ = some (Region.lineComment, Mode.opening .lineComment))
      (.cons rfl (marked_lineComment hs)), .inr ⟨rfl, hrest⟩⟩
  | blockComment hs =>
    exact ⟨.code, .cons (rfl : _ = some (Region.blockComment, Mode.opening .blockComment))
      (.cons rfl (marked_blockBody hs _)), .inl rfl⟩
  | rawStr hs => exact ⟨.code, .cons rfl (marked_rawBody hs _), .inl rfl⟩
  | str hs => exact ⟨.code, .cons rfl (marked_literalBody (.inl rfl) hs _), .inl rfl⟩
  | rune hs => exact ⟨.code, .cons rfl (marked_literalBody (.inr rfl) hs _), .inl rfl⟩

/-- The newline behind a line comment is read as it is in code. -/
theorem Marked.of_lineComment {next : Option Char} {r : Region} {gs : List Glyph} {m : Mode} :
    Marked next (.inside .lineComment) (('\n', r) :: gs) m ↔
      Marked next (.inside .code) (('\n', r) :: gs) m := by
  constructor <;>
  · intro h
    cases h with
    | cons hr hs => exact .cons (by rwa [read_newline] at hr ⊢) hs

/-- A text that can be marked from the start of code can also follow a line comment that it ends. -/
theorem RunsOn.exists_marked {q : Region} {gs : List Glyph} (hq : RunsOn q (glyphText gs))
    {q' : Region} (hm : Marked none (.inside .code) gs (.inside q'))
    (hq' : q'.nextLine = some .code) :
    ∃ q', Marked none (.inside q) gs (.inside q') ∧ q'.nextLine = some .code := by
  rcases hq with rfl | ⟨rfl, hs⟩
  · exact ⟨q', hm, hq'⟩
  cases gs with
  | nil => exact ⟨.lineComment, .nil _, rfl⟩
  | cons g gs =>
    obtain ⟨c, r⟩ := g
    obtain rfl : c = '\n' := by simpa using hs
    exact ⟨q', Marked.of_lineComment.2 hm, hq'⟩

theorem Segments.exists_marked {s : List Char} {segs : List (Region × List Char)}
    (h : Segments s segs) :
    ∃ q, Marked none (.inside .code) (segmentGlyphs segs) (.inside q) ∧
      q.nextLine = some .code := by
  induction h with
  | nil => exact ⟨.code, .nil _, rfl⟩
  | @cons r text rest segs hseg hsegs ih =>
    obtain ⟨q, hm, hopen⟩ := hseg.exists_marked
    obtain ⟨q', hm', hq'⟩ := ih
    rw [← hsegs.glyphText_eq] at hm hopen
    obtain ⟨q'', hm'', hq''⟩ := hopen.exists_marked hm' hq'
    rw [← upcoming_none] at hm
    exact ⟨q'', hm.append hm'', hq''⟩

/-- What follows a segment is again marked from the start of code to the end of a text. -/
structure Cut (r : Region) (gs : List Glyph) (text : List Char) (rest : List Glyph) : Prop where
  split : gs = text.map (·, r) ++ rest
  marked : ∃ q, Marked none (.inside .code) rest (.inside q) ∧ q.nextLine = some .code

theorem exists_cut_lineComment {gs : List Glyph} {q : Region}
    (h : Marked none (.inside .lineComment) gs (.inside q)) (hq : q.nextLine = some .code) :
    ∃ s rest, Cut .lineComment gs s rest ∧ '\n' ∉ s ∧
      (glyphText rest = [] ∨ (glyphText rest).head? = some '\n') := by
  induction gs with
  | nil => exact ⟨[], [], ⟨rfl, .code, .nil _, rfl⟩, by simp, .inl rfl⟩
  | cons g gs ih =>
    obtain ⟨c, r⟩ := g
    by_cases hc : c = '\n'
    · subst hc
      exact ⟨[], _, ⟨rfl, q, Marked.of_lineComment.1 h, hq⟩, by simp, .inr rfl⟩
    · cases h with
      | cons hr hs =>
        rw [Mode.read, if_neg hc] at hr
        cases hr
        obtain ⟨s, rest, ⟨rfl, hm⟩, hn, hrest⟩ := ih hs
        exact ⟨c :: s, rest, ⟨rfl, hm⟩, by simp [hn, Ne.symm hc], hrest⟩

theorem exists_cut_blockComment {gs : List Glyph} {q : Region}
    (h : Marked none (.inside .blockComment) gs (.inside q)) (hq : q.nextLine = some .code) :
    ∃ s rest, Cut .blockComment gs (s ++ ['*', '/']) rest ∧ ¬['*', '/'] <:+: s := by
  induction gs with
  | nil =>
    cases h
    cases hq
  | cons g gs ih =>
    cases h with
    | @cons _ m _ c r _ hr hs =>
      rw [Mode.read] at hr
      split_ifs at hr with hc <;> cases hr
      · obtain ⟨rfl, hnext⟩ := hc
        cases gs with
        | nil => cases hnext
        | cons g gs =>
          obtain ⟨d, r⟩ := g
          obtain rfl : d = '/' := by simpa using hnext
          cases hs with
          | cons hr hs =>
            cases hr
            exact ⟨[], gs, ⟨rfl, q, hs, hq⟩, by simp⟩
      · obtain ⟨s, rest, ⟨rfl, hm⟩, hi⟩ := ih hs
        refine ⟨c :: s, rest, ⟨rfl, hm⟩, fun h ↦ ?_⟩
        rcases List.infix_cons_iff.1 h with h | h
        · -- the marker would have been read here
          obtain ⟨t, ht⟩ := h
          obtain ⟨rfl, rfl⟩ : '*' = c ∧ '/' :: t = s := by simpa using ht
          exact hc ⟨rfl, rfl⟩
        · exact hi h

theorem exists_cut_rawStr {gs : List Glyph} {q : Region}
    (h : Marked none (.inside .rawStr) gs (.inside q)) (hq : q.nextLine = some .code) :
    ∃ s rest, Cut .rawStr gs (s ++ ['\x60']) rest ∧ '\x60' ∉ s := by
  induction gs with
  | nil =>
    cases h
    cases hq
  | cons g gs ih =>
    cases h with
    | @cons _ m _ c r _ hr hs =>
      rw [Mode.read] at hr
      cases hr
      split_ifs at hs with hc
      · obtain rfl : c = '\x60' := hc
        exact ⟨[], gs, ⟨rfl, q, hs, hq⟩, by simp⟩
      · obtain ⟨s, rest, ⟨rfl, hm⟩, hn⟩ := ih hs
        refine ⟨c :: s, rest, ⟨rfl, hm⟩, fun h ↦ ?_⟩
        rcases List.mem_cons.1 h with h | h
        · exact hc h.symm
        · exact hn h

/-- The second part is about what follows a backslash. -/
theorem exists_cut_literal {r : Region} (hr : r = .str ∨ r = .rune) {gs : List Glyph} {q : Region}
    (hq : q.nextLine = some .code) :
    (Marked none (.inside r) gs (.inside q) →
      ∃ s rest, Cut r gs (s ++ [r.delimiter]) rest ∧ LiteralBody r.delimiter s) ∧
    (Marked none (.escaped r) gs (.inside q) → upcoming gs none ≠ some '\n' →
      ∃ s rest, Cut r gs (s ++ [r.delimiter]) rest ∧ LiteralBody r.delimiter ('\\' :: s)) := by
  induction gs with
  | nil =>
    refine ⟨fun h ↦ ?_, fun h ↦ ?_⟩
    · cases h
      rcases hr with rfl | rfl <;> cases hq
    · cases h
  | cons g gs ih =>
    obtain ⟨c, r'⟩ := g
    constructor
    · intro h
      cases h with
      | @cons _ m _ _ _ _ hread hs =>
        rw [read_literal hr, readLiteral] at hread
        split_ifs at hread with hn hb hd <;> cases hread
        · obtain ⟨rfl, hnext⟩ := hb
          obtain ⟨s, rest, ⟨rfl, hm⟩, hbody⟩ := ih.2 hs (by
            intro h
            simp [h] at hnext)
          exact ⟨'\\' :: s, rest, ⟨rfl, hm⟩, hbody⟩
        · subst hd
          exact ⟨[], gs, ⟨rfl, q, hs, hq⟩, .nil⟩
        · obtain ⟨s, rest, ⟨rfl, hm⟩, hbody⟩ := ih.1 hs
          refine ⟨c :: s, rest, ⟨rfl, hm⟩, .plain hn hd (fun hc ↦ hb ⟨hc, ?_⟩) hbody⟩
          -- a backslash is always followed by a further character of the literal
          obtain ⟨d, hhead, hdn⟩ := hbody.exists_head? (delimiter_ne hr).1
          rw [upcoming_append, upcoming_map, hhead]
          simpa using hdn
    · intro h hnext
      cases h with
      | cons hread hs =>
        cases hread
        obtain ⟨s, rest, ⟨rfl, hm⟩, hbody⟩ := ih.1 hs
        exact ⟨c :: s, rest, ⟨rfl, hm⟩, .escape (by simpa using hnext) hbody⟩

/-- A mode in the middle of a comment marker reads the second character of it. -/
theorem Marked.of_opening {next : Option Char} {r : Region} {gs : List Glyph} {m : Mode} {d : Char}
    (h : Marked next (.opening r) gs m) (hd : (glyphText gs).head? = some d) :
    ∃ gs', gs = (d, r) :: gs' ∧ Marked next (.inside r) gs' m := by
  cases h with
  | nil => cases hd
  | cons hr hs =>
    cases hr
    cases hd
    exact ⟨_, rfl, hs⟩

theorem exists_cut {g : Glyph} {gs : List Glyph} {q : Region}
    (h : Marked none (.inside .code) (g :: gs) (.inside q)) (hq : q.nextLine = some .code) :
    ∃ r text rest, Cut r (g :: gs) text rest ∧ text ≠ [] ∧ Segment r text (glyphText rest) := by
  obtain ⟨c, r⟩ := g
  cases h with
  | cons hread hs =>
    rw [Mode.read, readCode, upcoming_none] at hread
    split_ifs at hread with hline hblock hstr hraw hrune <;> cases hread
    · obtain ⟨rfl, hnext⟩ := hline
      obtain ⟨gs, rfl, hbody⟩ := hs.of_opening hnext
      obtain ⟨s, rest, ⟨rfl, hm⟩, hn, hrest⟩ := exists_cut_lineComment hbody hq
      exact ⟨.lineComment, _, rest, ⟨rfl, hm⟩, List.cons_ne_nil _ _, .lineComment hn hrest⟩
    · obtain ⟨rfl, hnext⟩ := hblock
      obtain ⟨gs, rfl, hbody⟩ := hs.of_opening hnext
      obtain ⟨s, rest, ⟨rfl, hm⟩, hn⟩ := exists_cut_blockComment hbody hq
      exact ⟨.blockComment, _, rest, ⟨rfl, hm⟩, List.cons_ne_nil _ _, .blockComment hn⟩
    · subst hstr
      obtain ⟨s, rest, ⟨rfl, hm⟩, hbody⟩ := (exists_cut_literal (.inl rfl) hq).1 hs
      exact ⟨.str, _, rest, ⟨rfl, hm⟩, List.cons_ne_nil _ _, .str hbody⟩
    · subst hraw
      obtain ⟨s, rest, ⟨rfl, hm⟩, hn⟩ := exists_cut_rawStr hs hq
      exact ⟨.rawStr, _, rest, ⟨rfl, hm⟩, List.cons_ne_nil _ _, .rawStr hn⟩
    · subst hrune
      obtain ⟨s, rest, ⟨rfl, hm⟩, hbody⟩ := (exists_cut_literal (.inr rfl) hq).1 hs
      exact ⟨.rune, _, rest, ⟨rfl, hm⟩, List.cons_ne_nil _ _, .rune hbody⟩
    · refine ⟨.code, [c], gs, ⟨rfl, q, hs, hq⟩, List.cons_ne_nil _ _, .code hstr hraw hrune ?_⟩
      exact fun hc ↦ ⟨fun hnext ↦ hline ⟨hc, hnext⟩, fun hnext ↦ hblock ⟨hc, hnext⟩⟩

theorem exists_segments {gs : List Glyph} {q : Region}
    (h : Marked none (.inside .code) gs (.inside q)) (hq : q.nextLine = some .code) :
    ∃ segs, Segments (glyphText gs) segs := by
  induction hn : gs.length using Nat.strongRecOn generalizing gs q with
  | ind n ih =>
    cases gs with
    | nil => exact ⟨[], .nil⟩
    | cons g gs =>
      obtain ⟨r, text, rest, ⟨hsplit, q', hm, hq'⟩, hne, hseg⟩ := exists_cut h hq
      have hlen : rest.length < n := by
        have htext := List.length_pos_iff.2 hne
        rw [← hn, hsplit, List.length_append, List.length_map]
        omega
      obtain ⟨segs, hsegs⟩ := ih rest.length hlen hm hq' rfl
      refine ⟨(r, text) :: segs, ?_⟩
      rw [hsplit, glyphText_append, glyphText_map_pair]
      exact .cons hseg hsegs

/-- The region of a segment can be seen from its first two characters. -/
theorem Segment.region_eq {r : Region} {text rest : List Char} (h : Segment r text rest) :
    ∃ c s, text ++ rest = c :: s ∧ r = (readCode c s.head?).1 := by
  obtain ⟨q, hm, -⟩ := h.exists_marked
  cases text with
  | nil => cases h
  | cons c s =>
    refine ⟨c, s ++ rest, rfl, ?_⟩
    cases hm with
    | cons hr _ =>
      rw [Mode.read, upcoming_map, ← List.head?_append, Option.some_inj] at hr
      rw [hr]

theorem LiteralBody.unique {quote : Char} (hq : quote ≠ '\\') {s s' : List Char}
    (h : LiteralBody quote s) (h' : LiteralBody quote s') {rest rest' : List Char}
    (he : s ++ quote :: rest = s' ++ quote :: rest') : s = s' := by
  induction h generalizing s' with
  | nil =>
    cases h' with
    | nil => rfl
    | plain _ hne => exact absurd (List.cons.inj he).1.symm hne
    | escape => exact absurd (List.cons.inj he).1 hq
  | plain _ hne hb _ ih =>
    cases h' with
    | nil => exact absurd (List.cons.inj he).1 hne
    | plain _ _ _ h' =>
      obtain ⟨rfl, hrest⟩ := List.cons.inj he
      rw [ih h' hrest]
    | escape => exact absurd (List.cons.inj he).1 hb
  | escape _ _ ih =>
    cases h' with
    | nil => exact absurd (List.cons.inj he).1.symm hq
    | plain _ _ hb => exact absurd (List.cons.inj he).1.symm hb
    | escape _ h' =>
      obtain ⟨rfl, hrest⟩ := List.cons.inj (List.cons.inj he).2
      rw [ih h' hrest]

/-- Between two markers that end a comment there is a marker. -/
theorem eq_nil_of_blockEnd {s more rest rest' : List Char} (h : ¬['*', '/'] <:+: s ++ more)
    (he : '*' :: '/' :: rest = more ++ '*' :: '/' :: rest') : more = [] := by
  match more, he with
  | [], _ => rfl
  | [_], he => cases (List.cons.inj (List.cons.inj he).2).1
  | c :: d :: more, he =>
    obtain ⟨rfl, hd⟩ := List.cons.inj he
    obtain ⟨rfl, -⟩ := List.cons.inj hd
    exact absurd ⟨s, more, by simp⟩ h

theorem blockBody_unique {s s' rest rest' : List Char} (h : ¬['*', '/'] <:+: s)
    (h' : ¬['*', '/'] <:+: s') (he : s ++ '*' :: '/' :: rest = s' ++ '*' :: '/' :: rest') :
    s = s' := by
  rcases List.append_eq_append_iff.1 he with ⟨more, rfl, hmore⟩ | ⟨more, rfl, hmore⟩
  · rw [eq_nil_of_blockEnd h' hmore, List.append_nil]
  · rw [eq_nil_of_blockEnd h hmore, List.append_nil]

/-- The first `stop` shows where a stretch without it ends. -/
theorem stretch_unique {stop : Char} {s s' rest rest' : List Char} (h : stop ∉ s) (h' : stop ∉ s')
    (hrest : rest = [] ∨ rest.head? = some stop) (hrest' : rest' = [] ∨ rest'.head? = some stop)
    (he : s ++ rest = s' ++ rest') : s = s' := by
  have hstretch {s rest : List Char} (h : stop ∉ s) (hrest : rest = [] ∨ rest.head? = some stop) :
      (s ++ rest).takeWhile (· ≠ stop) = s := by
    rw [List.takeWhile_append_of_pos fun c hc ↦ by simpa using ne_of_mem_of_not_mem hc h]
    cases rest with
    | nil => simp
    | cons c rest =>
      obtain rfl : c = stop := by simpa using hrest
      simp
  rw [← hstretch h hrest, he, hstretch h' hrest']

theorem Segment.unique {r r' : Region} {text text' rest rest' : List Char}
    (h : Segment r text rest) (h' : Segment r' text' rest') (he : text ++ rest = text' ++ rest') :
    r = r' ∧ text = text' := by
  obtain ⟨c, s, hc, hr⟩ := h.region_eq
  obtain ⟨c', s', hc', hr'⟩ := h'.region_eq
  obtain ⟨rfl, rfl⟩ : c = c' ∧ s = s' := List.cons.inj (by rw [← hc, he, hc'])
  obtain rfl : r = r' := hr.trans hr'.symm
  refine ⟨rfl, ?_⟩
  clear hr hr' hc hc'
  cases h with
  | code =>
    cases h' with
    | code => rw [(List.cons.inj he).1]
  | lineComment hs hrest =>
    cases h' with
    | lineComment hs' hrest' =>
      have hbody := (List.cons.inj (List.cons.inj he).2).2
      rw [stretch_unique hs hs' hrest hrest' hbody]
  | blockComment hs =>
    cases h' with
    | blockComment hs' =>
      rw [blockBody_unique hs hs' (by simpa using he)]
  | rawStr hs =>
    cases h' with
    | rawStr hs' => rw [stretch_unique hs hs' (.inr rfl) (.inr rfl) (by simpa using he)]
  | str hs =>
    cases h' with
    | str hs' => rw [hs.unique (by decide) hs' (by simpa using he)]
  | rune hs =>
    cases h' with
    | rune hs' => rw [hs.unique (by decide) hs' (by simpa using he)]

theorem Segments.unique {s : List Char} {segs segs' : List (Region × List Char)}
    (h : Segments s segs) (h' : Segments s segs') : segs = segs' := by
  have hne {r : Region} {text rest : List Char} (h : Segment r text rest) : text ++ rest ≠ [] := by
    obtain ⟨c, s, hc, -⟩ := h.region_eq
    simp [hc]
  induction h generalizing segs' with
  | nil =>
    generalize hs : [] = s at h'
    cases h' with
    | nil => rfl
    | cons hseg => exact absurd hs.symm (hne hseg)
  | @cons r text rest segs hseg _ ih =>
    generalize hs : text ++ rest = s at h'
    cases h' with
    | nil => exact absurd hs (hne hseg)
    | cons hseg' hsegs' =>
      obtain ⟨rfl, rfl⟩ := hseg.unique hseg' hs
      obtain rfl := List.append_cancel_left hs
      rw [ih hsegs']

theorem LiteralBody.not_mem {quote : Char} {s : List Char} (h : LiteralBody quote s) :
    '\n' ∉ s := by
  induction h with
  | nil => simp
  | plain hn _ _ _ ih => simp [ih, Ne.symm hn]
  | escape hn _ ih => simp [ih, Ne.symm hn]

/-- Line comments, strings and runes end on their line. -/
theorem Segment.newline {r : Region} {text rest : List Char} (h : Segment r text rest)
    (hn : '\n' ∈ text) : r = .code ∨ r = .rawStr ∨ r = .blockComment := by
  cases h with
  | code => exact .inl rfl
  | lineComment hs => simp [hs] at hn
  | blockComment => exact .inr (.inr rfl)
  | rawStr => exact .inr (.inl rfl)
  | str hs => simp [hs.not_mem] at hn
  | rune hs => simp [hs.not_mem] at hn

theorem Segments.newline {s : List Char} {segs : List (Region × List Char)} (h : Segments s segs) :
    ∀ g ∈ segmentGlyphs segs, g.1 = '\n' → g.2 = .code ∨ g.2 = .rawStr ∨ g.2 = .blockComment := by
  induction h with
  | nil => simp [segmentGlyphs]
  | cons hseg _ ih =>
    intro g hg hn
    rw [segmentGlyphs, List.flatMap_cons, List.mem_append] at hg
    rcases hg with hg | hg
    · obtain ⟨c, hc, rfl⟩ := List.mem_map.1 hg
      obtain rfl : c = '\n' := hn
      exact hseg.newline hc
    · exact ih g hg hn

/-- A text can be marked exactly if it is a sequence of segments. It is so in one way only, and
every character is marked with the region of its segment. -/
theorem exists_mark_iff_segments (s : List Char) :
    ((∃ gs, mark s = .ok gs) ↔ ∃ segs, Segments s segs) ∧
      ∀ segs, Segments s segs →
        (∀ segs', Segments s segs' → segs' = segs) ∧ mark s = .ok (segmentGlyphs segs) ∧
        glyphText (segmentGlyphs segs) = s ∧ (segmentGlyphs segs).length = s.length ∧
        ∀ g ∈ segmentGlyphs segs, g.1 = '\n' →
          g.2 = .code ∨ g.2 = .rawStr ∨ g.2 = .blockComment := by
  have hmark {segs : List (Region × List Char)} (h : Segments s segs) :
      mark s = .ok (segmentGlyphs segs) := mark_eq_ok_iff.2 ⟨h.glyphText_eq, h.exists_marked⟩
  constructor
  · constructor
    · rintro ⟨gs, h⟩
      obtain ⟨rfl, q, hm, hq⟩ := mark_eq_ok_iff.1 h
      exact exists_segments hm hq
    · rintro ⟨segs, h⟩
      exact ⟨_, hmark h⟩
  · intro segs h
    refine ⟨fun segs' h' ↦ h'.unique h, hmark h, h.glyphText_eq, ?_, h.newline⟩
    have hlength := congrArg List.length h.glyphText_eq
    rwa [glyphText, List.length_map] at hlength

end RpcStubs.Layout
