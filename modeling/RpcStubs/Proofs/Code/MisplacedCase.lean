import RpcStubs.Proofs.Code.Ink

namespace RpcStubs

/-- An import is read as a branch outside of any `switch`. The failure carries the source that
could not be laid out. -/
def misplacedCase (line : Nat) (source : String) : Failure :=
  .within GoFile.builder (.format (Layout.Fault.clauseOutsideSwitch "case" line).message source)

namespace Layout

open Text

variable {P : Import → Prop}

theorem clauseFault?_of_startsCase {t : List Char} (hc : startsCase t = true) {line : Nat}
    {enclosing closedFirst : Option Opener} (he : enclosing ≠ some .switch) :
    clauseFault? t line enclosing closedFirst = some (.clauseOutsideSwitch "case" line) := by
  obtain ⟨rest, rfl⟩ := List.isPrefixOf_iff_prefix.1 hc
  have helse : startsElse ("case ".toList ++ rest) = false := rfl
  have hloose : isLooseElse ("case ".toList ++ rest) = false := rfl
  rw [clauseFault?, helse, hloose, hc]
  simp [he]

theorem exists_nestLines_eq_error {frames frames' : List Frame} {ls : List MarkedLine}
    {lines : List Line} (h : LinesNested frames ls lines frames') {l : MarkedLine}
    (hv : l.verbatim = false) {after : Nesting}
    (hrun : Nesting.run ⟨frames', none⟩ (turns [] l.glyphs) = some after)
    (hc : startsCase (trim l.text) = true) (hf : enclosingOpener frames' ≠ some .switch)
    (rest : List MarkedLine) (n : Nat) (stack : List OpenBracket)
    (hstack : stack.map OpenBracket.frame = frames) :
    ∃ line, nestLines n stack (ls ++ l :: rest) = .error (.clauseOutsideSwitch "case" line) := by
  induction h generalizing n stack with
  | nil frames =>
    subst hstack
    obtain ⟨b, hb, -⟩ := (run_turns_eq_some_iff (n := n)).1 hrun
    rw [← head?_map_opener] at hf
    refine ⟨n, ?_⟩
    rw [List.nil_append, nestLines, hb]
    simp [bind, Except.bind, hv, clauseFault?_of_startsCase hc hf, throw, throwThe,
      MonadExceptOf.throw]
  | @cons frames frames' l' ls line lines after' hl _ ih =>
    subst hstack
    obtain ⟨hrun', hobeys, -⟩ := hl
    obtain ⟨b, hb, rfl⟩ := (run_turns_eq_some_iff (n := n)).1 hrun'
    obtain ⟨m, hm⟩ := ih hrun hf (n + 1) b.stack rfl
    refine ⟨m, ?_⟩
    rw [List.cons_append, nestLines, hb]
    cases hv' : l'.verbatim with
    | true => simp [bind, Except.bind, hm]
    | false =>
      have hnone : clauseFault? (trim l'.text) n (stack.head?.map (·.opener)) b.closedFirst =
          none := by
        rw [clauseFault?_eq_none_iff, head?_map_opener]
        exact hobeys hv'
      simp [bind, Except.bind, hnone, hm]

/-- Sound lines at the start of a marked text are nested, whatever follows them. -/
theorem exists_cutLines_of_sound {frames frames' : List Frame} {ts : List (List Char)}
    (h : Sound frames ts frames') {gs : List Glyph} {q : Region}
    (hm : Marked none (.inside .code) gs (.inside q)) {rest : List Char}
    (hg : glyphText gs = joinLines ts ++ rest) :
    ∃ ls lines gs', cutLines false [] gs = ls ++ cutLines false [] gs' ∧
      LinesNested frames ls lines frames' ∧ glyphText gs' = rest ∧
      Marked none (.inside .code) gs' (.inside q) := by
  induction h generalizing gs with
  | nil frames => exact ⟨[], [], gs, rfl, .nil frames, by simpa using hg, hm⟩
  | @cons frames frames' frames'' t ts hl _ ih =>
    obtain ⟨⟨gt, after, rfl, hmt, hn, rfl⟩, -⟩ := hl
    rw [joinLines_cons, List.append_assoc, List.cons_append] at hg
    obtain ⟨ga, gb, rfl, hta, htb⟩ := exists_of_glyphText_eq_append hg
    obtain ⟨⟨c, r⟩, gb, rfl, hc, hgb⟩ := List.map_eq_cons_iff.1 htb
    obtain rfl : c = '\n' := hc
    obtain ⟨⟨p, hma, hp⟩, hmb⟩ := marked_line.1 hm
    obtain ⟨hs, p', hmt, hp'⟩ := hmt
    obtain ⟨rfl, hmode⟩ := hma.unique hmt hta
    obtain rfl : p = p' := by simpa using hmode
    obtain rfl : r = .code := Option.some_inj.1 (hp.symm.trans hp')
    obtain ⟨ls, lines, gs', hcut, hnested, hrest, hm'⟩ := ih hmb hgb
    refine ⟨⟨false, ga⟩ :: ls, _ :: lines, gs', ?_, .cons hn hnested, hrest, hm'⟩
    rw [cutLines_line hs, List.cons_append, ← hcut]
    rfl

/-- The first fault of a text that can be marked is a `case` directly inside something else, if all
lines before it are sound. -/
theorem exists_format_eq_error {frames : List Frame} {ts : List (List Char)}
    (h : Sound [] ts frames) (hf : enclosingOpener frames ≠ some .switch) {t rest : List Char}
    (ht : Flat t) (hc : startsCase (trim t) = true) {s : String}
    (hs : s.toList = joinLines ts ++ (t ++ '\n' :: rest)) {gs : List Glyph}
    (hmark : mark s.toList = .ok gs) :
    ∃ line, format s = .error (.format (Fault.clauseOutsideSwitch "case" line).message s) := by
  obtain ⟨hg, q, hm, -⟩ := mark_eq_ok_iff.1 hmark
  obtain ⟨ls, lines, gs', hcut, hnested, hg', hm'⟩ := exists_cutLines_of_sound h hm (hg.trans hs)
  obtain ⟨ga, gb, rfl, hta, htb⟩ := exists_of_glyphText_eq_append hg'
  obtain ⟨⟨c, r⟩, gb, rfl, hnl, -⟩ := List.map_eq_cons_iff.1 htb
  obtain rfl : c = '\n' := hnl
  obtain ⟨⟨p, hma, -⟩, -⟩ := marked_line.1 hm'
  obtain ⟨ga', after, hta', ⟨hsingle, p', hma', -⟩, hrun, -⟩ := ht.passes frames
  obtain ⟨rfl, -⟩ := hma.unique hma' (hta.trans hta'.symm)
  have hcase : startsCase (trim (MarkedLine.text ⟨false, ga⟩)) = true := by
    rwa [MarkedLine.text_eq, hta]
  rw [cutLines_line hsingle] at hcut
  obtain ⟨line, hline⟩ := exists_nestLines_eq_error hnested rfl hrun hcase hf
    (cutLines r.spansLines [] gb) 1 [] rfl
  refine ⟨line, ?_⟩
  have hnest : nest s.toList = .error (.clauseOutsideSwitch "case" line) := by
    rw [nest, hmark]
    change nestLines 1 [] (cutLines false [] gs) = _
    rw [hcut, hline]
  rw [format, formatChars, hnest]
  rfl

def resolvedSource (g : GoFile) (body : String) : String :=
  g.assemble (resolveImports body g.declaredImports) body

theorem header_isPrefix_source (g : GoFile) (body : String) :
    g.header.render.toList <+: (resolvedSource g body).toList := by
  by_cases he : g.header.isEmpty = true
  · have hnil : g.header.lines = [] := by simpa [Comment.isEmpty] using he
    rw [Comment.render, hnil]
    exact List.nil_prefix
  · rw [resolvedSource, assemble_eq, frontMatter, if_neg he]
    simp only [List.cons_append, List.nil_append, String.toList_append, String.toList_intercalate,
      List.map_cons, List.intercalate_cons_cons, List.append_assoc]
    exact List.prefix_append _ _

theorem exists_layOut_eq_misplacedCase {g : GoFile} (hg : g.header.Lined) {body : String}
    (hp : ∀ i ∈ g.declaredImports, Importable i) {i : Import}
    (hi : i ∈ resolveImports body g.declaredImports) (hc : i.localName = some "case")
    {gs : List Glyph} (hmark : mark (resolvedSource g body).toList = .ok gs) :
    ∃ line, g.layOut body = .error (misplacedCase line (resolvedSource g body)) := by
  obtain ⟨ts, t, rest, hsource, hts, ht, hcase⟩ :=
    exists_case_source hg (importable_of_mem_resolveImports hp) hi hc body
  obtain ⟨line, herror⟩ := exists_format_eq_error hts (by decide) ht hcase hsource hmark
  refine ⟨line, ?_⟩
  rw [GoFile.layOut, herror]
  rfl

theorem SoundFile.exists_mark_source {g : GoFile} (h : SoundFile P g) (hheader : g.header.Lined)
    (hp : ∀ i, P i → Importable i) {body : String} (hb : g.body = .ok body) :
    ∃ gs, mark (resolvedSource g body).toList = .ok gs := by
  have hbody : SameCode body.toList body.toList := by
    by_cases he : body.isEmpty = true
    · rw [String.isEmpty_iff.1 he]
      exact codeless_nil
    · exact (h.text_body hb he).sameCode_refl
  obtain ⟨gs, -, hmark, -⟩ := sameCode_assemble (sameCode_preamble_refl hheader
    (importable_of_mem_resolveImports fun i hi ↦ hp i (h.declaredImports i hi))) hbody
  exact ⟨gs, hmark⟩

/-- A file with such an import cannot be finished if its body uses the package. -/
theorem SoundFile.finish_eq_error {g : GoFile} (h : SoundFile P g) (hheader : g.header.Lined)
    (hp : ∀ i, P i → Importable i) {i : Import} (hi : i ∈ g.declaredImports)
    (hc : i.localName = some "case")
    (hu : ∀ body, g.body = .ok body → "case" ∈ usedQualifiers body) :
    ∃ line body, g.finish.result = .error (misplacedCase line (resolvedSource g body)) := by
  obtain ⟨texts, hbody, -, -⟩ := h.exists_body
  have hused : i.qualifier ∈ usedQualifiers ("\n\n".intercalate texts) := by
    rw [Import.qualifier, hc]
    exact hu _ hbody
  obtain ⟨gs, hmark⟩ := h.exists_mark_source hheader hp hbody
  obtain ⟨line, hline⟩ := exists_layOut_eq_misplacedCase hheader
    (fun i hi ↦ hp i (h.declaredImports i hi)) (mem_resolveImports_of_used hi hused) hc hmark
  exact ⟨line, _, (result_finish hbody).trans hline⟩

end Layout

end RpcStubs
