import Mathlib.Data.List.Chain
import RpcStubs.Proofs.Code.Rows

namespace RpcStubs

open Text Layout

def Subject.takesClauses : Subject → Bool
  | .value subject => takesBranches subject
  | .type .. => true

mutual

/-- Every branch and every clause stands behind a head that takes it. -/
def Outline.attached : Outline → Bool
  | .nil => true
  | .plain _ _ rest => rest.attached
  | .branching _ _ _ right first tail rest =>
    first.attached && (tail.attached (takesBranches right) && rest.attached)
  | .loop _ _ _ inner rest => inner.attached && rest.attached
  | .switch subject clauses rest => clauses.attached subject.takesClauses && rest.attached

def Branches.attached (takes : Bool) : Branches → Bool
  | .close => true
  | .elseBranch last => takes && last.attached
  | .elseIf _ _ right next tail =>
    takes && (next.attached && tail.attached (takesBranches right))

def Clauses.attached (takes : Bool) : Clauses → Bool
  | .done => true
  | .fallback body => takes && body.attached
  | .clause _ body rest => takes && (body.attached && rest.attached takes)

end

/-- The rows lead from the brackets open before them to others; if `ok` is false, one of them
cannot be read. -/
inductive Runs : List Frame → List Row → Bool → List Frame → Prop
  | done (frames : List Frame) : Runs frames [] true frames
  | row {frames frames' frames'' : List Frame} {r : Row} {rs : List Row} {ok : Bool} :
      Row.Read frames r frames' → Runs frames' rs ok frames'' → Runs frames (r :: rs) ok frames''
  | stuck {frames frames' : List Frame} {r : Row} {rs : List Row} :
      Unreadable frames r.text.toList → Runs frames (r :: rs) false frames'

theorem Runs.append {frames frames' frames'' : List Frame} {a b : List Row} {p q : Bool}
    (ha : Runs frames a p frames') (hb : Runs frames' b q frames'') :
    Runs frames (a ++ b) (p && q) frames'' := by
  induction ha with
  | done => exact hb
  | row hr _ ih => exact .row hr (ih hb)
  | stuck hr => exact .stuck hr

theorem Row.Read.runs {frames frames' : List Frame} {r : Row} (h : Row.Read frames r frames') :
    Runs frames [r] true frames' := .row h (.done frames')

/-- A row that can only be read in some blocks, and the rows behind it. -/
theorem Runs.guarded {frames frames' frames'' : List Frame} {r : Row} {rs : List Row}
    {takes ok : Bool} (hread : takes = true → Row.Read frames r frames')
    (hstuck : takes = false → Unreadable frames r.text.toList)
    (h : takes = true → Runs frames' rs ok frames'') :
    Runs frames (r :: rs) (takes && ok) frames'' := by
  cases takes with
  | false => exact .stuck (hstuck rfl)
  | true => exact .row (hread rfl) (h rfl)

theorem IsInitializer.flat {init : String} (h : IsInitializer init) : Flat init.toList := by
  rcases h with h | ⟨targets, callee, args, hinit, hargs⟩
  · exact h.selector.flat
  · have hflat : Yields (Step.callExpr targets callee args) fun text ↦ Flat text.toList :=
      yields_flat_callExpr (flatAll_of_isSelector hargs)
    rw [hinit] at hflat
    exact hflat.of_ok

theorem Layout.Selector.flat_condition {left right : String} (hl : Selector left) (op : Operator)
    (hr : Selector right) : Flat (Step.conditionText left op right).toList :=
  Layout.flat_condition hl.flat hr.flat

theorem Row.read_lead {lead rest : String} (hlead : isLead lead.toList = true) {c : Char}
    (hc : lead.toList.head? = some c) (hw : startsWord c = true) (hf : Flat (lead ++ rest).toList)
    (frames : List Frame) :
    Row.Read frames ⟨frames.length, lead ++ rest ++ " \x7b", none⟩
      (blockFrame (lead ++ rest) :: frames) := by
  refine Row.read_opening hf (leads_lead hlead rest) ?_ hw frames
  rw [String.toList_append, List.head?_append, hc]
  rfl

theorem ofHead_if (rest : String) : Opener.ofHead ("if " ++ rest).toList = .ifBlock := by
  rw [String.toList_append]
  rfl

theorem exists_read_ifStep {init : Option String} (hi : ∀ i ∈ init, IsInitializer i) {left : String}
    (hl : Selector left) (op : Operator) {right : String} (hr : Selector right)
    (frames : List Frame) :
    ∃ text, (ifStep init left op right).lines = [text] ∧
      Row.Read frames ⟨frames.length, text, none⟩
        (blockOf .ifBlock (takesBranches right) :: frames) := by
  have hread (mid : String) {rest : String} (hrest : rest = mid ++ " " ++ right)
      (hf : Flat rest.toList) :
      Row.Read frames ⟨frames.length, "if " ++ rest ++ " \x7b", none⟩
        (blockOf .ifBlock (takesBranches right) :: frames) := by
    have hframe : blockFrame ("if " ++ rest) = blockOf .ifBlock (takesBranches right) := by
      have hlead : ("if " ++ mid).toList.head? = some 'i' := by simp
      refine blockFrame_operand ?_ hr hlead (by decide) (ofHead_if rest)
      rw [hrest, String.append_assoc, String.append_assoc, String.append_assoc]
    have hflat : Flat ("if " ++ rest).toList := by
      rw [String.toList_append]
      exact (flat_ofList (by decide)).append hf
    rw [← hframe]
    exact Row.read_lead (by decide) rfl (by decide) hflat frames
  cases init with
  | none =>
    exact ⟨_, rfl, hread (left ++ " " ++ op.symbol) rfl (hl.flat_condition op hr)⟩
  | some init =>
    have hflat : Flat (init ++ "; " ++ Step.conditionText left op right).toList := by
      rw [String.toList_append, String.toList_append]
      exact ((hi init rfl).flat.append (flat_ofList (by decide))).append
        (hl.flat_condition op hr)
    refine ⟨_, rfl, ?_⟩
    have hrow := hread (init ++ "; " ++ left ++ " " ++ op.symbol)
      (by simp only [Step.conditionText, String.append_assoc]) hflat
    simpa only [Step.scopedText, String.append_assoc] using hrow

theorem read_range {key value list : String} {b : Block}
    (hb : (Step.rangeBegin key value list).emit = .ok b) (hl : Selector list)
    (frames : List Frame) :
    Row.Read frames
      ⟨frames.length, "for " ++ key ++ ", " ++ value ++ " := range " ++ list ++ " \x7b",
      none⟩ (blockOf .block (takesBranches list) :: frames) := by
  obtain ⟨_, hchecked, -⟩ := bind_eq_ok hb
  have htargets := yields_checkTargets [key, value]
  rw [hchecked] at htargets
  have hlegal := htargets.of_ok.2
  have hrest : "for " ++ key ++ ", " ++ value ++ " := range " ++ list =
      "for " ++ (key ++ ", " ++ value ++ " := range " ++ list) := by
    simp only [String.append_assoc]
  have hflat : Flat ("for " ++ (key ++ ", " ++ value ++ " := range " ++ list)).toList := by
    simp only [String.toList_append]
    exact (flat_ofList (by decide)).append (((((flat_of_legal (hlegal key (by simp))).append
      (flat_ofList (by decide))).append (flat_of_legal (hlegal value (by simp)))).append
        (flat_ofList (by decide))).append hl.flat)
  have hkind : Opener.ofHead ("for " ++ (key ++ ", " ++ value ++ " := range " ++ list)).toList =
      .block := by
    rw [String.toList_append]
    rfl
  have hframe : blockFrame ("for " ++ (key ++ ", " ++ value ++ " := range " ++ list)) =
      blockOf .block (takesBranches list) := by
    have hlead : ("for " ++ key ++ ", " ++ value ++ " := range").toList.head? = some 'f' := by simp
    refine blockFrame_operand ?_ hl hlead (by decide) hkind
    rw [← String.toList_inj]
    simp
  rw [hrest, ← hframe]
  exact Row.read_lead (by decide) rfl (by decide) hflat frames

theorem Subject.read_head {subject : Subject} (h : subject.Simple) {s : Switch}
    (hs : subject.start = .ok s) (frames : List Frame) :
    Row.Read frames ⟨frames.length, subject.head, none⟩
      (blockOf .switch subject.takesClauses :: frames) := by
  have hkind (rest : String) : Opener.ofHead ("switch " ++ rest).toList = .switch := by
    rw [String.toList_append]
    rfl
  cases subject with
  | value subject =>
    have hselector := IsSelector.selector h
    have hflat : Flat ("switch " ++ subject).toList := by
      rw [String.toList_append]
      exact (flat_ofList (by decide)).append hselector.flat
    have hlead : "switch".toList.head? = some 's' := rfl
    have hsplit : "switch " ++ subject = "switch" ++ " " ++ subject := by
      rw [← String.toList_inj]
      simp
    have hframe : blockFrame ("switch " ++ subject) = blockOf .switch (takesBranches subject) :=
      blockFrame_operand hsplit hselector hlead (by decide) (hkind subject)
    rw [Subject.takesClauses, ← hframe]
    exact Row.read_lead (by decide) rfl (by decide) hflat frames
  | type binding subject =>
    have hselector := IsSelector.selector h
    obtain ⟨_, hchecked, -⟩ := bind_eq_ok hs
    have hlegal := (yields_checkIdentifier binding).inBuilder Switch.builder
    rw [hchecked] at hlegal
    have hrest : Subject.head (.type binding subject) =
        "switch " ++ (binding ++ " := " ++ subject ++ ".(type)") ++ " \x7b" := by
      rw [← String.toList_inj]
      simp [Subject.head]
    have hflat : Flat ("switch " ++ (binding ++ " := " ++ subject ++ ".(type)")).toList := by
      simp only [String.toList_append]
      exact (flat_ofList (by decide)).append ((((flat_of_legal hlegal.of_ok).append
        (flat_ofList (by decide))).append hselector.flat).append (flat_ofList (by decide)))
    have hframe : blockFrame ("switch " ++ (binding ++ " := " ++ subject ++ ".(type)")) =
        blockOf .switch true := by
      refine blockFrame_paren (c := 's') (by simp) (by decide) ?_ (hkind _)
      rw [← String.append_assoc, String.toList_append, List.getLast?_append]
      rfl
    rw [Subject.takesClauses, ← hframe, hrest]
    exact Row.read_lead (by decide) rfl (by decide) hflat frames

/-- The row of an `else`, which only the block of an `if` takes. -/
theorem Runs.branch {mid : String} (hf : Flat mid.toList)
    (he : startsElse ('\x7d' :: (mid.toList ++ [' '] ++ ['\x7b'])) = true) {takes ok : Bool}
    {frames frames' : List Frame} {rs : List Row}
    (h : Runs (blockFrame ("\x7d" ++ mid) :: frames) rs ok frames') :
    Runs (blockOf .ifBlock takes :: frames)
      (⟨frames.length, "\x7d" ++ mid ++ " \x7b", none⟩ :: rs) (takes && ok) frames' := by
  refine Runs.guarded (fun htakes ↦ ?_) (fun htakes ↦ ?_) fun _ ↦ h
  · rw [htakes]
    exact Row.read_else hf frames
  · rw [toList_elseLine, htakes]
    refine (Layout.stuck_else ?_ he fun f hf ↦ ?_).unreadable
    · simp [hf.single]
    · cases hf
      decide

/-- The row of a clause, which only a switch takes. -/
theorem Runs.clause {text : String} (hl : Label text) {takes ok : Bool}
    {frames frames' : List Frame} {rs : List Row}
    (h : takes = true → Runs (switchFrame :: frames) rs ok frames') :
    Runs (blockOf .switch takes :: frames) (⟨frames.length, text, none⟩ :: rs) (takes && ok)
      frames' := by
  refine Runs.guarded (fun htakes ↦ ?_) (fun htakes ↦ hl.unreadable ?_) h
  · rw [htakes]
    exact hl.read frames
  · rw [htakes]
    exact nofun

def Writable (steps : List Step) : Prop := ∀ s ∈ steps, ∃ b, s.emit = .ok b

theorem writable_append {a b : List Step} : Writable (a ++ b) ↔ Writable a ∧ Writable b :=
  List.forall_mem_append

theorem writable_cons {s : Step} {rest : List Step} :
    Writable (s :: rest) ↔ (∃ b, s.emit = .ok b) ∧ Writable rest := List.forall_mem_cons

theorem Block.writable_of_ofSteps {steps : List Step} {b : Block}
    (h : Block.ofSteps steps = .ok b) : Writable steps := by
  induction steps generalizing b with
  | nil => exact fun _ hs ↦ nomatch hs
  | cons s rest ih =>
    obtain ⟨first, tail, hfirst, htail, -⟩ := Block.ofSteps_cons_eq_ok h
    exact writable_cons.2 ⟨⟨first, hfirst⟩, ih htail⟩

mutual

/-- The rows of an outline can be read if every branch and clause is taken. -/
theorem Outline.runs : (o : Outline) → {steps : List Step} → o.steps = .ok steps → o.Simple →
    Writable steps → {frames : List Frame} → {inStruct : Bool} → Below frames inStruct →
      Runs frames (o.rows frames.length inStruct) o.attached frames
  | .nil, _, _, _, _, frames, _, _ => .done frames
  | .plain s hp rest, _, h, hsimple, hw, frames, inStruct, hbelow => by
    obtain ⟨steps, hrest, h⟩ := bind_eq_ok h
    cases h
    obtain ⟨⟨b, hb⟩, hw⟩ := writable_cons.1 hw
    obtain ⟨text, htext, hread⟩ := Step.exists_read hp hsimple.1 hb hbelow
    rw [Outline.rows, Outline.attached, htext]
    exact .row hread (rest.runs hrest hsimple.2 hw hbelow)
  | .branching init left op right first tail rest, _, h, hsimple, hw, frames, inStruct, hbelow => by
    obtain ⟨a, ha, h⟩ := bind_eq_ok h
    obtain ⟨t, ht, h⟩ := bind_eq_ok h
    obtain ⟨b, hb, h⟩ := bind_eq_ok h
    cases h
    obtain ⟨hinit, hleft, hright, hfirst, htail, hrest⟩ := hsimple
    simp only [writable_cons, writable_append] at hw
    obtain ⟨-, hwa, hwt, hwb⟩ := hw
    obtain ⟨text, htext, hread⟩ :=
      exists_read_ifStep hinit hleft.selector op hright.selector frames
    rw [Outline.rows, Outline.attached, htext, List.map_singleton, List.singleton_append]
    refine .row hread (Runs.append ?_ (Runs.append (tail.runs ht htail hwt) ?_))
    · exact first.runs ha hfirst hwa (below_blockOf (by decide) (by decide) _ frames)
    · exact rest.runs hb hrest hwb hbelow
  | .loop key value list inner rest, _, h, hsimple, hw, frames, inStruct, hbelow => by
    obtain ⟨a, ha, h⟩ := bind_eq_ok h
    obtain ⟨b, hb, h⟩ := bind_eq_ok h
    cases h
    obtain ⟨hlist, hinner, hrest⟩ := hsimple
    simp only [writable_cons, writable_append] at hw
    obtain ⟨⟨line, hline⟩, hwa, -, hwb⟩ := hw
    rw [Outline.rows, Outline.attached, Step.lines, List.map_singleton, List.singleton_append]
    have hloop : Below (blockOf .block (takesBranches list) :: frames) _ :=
      below_blockOf (by decide) (by decide) _ frames
    have hblock := inner.runs ha hinner hwa hloop
    exact .row (read_range hline hlist.selector frames)
      (hblock.append (.row (Row.read_close _ frames) (rest.runs hb hrest hwb hbelow)))
  | .switch subject clauses rest, _, h, hsimple, hw, frames, inStruct, hbelow => by
    obtain ⟨start, hstart, h⟩ := bind_eq_ok h
    obtain ⟨s, hs, h⟩ := bind_eq_ok h
    obtain ⟨b, hb, h⟩ := bind_eq_ok h
    cases h
    obtain ⟨hsubject, hclauses, hrest⟩ := hsimple
    obtain ⟨-, hw⟩ := writable_cons.1 hw
    rw [Outline.rows, Outline.attached]
    refine .row (Subject.read_head hsubject hstart frames) (Runs.append (clauses.runs hs hclauses)
      (.row (Row.read_close _ frames) ?_))
    exact rest.runs hb hrest hw hbelow

theorem Branches.runs : (t : Branches) → {steps : List Step} → t.steps = .ok steps → t.Simple →
    Writable steps → {frames : List Frame} → {takes : Bool} →
      Runs (blockOf .ifBlock takes :: frames) (t.rows frames.length) (t.attached takes) frames
  | .close, _, _, _, _, frames, _ => (Row.read_close _ frames).runs
  | .elseBranch last, _, h, hsimple, hw, frames, takes => by
    obtain ⟨a, ha, h⟩ := bind_eq_ok h
    cases h
    simp only [writable_cons, writable_append] at hw
    have hframe : blockFrame ("\x7d" ++ " else") = blockOf .elseBlock true := by decide
    have hlast : Runs (blockFrame ("\x7d" ++ " else") :: frames)
        (last.rows (frames.length + 1) false ++ [⟨frames.length, "\x7d", none⟩])
        (last.attached && true) frames := by
      rw [hframe]
      refine Runs.append ?_ (Row.read_close .elseBlock frames).runs
      exact last.runs ha hsimple hw.2.1 (below_blockOf (by decide) (by decide) true frames)
    rw [Bool.and_true] at hlast
    exact Runs.branch (flat_ofList (by decide)) (by decide) hlast
  | .elseIf left op right next tail, _, h, hsimple, hw, frames, takes => by
    obtain ⟨a, ha, h⟩ := bind_eq_ok h
    obtain ⟨t, ht, h⟩ := bind_eq_ok h
    cases h
    obtain ⟨hleft, hright, hnext, htail⟩ := hsimple
    simp only [writable_cons, writable_append] at hw
    have hframe : blockFrame ("\x7d" ++ (" else if " ++ Step.conditionText left op right)) =
        blockOf .ifBlock (takesBranches right) := by
      have hlead : ("\x7d else if " ++ left ++ " " ++ op.symbol).toList.head? = some '\x7d' := by
        simp
      refine blockFrame_operand ?_ hright.selector hlead (by decide) ?_
      · rw [← String.toList_inj]
        simp [Step.conditionText]
      · rw [String.toList_append, String.toList_append]
        rfl
    have hflat : Flat (" else if " ++ Step.conditionText left op right).toList := by
      rw [String.toList_append]
      exact (flat_ofList (by decide)).append (hleft.selector.flat_condition op hright.selector)
    have helse : startsElse ('\x7d' :: ((" else if " ++ Step.conditionText left op right).toList ++
        [' '] ++ ['\x7b'])) = true := by
      rw [String.toList_append]
      rfl
    have hblock : Runs (blockFrame ("\x7d" ++ (" else if " ++ Step.conditionText left op right)) ::
        frames) (next.rows (frames.length + 1) (!takesBranches right) ++ tail.rows frames.length)
        (next.attached && tail.attached (takesBranches right)) frames := by
      rw [hframe]
      refine Runs.append ?_ (tail.runs ht htail hw.2.2)
      exact next.runs ha hnext hw.2.1 (below_blockOf (by decide) (by decide) _ frames)
    have hbranch : Runs (blockOf .ifBlock takes :: frames) _ _ frames :=
      Runs.branch hflat helse hblock
    rwa [← String.append_assoc, show "\x7d" ++ " else if " = "\x7d else if " by decide] at hbranch

theorem Clauses.runs : (c : Clauses) → {s s' : Switch} → c.fill s = .ok s' → c.Simple →
    {frames : List Frame} → {takes : Bool} →
      Runs (blockOf .switch takes :: frames) (c.rows frames.length) (c.attached takes)
        (blockOf .switch takes :: frames)
  | .done, _, _, _, _, frames, takes => .done _
  | .fallback body, _, _, h, hsimple, frames, takes => by
    obtain ⟨steps, hsteps, h⟩ := bind_eq_ok h
    obtain ⟨b, hb, -⟩ := bind_eq_ok h
    refine Runs.clause label_default fun htakes ↦ ?_
    subst htakes
    exact body.runs hsteps hsimple (Block.writable_of_ofSteps hb) (below_switch frames)
  | .clause values body rest, _, _, h, hsimple, frames, takes => by
    obtain ⟨steps, hsteps, h⟩ := bind_eq_ok h
    obtain ⟨b, hb, h⟩ := bind_eq_ok h
    obtain ⟨next, -, h⟩ := bind_eq_ok h
    obtain ⟨hvalues, hbody, hrest⟩ := hsimple
    refine Runs.clause (label_case hvalues) fun htakes ↦ ?_
    subst htakes
    refine Runs.append ?_ (rest.runs h hrest)
    exact body.runs hsteps hbody (Block.writable_of_ofSteps hb) (below_switch frames)

end

/-- Neighbouring fields at one depth have names of one length. -/
def Row.Level (r s : Row) : Prop :=
  ∀ w ∈ r.field?, ∀ w' ∈ s.field?, r.depth = s.depth → w.length = w'.length

def rowText (rows : List Row) : String :=
  String.ofList (List.intercalate ['\n'] (rows.map Row.line))

structure ReadAs (frames : List Frame) (rows : List Row) (frames' : List Frame)
    (ls : List MarkedLine) (lines : List Line) : Prop where
  marked : ls.map MarkedLine.text = lines.map Line.text
  text : lines.map Line.text = rows.map (·.text.toList)
  reads : Reads ⟨.code, frames⟩ ls lines ⟨.code, frames'⟩
  calm : ∀ l ∈ lines, CalmLine l
  fits : List.Forall₂ Row.Fits rows lines

theorem Runs.exists_readAs {frames frames' : List Frame} {rows : List Row} {ok : Bool}
    (h : Runs frames rows ok frames') (hok : ok = true) :
    ∃ ls lines, ReadAs frames rows frames' ls lines := by
  induction h with
  | done => exact ⟨[], [], rfl, rfl, .nil _, by simp, .nil⟩
  | stuck => cases hok
  | @row frames _ _ r _ _ hr _ ih =>
    obtain ⟨ls, lines, h⟩ := ih hok
    obtain ⟨gs, after, htext, hm, hn, rfl⟩ := hr.sound.read
    refine ⟨⟨false, gs⟩ :: ls, lineOf false frames r.text.toList after :: lines, ?_, ?_,
      .cons rfl hm hn h.reads, ?_, .cons (hr.fits gs after htext hn.run_eq rfl) h.fits⟩
    · rw [List.map_cons, List.map_cons, h.marked]
      exact congrArg (· :: _) htext
    · rw [List.map_cons, List.map_cons, h.text]
      rfl
    · exact List.forall_mem_cons.2 ⟨⟨rfl, hr.sound.calm⟩, h.calm⟩

theorem Row.Fits.trim_ne_nil {r : Row} {l : Line} (h : r.Fits l) (hv : l.verbatim = false) :
    trim l.text ≠ [] := by
  intro hblank
  have hindented := h.indented
  simp [Line.indented, hv, hblank] at hindented

theorem Row.Fits.narrow {r : Row} {l : Line} (h : r.Fits l) : Narrow l := by
  obtain ⟨-, hslot⟩ | ⟨w, rest, -, htext, hslot⟩ := h.slot
  · exact ⟨by simp [hslot], by simp [hslot]⟩
  · refine ⟨by simp [hslot], fun depth c hc ↦ ?_⟩
    rw [hslot] at hc
    cases hc
    exact ⟨_, _, rfl, by rw [h.indented, Row.line, htext]⟩

theorem Row.Fits.sameLead_iff {r s : Row} {l m : Line} (hr : r.Fits l) (hs : s.Fits m) :
    SameLead l.slot m.slot ↔ r.Level s := by
  obtain ⟨hnone, hl⟩ | ⟨w, rest, hw, -, hl⟩ := hr.slot
  · simp [SameLead, Row.Level, hl, hnone]
  obtain ⟨hnone, hm⟩ | ⟨w', rest', hw', -, hm⟩ := hs.slot
  · simp [SameLead, Row.Level, hm, hnone]
  · simp only [SameLead, Row.Level, hl, hm, hw, hw', Slot.cells.injEq, Option.mem_some_iff,
      forall_eq', ← String.length_toList]
    constructor
    · intro h hdepth
      exact h _ _ _ ⟨rfl, rfl⟩ ⟨hdepth.symm, rfl⟩
    · rintro h depth c c' ⟨rfl, rfl⟩ ⟨hdepth, rfl⟩
      exact h hdepth.symm

theorem exists_fits {rows : List Row} {lines : List Line} (h : List.Forall₂ Row.Fits rows lines) :
    ∀ l ∈ lines, ∃ r : Row, r.Fits l := by
  induction h with
  | nil => simp
  | cons hr _ ih => exact List.forall_mem_cons.2 ⟨⟨_, hr⟩, ih⟩

theorem map_indented {rows : List Row} {lines : List Line} (h : List.Forall₂ Row.Fits rows lines) :
    lines.map Line.indented = (rows.map Row.line).map some := by
  induction h with
  | nil => rfl
  | cons hr _ ih => rw [List.map_cons, hr.indented, ih, List.map_cons, List.map_cons]

theorem isChain_sameLead_iff {rows : List Row} {lines : List Line}
    (h : List.Forall₂ Row.Fits rows lines) :
    (lines.map Line.slot).IsChain SameLead ↔ rows.IsChain Row.Level := by
  induction h with
  | nil => simp
  | cons hr hrest ih =>
    cases hrest with
    | nil => simp
    | cons hs _ =>
      rw [List.map_cons, List.map_cons, List.isChain_cons_cons, List.isChain_cons_cons,
        hr.sameLead_iff hs]
      rw [List.map_cons] at ih
      rw [ih]

/-- Nothing is dropped where no line is blank. -/
theorem map_some_tidy {texts : List (Option (List Char))} (h : none ∉ texts)
    (previous : Option (List Char)) : (tidy previous texts).map some = texts := by
  induction texts generalizing previous with
  | nil => rfl
  | cons x texts ih =>
    simp only [List.mem_cons, not_or] at h
    cases x with
    | none => exact absurd rfl h.1
    | some text => rw [tidy, List.map_cons, ih h.2]

theorem ReadAs.none_not_mem_arrange {frames frames' : List Frame} {rows : List Row}
    {ls : List MarkedLine} {lines : List Line} (h : ReadAs frames rows frames' ls lines) :
    none ∉ arrange lines := by
  have hplace := placement_place lines
  intro hnone
  rw [← hplace.text?_eq] at hnone
  obtain ⟨p, hp, hx⟩ := List.mem_map.1 hnone
  have hmem : p.line ∈ lines := by
    rw [← hplace.line_eq]
    exact List.mem_map_of_mem hp
  obtain ⟨hv, hblank⟩ := (hplace.written p hp).eq_none_iff_blank.1 hx
  obtain ⟨r, hfits⟩ := exists_fits h.fits _ hmem
  exact hfits.trim_ne_nil hv hblank

section Layout

variable {rows : List Row} {ls : List MarkedLine} {lines : List Line}
  (h : ReadAs [] rows [] ls lines)
include h

theorem ReadAs.single : ∀ t ∈ rows.map Row.line, '\n' ∉ t := by
  intro t ht
  obtain ⟨r, hr, rfl⟩ := List.mem_map.1 ht
  have htext : r.text.toList ∈ ls.map MarkedLine.text := by
    rw [h.marked, h.text]
    exact List.mem_map_of_mem hr
  simp [Row.line, (h.reads.linesMarked rfl).single _ htext]

/-- Lines that are written for rows are the rows where neighbouring fields are level. -/
theorem ReadAs.rowText_eq_iff (hne : rows ≠ []) {ts : List (List Char)}
    (hts : ∀ t ∈ ts, '\n' ∉ t) (hsome : ts.map some = arrange lines) (hts' : ts ≠ []) :
    String.ofList (List.intercalate ['\n'] ts) = rowText rows ↔ rows.IsChain Row.Level := by
  have hlines : List.intercalate ['\n'] ts = List.intercalate ['\n'] (rows.map Row.line) ↔
      ts = rows.map Row.line := by
    refine ⟨fun heq ↦ ?_, fun heq ↦ by rw [heq]⟩
    rw [← pieces_intercalate hts' hts, heq, pieces_intercalate (by simpa using hne) h.single]
  have hnarrow : ∀ l ∈ lines, Narrow l := by
    intro l hl
    obtain ⟨r, hr⟩ := exists_fits h.fits l hl
    exact hr.narrow
  calc String.ofList (List.intercalate ['\n'] ts) = rowText rows
      ↔ ts = rows.map Row.line := by rw [rowText, String.ofList_inj, hlines]
    _ ↔ ts.map some = (rows.map Row.line).map some :=
      (List.map_inj_right fun _ _ ↦ Option.some_inj.1).symm
    _ ↔ arrange lines = lines.map Line.indented := by rw [hsome, map_indented h.fits]
    _ ↔ (lines.map Line.slot).IsChain SameLead := arrange_eq_iff hnarrow
    _ ↔ rows.IsChain Row.Level := isChain_sameLead_iff h.fits

theorem ReadAs.exists_fragment (hne : rows ≠ []) :
    ∃ text, formatFragment ("\n".intercalate (rows.map Row.text)) = .ok text ∧
      (text = rowText rows ↔ rows.IsChain Row.Level) := by
  have htexts : rows.map (·.text.toList) ≠ [] := by simpa using hne
  obtain ⟨t, ht⟩ : ∃ t, (lines.map Line.text).getLast? = some t := by
    rw [h.text]
    exact ⟨_, List.getLast?_eq_some_getLast htexts⟩
  have hblank : trim t ≠ [] := by
    obtain ⟨l, hl, rfl⟩ := List.mem_map.1 (List.mem_of_getLast? ht)
    obtain ⟨r, hfits⟩ := exists_fits h.fits l hl
    exact hfits.trim_ne_nil (h.calm l hl).verbatim
  obtain ⟨hformat, hf⟩ := h.reads.formatChars_eq h.marked h.calm ht hblank
  have hsome := map_some_tidy h.none_not_mem_arrange none
  generalize tidy none (arrange lines) = ts at hformat hf hsome
  have hts : ts ≠ [] := by
    obtain ⟨t', -, hhead, -⟩ := hf.tidy.first
    rintro rfl
    cases hhead
  refine ⟨String.ofList (List.intercalate ['\n'] ts), ?_,
    h.rowText_eq_iff hne hf.sound.single hsome hts⟩
  have hsource : ("\n".intercalate (rows.map Row.text)).toList =
      List.intercalate ['\n'] (lines.map Line.text) := by
    rw [String.toList_intercalate, h.text, List.map_map]
    rfl
  rw [formatFragment, format, hsource, hformat, ← hf.tidy.trim_joinLines]
  simp [Except.map]

end Layout

theorem Runs.exists_unreadable {frames frames' : List Frame} {rows : List Row} {ok : Bool}
    (h : Runs frames rows ok frames') (hok : ok = false) :
    ∃ a r b mid, rows = a ++ r :: b ∧ SoundLines frames (a.map Row.text) mid ∧
      Unreadable mid r.text.toList := by
  induction h with
  | done => cases hok
  | @stuck frames _ r rs hr => exact ⟨[], r, rs, frames, rfl, .nil _, hr⟩
  | @row _ _ _ r _ _ hr _ ih =>
    obtain ⟨a, r', b, mid, rfl, ha, hb⟩ := ih hok
    exact ⟨r :: a, r', b, mid, rfl, .cons hr.sound.text ha, hb⟩

theorem refused_finish {source : String} (h : ∀ lines, nest source.toList ≠ .ok lines)
    (builder : String) : Refused (finish builder source) := by
  cases hfinish : finish builder source with
  | error failure => exact ⟨failure, rfl, (laysOut_finish builder source).of_error _ hfinish⟩
  | ok text =>
    have hformat := eq_ok_of_inBuilder hfinish
    rw [formatFragment, format] at hformat
    cases hchars : formatChars source.toList with
    | error fault =>
      rw [hchars] at hformat
      cases hformat
    | ok chars =>
      obtain ⟨lines, hnest, -⟩ := formatChars_eq_ok_iff.1 hchars
      exact absurd hnest (h lines)

theorem refused_ofList {s : List Char} (fault : Fault) (h : formatChars s = .error fault)
    (builder : String) : Refused (finish builder (String.ofList s)) := by
  refine refused_finish (fun lines hlines ↦ ?_) builder
  rw [String.toList_ofList] at hlines
  rw [formatChars, hlines] at h
  cases h

/-- Rows that can all be read are laid out, as they are if fields are level. Others are refused. -/
theorem Runs.finish_cases {rows : List Row} {ok : Bool} (h : Runs [] rows ok []) (hne : rows ≠ [])
    (builder : String) :
    (ok = true ∧ ∃ text, finish builder ("\n".intercalate (rows.map Row.text)) = .ok text ∧
        (text = rowText rows ↔ rows.IsChain Row.Level)) ∨
      ok = false ∧ Refused (finish builder ("\n".intercalate (rows.map Row.text))) := by
  cases ok with
  | true =>
    obtain ⟨ls, lines, hread⟩ := h.exists_readAs rfl
    obtain ⟨text, htext, hlevel⟩ := hread.exists_fragment hne
    exact .inl ⟨rfl, text, by rw [finish, htext]; rfl, hlevel⟩
  | false =>
    obtain ⟨a, r, b, mid, rfl, ha, hr⟩ := h.exists_unreadable rfl
    obtain ⟨ts, u, hts, hu, htext⟩ := ha.exists_joined_eq r.text (b.map Row.text)
    refine .inr ⟨rfl, refused_finish (fun lines ↦ ?_) builder⟩
    rw [List.map_append, List.map_cons, htext]
    exact hr.nest_ne_ok hts hu lines

/-- Neighbouring statements of a block that is taken for a structure begin with words of one
length, unless there is something else than a word in front of their first space. -/
def Outline.Level (o : Outline) : Prop := (o.rows 1 false).IsChain Row.Level

def Outline.functionRows (name : String) (o : Outline) : List Row :=
  ⟨0, "func " ++ name ++ "() \x7b", none⟩ :: (o.rows 1 false ++ [⟨0, "\x7d", none⟩])

theorem Outline.isChain_functionRows (name : String) (o : Outline) :
    (o.functionRows name).IsChain Row.Level ↔ o.Level := by
  simp [Outline.functionRows, Outline.Level, List.isChain_cons, List.isChain_append, Row.Level]

theorem Runs.text_ne_nil {frames frames' : List Frame} {r : Row} {rs : List Row} {ok : Bool}
    (h : Runs frames (r :: rs) ok frames') : r.text.toList ≠ [] := by
  cases h with
  | row hr _ => exact hr.ne_nil
  | stuck hr => exact hr.ne_nil

theorem runs_function {name : String} (hn : identifierFault? name = none) {rs : List Row}
    {ok : Bool} (h : Runs [blockOf .block true] rs ok [blockOf .block true]) :
    Runs [] (⟨0, "func " ++ name ++ "() \x7b", none⟩ :: (rs ++ [⟨0, "\x7d", none⟩])) ok [] := by
  have hflat : Flat ("func " ++ (name ++ "()")).toList := by
    simp only [String.toList_append]
    exact (flat_ofList (by decide)).append ((flat_of_legal hn).append (flat_ofList (by decide)))
  have hframe : blockFrame ("func " ++ (name ++ "()")) = blockOf .block true := by
    refine blockFrame_paren (c := 'f') (by simp) (by decide) ?_ ?_
    · rw [← String.append_assoc, String.toList_append, List.getLast?_append]
      rfl
    · rw [String.toList_append]
      rfl
  have hhead : "func " ++ name ++ "() \x7b" = "func " ++ (name ++ "()") ++ " \x7b" := by
    rw [← String.toList_inj]
    simp
  have hread := Row.read_lead (by decide) rfl (by decide) hflat []
  have hall := h.append (Row.read_close .block []).runs
  rw [hframe] at hread
  rw [Bool.and_true] at hall
  rw [hhead]
  exact .row hread hall

section Functions

variable {o : Outline} (hsimple : o.Simple) {steps : List Step} (hsteps : o.steps = .ok steps)
  {b : Block} (hb : Block.ofSteps steps = .ok b) {name : String} {f : Function}
  (hf : Function.new name [] [] = .ok f)
include hsimple hsteps hb hf

theorem Outline.runs_functionRows : Runs [] (o.functionRows name) o.attached [] := by
  obtain ⟨i, rfl, -⟩ := Function.eq_of_new hf
  refine runs_function i.legal ?_
  exact o.runs hsteps hsimple (Block.writable_of_ofSteps hb)
    (below_blockOf (by decide) (by decide) true [])

theorem Outline.source_function :
    (f.withBody b).source = "\n".intercalate ((o.functionRows name).map Row.text) := by
  have hspelled := o.spelled 1 false hsteps
  rw [← Block.spells_of_ofSteps hb] at hspelled
  have hbody : Spelled (bodyLines b.lines) ((o.rows 1 false).map Row.text) := by
    unfold bodyLines
    split_ifs with hempty
    · -- no row is empty, so there is none
      have hbelow : Below [blockOf .block true] false :=
        below_blockOf (by decide) (by decide) true []
      have hruns := o.runs hsteps hsimple (Block.writable_of_ofSteps hb) hbelow
      rw [hspelled.joined_eq, String.isEmpty_iff, ← String.toList_inj, String.toList_intercalate]
        at hempty
      cases hrows : o.rows 1 false with
      | nil => exact .refl _
      | cons r rs =>
        rw [List.length_singleton, hrows] at hruns
        obtain ⟨u, hu, -⟩ :=
          Layout.exists_joined_eq r.text.toList ((rs.map Row.text).map String.toList)
        rw [hrows, List.map_cons, List.map_cons] at hempty
        exact absurd (List.append_eq_nil_iff.1 (hu.symm.trans hempty)).1 hruns.text_ne_nil
    · exact hspelled
  obtain ⟨i, rfl, rfl⟩ := Function.eq_of_new hf
  have hhead : (Function.withBody { name := i, params := [], results := [] } b).source =
      braced ("func " ++ i.name ++ "()") b.source := by
    rw [String.append_assoc]
    exact String.empty_append
  have hall := (hbody.append (.refl ["\x7d"])).cons ("func " ++ i.name ++ "()" ++ " \x7b")
  have hopen : "func " ++ i.name ++ "()" ++ " \x7b" = "func " ++ i.name ++ "() \x7b" :=
    String.append_assoc
  rw [hhead, Block.source, braced_joined]
  simpa [Outline.functionRows, hopen] using hall.joined_eq

/-- A function is laid out if its branches and clauses stand behind heads that take them, and in
the rows of its outline if moreover no statements are aligned. -/
theorem Outline.render_function_iff :
    (o.attached = true → ∃ text, (f.withBody b).render = .ok text) ∧
      (o.attached = false → Refused (f.withBody b).render) ∧
      ((f.withBody b).render = .ok (rowText (o.functionRows name)) ↔
        o.attached = true ∧ o.Level) := by
  have hruns := o.runs_functionRows hsimple hsteps hb hf
  rw [Function.render, o.source_function hsimple hsteps hb hf, ← o.isChain_functionRows name]
  obtain ⟨hok, text, htext, hlevel⟩ | ⟨hok, failure, hfailure, hformat⟩ :=
    hruns.finish_cases (List.cons_ne_nil _ _) Function.builder
  · refine ⟨fun _ ↦ ⟨text, htext⟩, fun hfalse ↦ ?_, ?_⟩
    · rw [hok] at hfalse
      cases hfalse
    · rw [htext, Except.ok.injEq, hlevel, and_iff_right hok]
  · refine ⟨fun htrue ↦ ?_, fun _ ↦ ⟨failure, hfailure, hformat⟩, ?_⟩
    · rw [hok] at htrue
      cases htrue
    · rw [hfailure, hok]
      simp

end Functions

def elseOutline (right : String) : Outline :=
  .branching none "a" .equal right (.plain .ret rfl .nil) (.elseBranch (.plain .ret rfl .nil)) .nil

theorem simple_elseOutline {right : String} (h : IsSelector right) : (elseOutline right).Simple :=
  ⟨nofun, rfl, h, ⟨trivial, trivial⟩, ⟨trivial, trivial⟩, trivial⟩

def elseText : String :=
  "func F() \x7b\n\tif a == b \x7b\n\t\treturn\n\t\x7d else \x7b\n\t\treturn\n\t\x7d\n\x7d"

/-- A function with two branches. -/
theorem Outline.render_function_iff_else :
    ∃ f, Function.new "F" [] [] = .ok f ∧
      (f.withBody ⟨["if a == b \x7b", "return", "\x7d else \x7b", "return", "\x7d"], ∅⟩).render =
        .ok elseText := by
  have hsteps : (elseOutline "b").steps =
      .ok [.ifBegin "a" .equal "b", .ret, .elseBegin, .ret, .close] := rfl
  have hlevel : (elseOutline "b").Level := by
    simp [Outline.Level, elseOutline, Outline.rows, Branches.rows, Row.Level, ifStep, Step.lines]
  have hrows : rowText ((elseOutline "b").functionRows "F") = elseText := by decide
  have hnew : Function.new "F" [] [] = .ok ⟨⟨"F", by decide⟩, {}, [], [], {}⟩ := rfl
  refine ⟨_, hnew, ?_⟩
  rw [← hrows]
  have hselector : IsSelector "b" := rfl
  exact (Outline.render_function_iff (simple_elseOutline hselector) hsteps rfl hnew).2.2.2
    ⟨by decide, hlevel⟩

def alignedLoopText : String :=
  "func F() \x7b\n\tfor i, v := range mystruct \x7b\n\t\ta  := f()\n\t\tbb := g()\n\t\x7d\n\x7d"

/-- Behind a condition that ends in `struct` the other branch is refused, and in a loop over an
operand that ends so statements are aligned. -/
theorem Outline.refused_else_of_struct :
    (elseOutline "mystruct").Simple ∧
      (elseOutline "mystruct").steps =
        .ok [.ifBegin "a" .equal "mystruct", .ret, .elseBegin, .ret, .close] ∧
      Block.ofSteps [.ifBegin "a" .equal "mystruct", .ret, .elseBegin, .ret, .close] =
        .ok ⟨["if a == mystruct \x7b", "return", "\x7d else \x7b", "return", "\x7d"], ∅⟩ ∧
      Block.ofSteps [.rangeBegin "i" "v" "mystruct", .defineCall ["a"] "f" [],
          .defineCall ["bb"] "g" [], .close] =
        .ok ⟨["for i, v := range mystruct \x7b", "a := f()", "bb := g()", "\x7d"], ∅⟩ ∧
      ∃ f, Function.new "F" [] [] = .ok f ∧
        Refused (f.withBody ⟨["if a == mystruct \x7b", "return", "\x7d else \x7b", "return",
          "\x7d"], ∅⟩).render ∧
        (f.withBody ⟨["for i, v := range mystruct \x7b", "a := f()", "bb := g()", "\x7d"],
          ∅⟩).render = .ok alignedLoopText := by
  have hselector : IsSelector "mystruct" := rfl
  have hname : identifierFault? "F" = none := by decide
  have hbranches : ((⟨⟨"F", hname⟩, {}, [], [], {}⟩ : Function).withBody
      ⟨["if a == mystruct \x7b", "return", "\x7d else \x7b", "return", "\x7d"], ∅⟩).source =
      "func F() \x7b\nif a == mystruct \x7b\nreturn\n\x7d else \x7b\nreturn\n\x7d\n\x7d" := rfl
  have hloop : ((⟨⟨"F", hname⟩, {}, [], [], {}⟩ : Function).withBody
      ⟨["for i, v := range mystruct \x7b", "a := f()", "bb := g()", "\x7d"], ∅⟩).source =
      "func F() \x7b\nfor i, v := range mystruct \x7b\na := f()\nbb := g()\n\x7d\n\x7d" := rfl
  refine ⟨simple_elseOutline hselector, rfl, rfl, rfl, _, rfl, ?_, ?_⟩
  · rw [Function.render, hbranches]
    exact refused_ofList (.elseWithoutIf 4) (by decide +kernel) _
  · rw [Function.render, hloop]
    exact finish_ofList (by decide +kernel) _

end RpcStubs
