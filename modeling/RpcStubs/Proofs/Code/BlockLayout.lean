import RpcStubs.Proofs.Code.Files
import RpcStubs.Proofs.Code.Inversion
import RpcStubs.Proofs.Code.WellNested

namespace RpcStubs.Layout

open Text

structure Unreadable (frames : List Frame) (t : List Char) : Prop where
  single : '\n' ∉ t
  ne_nil : t ≠ []
  not_lineNested : ∀ (gs : List Glyph) (m : Mode) (line : Line) (after : Nesting),
    glyphText gs = t →
    Marked none (.inside .code) gs m → ¬LineNested frames ⟨false, gs⟩ line after

theorem Unreadable.nest_ne_ok {frames : List Frame} {ts : List (List Char)} {t u : List Char}
    (h : Unreadable frames t) (hs : Sound [] ts frames) (hu : u = [] ∨ u.head? = some '\n')
    (lines : List Line) : nest (joinLines ts ++ (t ++ u)) ≠ .ok lines := by
  intro hok
  obtain ⟨gs, hmark, hreads⟩ := nest_eq_ok_iff.1 hok
  obtain ⟨hg, q, hm, -⟩ := mark_eq_ok_iff.1 hmark
  obtain ⟨gs, lines, hg, hm, hr⟩ := hreads.after_sound hs hm hg
  obtain ⟨ga, gb, rfl, rfl, hgb⟩ := exists_of_glyphText_eq_append hg
  have hne : ga ≠ [] := by
    rintro rfl
    exact h.ne_nil rfl
  cases gb with
  | nil =>
    rw [List.append_nil] at hm hr
    rw [cutLines_last h.single, if_neg hne] at hr
    cases hr with
    | cons _ _ hn _ => exact h.not_lineNested _ _ _ _ rfl hm hn
  | cons g gb =>
    obtain ⟨c, r⟩ := g
    obtain rfl : c = '\n' := by
      rw [← hgb] at hu
      simpa using hu
    obtain ⟨⟨q', hma, -⟩, -⟩ := marked_line.1 hm
    rw [cutLines_line h.single] at hr
    cases hr with
    | cons _ _ hn _ => exact h.not_lineNested _ _ _ _ rfl hma hn

/-- A line that begins with a brace when nothing is open, or with an `else` after something other
than an `if`. -/
structure Stuck (frames : List Frame) (t : List Char) : Prop where
  single : '\n' ∉ t
  brace : t.head? = some '\x7d'
  top : ∀ f ∈ frames.head?, startsElse (trim t) = true ∧ f.opener ≠ .ifBlock

theorem Stuck.unreadable {frames : List Frame} {t : List Char} (h : Stuck frames t) :
    Unreadable frames t := by
  refine ⟨h.single, fun ht ↦ by simpa [ht] using h.brace, ?_⟩
  rintro gs m line after rfl hm hn
  cases hm with
  | nil => exact absurd h.brace (by simp)
  | @cons _ _ _ c r gs hr _ =>
    obtain rfl : c = '\x7d' := Option.some_inj.1 h.brace
    rw [Mode.read, readCode_of_isPlain (by decide)] at hr
    obtain rfl : Region.code = r := congrArg Prod.fst (Option.some_inj.1 hr)
    have hlead : Blanks (glyphText []) := blanks_nil
    obtain ⟨f, below, rfl, -, hfirst⟩ := closedFirst_of_brace hlead hn.run_eq
    obtain ⟨helse, hf⟩ := h.top f rfl
    have hattached := (hn.obeys rfl).attached helse
    rw [hfirst, Option.some_inj] at hattached
    exact hf hattached

theorem Sound.append_inv {frames frames' : List Frame} {a b : List (List Char)}
    (h : Sound frames (a ++ b) frames') :
    ∃ mid, Sound frames a mid ∧ Sound mid b frames' := by
  induction a generalizing frames with
  | nil => exact ⟨frames, .nil _, h⟩
  | cons t a ih =>
    cases h with
    | cons hl hrest =>
      obtain ⟨mid, ha, hb⟩ := ih hrest
      exact ⟨mid, .cons hl ha, hb⟩

theorem Reads.eq_of_nil {st st' : Start} {lines : List Line} (h : Reads st [] lines st') :
    st = st' := by
  cases h
  rfl

/-- A line is read in one way only. -/
theorem SoundLine.eq_frames {frames frames' : List Frame} {gs : List Glyph} {q : Region}
    {line : Line} {after : Nesting} (h : SoundLine frames (glyphText gs) frames')
    (hm : Marked none (.inside .code) gs (.inside q))
    (hn : LineNested frames ⟨false, gs⟩ line after) : after.frames = frames' := by
  obtain ⟨⟨gs₀, after₀, ht, ⟨-, q₀, hm₀, -⟩, hn₀, rfl⟩, -⟩ := h
  obtain ⟨rfl, -⟩ := hm₀.unique hm ht
  rw [Option.some_inj.1 (hn.run_eq.symm.trans hn₀.run_eq)]

theorem SoundLine.eq_of_nil {frames frames' : List Frame} (h : SoundLine frames [] frames') :
    frames' = frames := by
  obtain ⟨⟨gs, after, ht, -, hn, rfl⟩, -⟩ := h
  obtain rfl := glyphText_eq_nil.1 ht
  have hrun := hn.run_eq
  rw [turns, Nesting.run, Option.some_inj] at hrun
  rw [← hrun]

/-- Sound text can be read to its end only if it leaves nothing open. -/
theorem SoundText.eq_nil_of_nest {s : List Char} {frames : List Frame}
    (h : SoundText [] s frames) {lines : List Line} (hok : nest s = .ok lines) : frames = [] := by
  obtain ⟨ts, t, hts⟩ : ∃ ts t, pieces '\n' s = ts ++ [t] :=
    ⟨_, _, (List.dropLast_append_getLast (pieces_ne_nil '\n' s)).symm⟩
  have hsingle : '\n' ∉ t :=
    not_mem_of_mem_pieces (hts ▸ List.mem_append_right ts List.mem_cons_self)
  have htext : s = joinLines ts ++ t := by
    have hjoin := joinLines_pieces s
    rw [hts, joinLines_append, joinLines_cons, joinLines_nil, ← List.append_assoc] at hjoin
    exact (List.append_cancel_right hjoin).symm
  rw [SoundText, hts] at h
  obtain ⟨mid, hinit, hlast⟩ := h.append_inv
  cases hlast with
  | cons hl hnil =>
  cases hnil
  obtain ⟨gs, hmark, hreads⟩ := nest_eq_ok_iff.1 hok
  obtain ⟨hg, q, hm, -⟩ := mark_eq_ok_iff.1 hmark
  obtain ⟨gs, lines, rfl, hm, hr⟩ := hreads.after_sound hinit hm (hg.trans htext)
  rw [cutLines_last hsingle] at hr
  split_ifs at hr with hgs
  · subst hgs
    rw [glyphText_nil] at hl
    rw [hl.eq_of_nil]
    exact congrArg Start.frames hr.eq_of_nil
  · cases hr with
    | cons _ _ hn hrest =>
      rw [← hl.eq_frames hm hn]
      exact congrArg Start.frames hrest.eq_of_nil

/-- The open braces are those of the blocks. -/
inductive Stands : List Frame → List Bool → Prop
  | nil : Stands [] []
  | cons {frames : List Frame} {blocks : List Bool} {o : Opener} {k : Bool} :
      (o = .ifBlock ↔ k = true) → Stands frames blocks →
      Stands (⟨'\x7b', o⟩ :: frames) (k :: blocks)

theorem Stands.block {frames : List Frame} {blocks : List Bool} (h : Stands frames blocks)
    {head : String} {k : Bool} (hk : (blockFrame head).opener = .ifBlock ↔ k = true) :
    Stands (blockFrame head :: frames) (k :: blocks) := by
  simp only [blockFrame] at hk ⊢
  exact .cons hk h

theorem Stands.blocks_eq_nil {frames : List Frame} {blocks : List Bool} (h : Stands frames blocks)
    (hf : frames = []) : blocks = [] := by
  cases h with
  | nil => rfl
  | cons => cases hf

/-- The lines leave the blocks open, or one of them cannot be read. -/
inductive Follows : List Frame → List String → Option (List Bool) → Prop
  | done {frames : List Frame} {blocks : List Bool} :
      Stands frames blocks → Follows frames [] (some blocks)
  | line {frames frames' : List Frame} {l : String} {ls : List String} {r : Option (List Bool)} :
      SoundText frames l.toList frames' → Follows frames' ls r → Follows frames (l :: ls) r
  | stuck {frames : List Frame} {l : String} {ls : List String} :
      Stuck frames l.toList → Follows frames (l :: ls) none

theorem Follows.bind {frames : List Frame} {a b : List String} {r : Option (List Bool)}
    {g : List Bool → Option (List Bool)} (ha : Follows frames a r)
    (hb : ∀ frames blocks, Stands frames blocks → Follows frames b (g blocks)) :
    Follows frames (a ++ b) (r.bind g) := by
  induction ha with
  | done h => exact hb _ _ h
  | line hl _ ih => exact .line hl ih
  | stuck hl => exact .stuck hl

theorem SoundLines.follows {frames frames' : List Frame} {ls : List String}
    (h : SoundLines frames ls frames') {blocks : List Bool} (hs : Stands frames' blocks) :
    Follows frames ls (some blocks) := by
  induction h with
  | nil => exact .done hs
  | cons hl _ ih => exact .line hl (ih hs)

theorem Follows.exists_sound {frames : List Frame} {ls : List String} {blocks : List Bool}
    (h : Follows frames ls (some blocks)) :
    ∃ frames', SoundLines frames ls frames' ∧ Stands frames' blocks := by
  generalize hr : some blocks = r at h
  induction h with
  | done h =>
    cases hr
    exact ⟨_, .nil _, h⟩
  | line hl _ ih =>
    obtain ⟨frames', hls, hs⟩ := ih hr
    exact ⟨frames', .cons hl hls, hs⟩
  | stuck => cases hr

theorem Follows.exists_stuck {frames : List Frame} {ls : List String}
    (h : Follows frames ls none) :
    ∃ a l b frames', ls = a ++ l :: b ∧ SoundLines frames a frames' ∧ Stuck frames' l.toList := by
  generalize hr : none = r at h
  induction h with
  | done => cases hr
  | @line _ _ l _ _ hl _ ih =>
    obtain ⟨a, l', b, frames', rfl, ha, hs⟩ := ih hr
    exact ⟨l :: a, l', b, frames', rfl, .cons hl ha, hs⟩
  | @stuck _ l ls hs => exact ⟨[], l, ls, _, rfl, .nil _, hs⟩

theorem exists_joined_eq (l : List Char) (b : List (List Char)) :
    ∃ u, List.intercalate ['\n'] (l :: b) = l ++ u ∧ (u = [] ∨ u.head? = some '\n') := by
  cases b with
  | nil => exact ⟨[], by simp, .inl rfl⟩
  | cons l' b =>
    refine ⟨'\n' :: List.intercalate ['\n'] (l' :: b), ?_, .inr rfl⟩
    rw [List.intercalate_cons_cons]
    simp

theorem SoundLines.exists_joined_eq {frames : List Frame} {a : List String}
    (h : SoundLines [] a frames) (l : String) (b : List String) :
    ∃ ts u, Sound [] ts frames ∧ (u = [] ∨ u.head? = some '\n') ∧
      ("\n".intercalate (a ++ l :: b)).toList = joinLines ts ++ (l.toList ++ u) := by
  obtain ⟨u, hu, hhead⟩ := Layout.exists_joined_eq l.toList (b.map String.toList)
  rw [String.toList_intercalate, List.map_append, List.map_cons]
  by_cases hne : a = []
  · subst hne
    cases h
    exact ⟨[], u, .nil _, hhead, hu⟩
  · have htext := h.text hne
    rw [SoundText, String.toList_intercalate] at htext
    refine ⟨_, u, htext, hhead, ?_⟩
    rw [joinLines_pieces, ← hu, intercalate_append _ (by simpa using hne) (by simp),
      List.append_assoc]
    rfl

/-- Only lines that close what they open can be laid out. -/
theorem Follows.eq_of_nest {ls : List String} {r : Option (List Bool)} (h : Follows [] ls r)
    {lines : List Line} (hok : nest ("\n".intercalate ls).toList = .ok lines) : r = some [] := by
  cases r with
  | none =>
    obtain ⟨a, l, b, frames, rfl, ha, hl⟩ := h.exists_stuck
    obtain ⟨ts, u, hts, hu, htext⟩ := ha.exists_joined_eq l b
    rw [htext] at hok
    exact absurd hok (hl.unreadable.nest_ne_ok hts hu lines)
  | some blocks =>
    obtain ⟨frames, hls, hs⟩ := h.exists_sound
    by_cases hne : ls = []
    · subst hne
      cases hls
      rw [hs.blocks_eq_nil rfl]
    · rw [hs.blocks_eq_nil ((hls.text hne).eq_nil_of_nest hok)]

/-- A fragment that cannot be read is refused, with its source. -/
theorem Follows.formatFragment_eq_error {ls : List String} {r : Option (List Bool)}
    (h : Follows [] ls r) (hr : r ≠ some []) :
    ∃ reason, formatFragment ("\n".intercalate ls) =
      .error (.format reason ("\n".intercalate ls)) := by
  rw [formatFragment, format]
  cases hf : formatChars ("\n".intercalate ls).toList with
  | error fault => exact ⟨_, rfl⟩
  | ok text =>
    obtain ⟨lines, hnest, -⟩ := formatChars_eq_ok_iff.1 hf
    exact absurd (h.eq_of_nest hnest) hr

theorem Selector.ne_nil {s : String} (h : Selector s) : s.toList ≠ [] := by
  intro hs
  rw [Selector, hs] at h
  exact absurd (h [] (by simp [pieces])) (by decide)

theorem Selector.not_isBlank {s : String} (h : Selector s) {c : Char} (hc : c ∈ s.toList) :
    isBlank c = false := by
  rw [← intercalate_pieces '.' s.toList] at hc
  rcases mem_of_mem_intercalate hc with hc | ⟨w, hw, hc⟩
  · obtain rfl := List.mem_singleton.1 hc
    decide
  · have hword := isWord_of_legal (h w hw)
    rw [String.toList_ofList] at hword
    exact isBlank_of_isWordChar (isWordChar_of_mem hword hc)

/-- The block of an `if` takes branches, unless its condition ends in `struct`: then it is taken
for a structure. -/
def takesBranches (operand : String) : Bool := !"struct".toList.isSuffixOf operand.toList

theorem of_operand {lead : List Char} {right : String} (hr : Selector right) {c : Char}
    (hc : lead.head? = some c) (hb : isBlank c = false) :
    Opener.of '\x7b' (lead ++ [' '] ++ (right.toList ++ [' '])) =
      if takesBranches right then .ofHead (lead ++ [' '] ++ right.toList) else .struct := by
  obtain ⟨d, rest, hd⟩ := List.exists_cons_of_ne_nil hr.ne_nil
  have hhead : (right.toList ++ [' ']).head? = some d := by rw [hd]; rfl
  have hlead : (lead ++ [' ']).head? = some c := by rw [List.head?_append, hc]; rfl
  have htrim : trimEnd (right.toList ++ [' ']) = right.toList :=
    trimEnd_append (fun e he ↦ hr.not_isBlank (List.mem_of_getLast? he)) (blanks_singleton rfl)
  have hdb : isBlank d = false := hr.not_isBlank (by rw [hd]; exact List.mem_cons_self)
  have hgap : (right.toList ++ [' ']).getLast?.any isBlank = true := by
    rw [List.getLast?_append]
    exact (by decide : isBlank ' ' = true)
  rw [of_brace_append hlead hb rfl (by decide) hhead hdb, htrim, hgap, takesBranches]
  cases "struct".toList.isSuffixOf right.toList <;> rfl

theorem blockFrame_condition {lead : String} (hl : lead = "if " ∨ lead = "\x7d else if ")
    (mid : String) {right : String} (hr : Selector right) :
    (blockFrame (lead ++ mid ++ " " ++ right)).opener = .ifBlock ↔ takesBranches right = true := by
  have hsplit : (lead ++ mid ++ " " ++ right).toList ++ [' '] =
      lead.toList ++ mid.toList ++ [' '] ++ (right.toList ++ [' ']) := by simp
  have hkind (rest : List Char) : Opener.ofHead (lead.toList ++ rest) = .ifBlock := by
    rcases hl with rfl | rfl <;> rfl
  have hhead : ∃ c, (lead.toList ++ mid.toList).head? = some c ∧ isBlank c = false := by
    rcases hl with rfl | rfl
    · exact ⟨'i', rfl, by decide⟩
    · exact ⟨'\x7d', rfl, by decide⟩
  obtain ⟨c, hc, hb⟩ := hhead
  rw [blockFrame, hsplit, of_operand hr hc hb, List.append_assoc, List.append_assoc, hkind]
  cases takesBranches right <;> simp

theorem of_ne_ifBlock {before : List Char} (h : Opener.ofHead (trim before) ≠ .ifBlock) :
    Opener.of '\x7b' before ≠ .ifBlock := by
  rw [of_brace]
  split_ifs
  · decide
  · decide
  · exact h

/-- A head that begins with another letter than those of `if` and `else` opens no `if`. -/
theorem blockFrame_ne_ifBlock {head : String} {c : Char} (hc : head.toList.head? = some c)
    (hb : isBlank c = false) (hne : c ∉ ['\x7d', 'i', 'e']) :
    (blockFrame head).opener ≠ .ifBlock := by
  simp only [List.mem_cons, List.not_mem_nil, or_false, not_or] at hne
  have hhead : (trim (head.toList ++ [' '])).head? = some c := by
    have hspace : (head.toList ++ [' ']).head? = some c := by
      rw [List.head?_append, hc]
      rfl
    rw [head?_trim fun d hd ↦ ?_, hspace]
    obtain rfl := Option.some_inj.1 (hspace.symm.trans hd)
    exact hb
  obtain ⟨rest, hrest⟩ := exists_cons_of_head? hhead
  have hprefix {d : Char} (hd : d ≠ c) (w : List Char) :
      (d :: w).isPrefixOf (c :: rest) = false := by
    rw [List.isPrefixOf, beq_eq_false_iff_ne.2 hd, Bool.false_and]
  have hif := hprefix (Ne.symm hne.2.1) "f ".toList
  have helse := hprefix (Ne.symm hne.2.2) "lse if ".toList
  simp only [blockFrame]
  refine of_ne_ifBlock ?_
  rw [hrest, ofHead_eq (by simpa using hne.1)]
  split_ifs with h
  · rw [Bool.or_eq_true] at h
    rcases h with h | h
    · exact absurd (hif.symm.trans h) (by decide)
    · exact absurd (helse.symm.trans h) (by decide)
  all_goals decide

end RpcStubs.Layout

namespace RpcStubs

open Layout

def IsSelector (operand : String) : Prop := checkSelector Step.builder "operand" operand = .ok ()

theorem IsSelector.selector {operand : String} (h : IsSelector operand) : Selector operand := by
  have hy := yields_checkSelector Step.builder "operand" operand
  rw [h] at hy
  exact hy.of_ok

theorem flatAll_of_isSelector {args : List String} (h : ∀ a ∈ args, IsSelector a) :
    FlatAll args := fun a ha ↦ (h a ha).selector.flat

def Step.Simple : Step → Prop
  | .call _ args | .defineCall _ _ args | .assignCall _ _ args | .deferCall _ args
  | .returnCall _ args | .returnValues args => ∀ a ∈ args, IsSelector a
  | .declareVar _ type | .newInstance _ type => type.Built
  | .defineOperation _ left _ right | .ifBegin left _ right | .elseIf left _ right =>
    IsSelector left ∧ IsSelector right
  | .ifScoped init left _ right =>
    (∃ targets callee args, callExpr targets callee args = .ok init ∧ ∀ a ∈ args, IsSelector a) ∧
      IsSelector left ∧ IsSelector right
  | .typeAssert _ value type => IsSelector value ∧ type.Built
  | .assignField _ _ value => IsSelector value
  | .rangeBegin _ _ list => IsSelector list
  | .elseBegin | .close | .ret => True
  | _ => False

theorem Step.emits_plain {s : Step} (hp : s.isPlain = true) (h : s.Simple) {frames : List Frame} :
    Emits (fun _ ↦ True) frames s frames := by
  cases s with
  | call callee args => exact emits_call (flatAll_of_isSelector h)
  | defineCall targets callee args => exact emits_defineCall (flatAll_of_isSelector h)
  | assignCall targets callee args => exact emits_assignCall (flatAll_of_isSelector h)
  | deferCall callee args => exact emits_deferCall (flatAll_of_isSelector h)
  | returnCall callee args => exact emits_returnCall (flatAll_of_isSelector h)
  | returnValues args => exact emits_returnValues (flatAll_of_isSelector h)
  | declareVar name type => exact emits_declareVar (GoType.Built.usable h)
  | newInstance name type => exact emits_newInstance (GoType.Built.usable h)
  | defineOperation name left op right =>
    exact emits_defineOperation h.1.selector.flat h.2.selector.flat
  | typeAssert targets value type => exact emits_typeAssert h.1.selector.flat h.2.usable
  | assignField target field value => exact emits_assignField (IsSelector.selector h).flat
  | ret => exact emits_ret
  | _ => cases hp

/-- An `else` that no `if` comes before. -/
theorem Layout.stuck_else {frames : List Frame} {mid : List Char} (hm : '\n' ∉ mid)
    (he : startsElse ('\x7d' :: (mid ++ ['\x7b'])) = true)
    (htop : ∀ f ∈ frames.head?, f.opener ≠ .ifBlock) :
    Stuck frames ('\x7d' :: (mid ++ ['\x7b'])) where
  single := by simp [hm]
  brace := rfl
  top f hf := by
    have htight : Text.Tight ('\x7d' :: (mid ++ ['\x7b'])) := by
      refine ⟨fun c hc ↦ ?_, fun c hc ↦ ?_⟩
      · obtain rfl : '\x7d' = c := by simpa using hc
        decide
      · rw [← List.cons_append, List.getLast?_append] at hc
        obtain rfl : '\x7b' = c := by simpa using hc
        decide
    rw [htight.trim_eq]
    exact ⟨he, htop f hf⟩

theorem Layout.Stands.stuck_else {frames : List Frame} {blocks : List Bool}
    (h : Stands frames blocks) (hb : blocks.head? ≠ some true) {mid : List Char} (hm : '\n' ∉ mid)
    (he : startsElse ('\x7d' :: (mid ++ ['\x7b'])) = true) :
    Stuck frames ('\x7d' :: (mid ++ ['\x7b'])) := by
  refine Layout.stuck_else hm he fun f hf ho ↦ hb ?_
  cases h with
  | nil => cases hf
  | cons hk _ =>
    cases hf
    rw [hk.1 ho]
    rfl

theorem Layout.Stands.exists_ifBlock {frames : List Frame} {blocks : List Bool}
    (h : Stands frames blocks) (hb : blocks.head? = some true) :
    ∃ below, frames = ⟨'\x7b', .ifBlock⟩ :: below ∧ Stands below blocks.tail := by
  cases h with
  | nil => cases hb
  | @cons frames blocks o k hk h =>
    obtain rfl : k = true := Option.some_inj.1 hb
    exact ⟨frames, by rw [hk.2 rfl], h⟩

section Steps

variable {frames : List Frame} {blocks : List Bool} (hs : Stands frames blocks)
include hs

theorem follows_plain {s : Step} (h : Emits (fun _ ↦ True) frames s frames) :
    Yields s.emit fun b ↦ Follows frames b.lines (some blocks) :=
  h.mono fun _ hb ↦ hb.lines.follows hs

theorem follows_opening {s : Step} {frames₀ : List Frame} {head : String} {k : Bool}
    (h : Emits (fun _ ↦ True) frames₀ s (blockFrame head :: frames))
    (hk : (blockFrame head).opener = .ifBlock ↔ k = true) :
    Yields s.emit fun b ↦ Follows frames₀ b.lines (some (k :: blocks)) :=
  h.mono fun _ hb ↦ hb.lines.follows (hs.block hk)

theorem follows_ifBegin {left right : String} (hl : Selector left) (op : Operator)
    (hr : Selector right) :
    Yields (Step.ifBegin left op right).emit fun b ↦
      Follows frames b.lines (some (takesBranches right :: blocks)) := by
  have hk := blockFrame_condition (.inl rfl) (left ++ " " ++ op.symbol) hr
  refine follows_opening hs (emits_ifBegin hl.flat hr.flat) ?_
  simpa only [String.append_assoc] using hk

theorem follows_ifScoped {init left right : String} (hi : Flat init.toList) (hl : Selector left)
    (op : Operator) (hr : Selector right) :
    Yields (Step.ifScoped init left op right).emit fun b ↦
      Follows frames b.lines (some (takesBranches right :: blocks)) := by
  have hk := blockFrame_condition (.inl rfl) (init ++ "; " ++ left ++ " " ++ op.symbol) hr
  refine follows_opening hs (emits_ifScoped hi hl.flat hr.flat) ?_
  simpa only [String.append_assoc] using hk

theorem follows_rangeBegin (key value : String) {list : String} (hl : Selector list) :
    Yields (Step.rangeBegin key value list).emit fun b ↦
      Follows frames b.lines (some (false :: blocks)) := by
  refine follows_opening hs (emits_rangeBegin hl.flat) ?_
  have hhead : ("for " ++ key ++ ", " ++ value ++ " := range " ++ list).toList.head? =
      some 'f' := by
    simp
  have hne := blockFrame_ne_ifBlock hhead (by decide) (by decide)
  simpa using hne

theorem follows_elseIf {left right : String} (hl : Selector left) (op : Operator)
    (hr : Selector right) :
    Yields (Step.elseIf left op right).emit fun b ↦
      Follows frames b.lines ((Step.elseIf left op right).turn takesBranches blocks) := by
  rw [Step.turn]
  split_ifs with hb
  · obtain ⟨below, rfl, hbelow⟩ := hs.exists_ifBlock hb
    have hk := blockFrame_condition (.inr rfl) (left ++ " " ++ op.symbol) hr
    refine follows_opening hbelow (emits_elseIf hl.flat hr.flat) ?_
    simpa only [String.append_assoc] using hk
  · refine (yields_condition left op right).bind fun text ht ↦ yields_pure (.stuck ?_)
    have hflat : Flat text.toList := by
      rw [ht]
      exact flat_condition hl.flat hr.flat
    have hsplit : ("\x7d else if " ++ text ++ " \x7b").toList =
        '\x7d' :: ((" else if ".toList ++ text.toList ++ [' ']) ++ ['\x7b']) := by simp
    rw [hsplit]
    refine hs.stuck_else hb ?_ rfl
    simp [hflat.single]

theorem follows_elseBegin :
    Yields Step.elseBegin.emit fun b ↦
      Follows frames b.lines (Step.elseBegin.turn takesBranches blocks) := by
  rw [Step.turn]
  split_ifs with hb
  · obtain ⟨below, rfl, hbelow⟩ := hs.exists_ifBlock hb
    have he : Emits (fun _ ↦ True) (⟨'\x7b', .ifBlock⟩ :: below) .elseBegin _ := emits_elseBegin
    exact he.mono fun _ hb ↦ hb.lines.follows (.cons (by decide) hbelow)
  · have hstuck : Stuck frames ('\x7d' :: (" else ".toList ++ ['\x7b'])) :=
      hs.stuck_else hb (by decide) (by decide)
    exact .ok (.stuck hstuck)

theorem follows_close :
    Yields Step.close.emit fun b ↦
      Follows frames b.lines (Step.close.turn takesBranches blocks) := by
  rw [Step.turn]
  cases hs with
  | nil => exact .ok (.stuck ⟨by decide, rfl, by simp⟩)
  | @cons below blocks o k _ hbelow =>
    have he : Emits (fun _ ↦ True) (⟨'\x7b', o⟩ :: below) .close below := emits_close
    exact he.mono fun _ hb ↦ hb.lines.follows hbelow

/-- What a step writes does to the braces what the step does to the blocks. -/
theorem Step.follows_emit {s : Step} (h : s.Simple) :
    Yields s.emit fun b ↦ Follows frames b.lines (s.turn takesBranches blocks) := by
  by_cases hp : s.isPlain = true
  · rw [Step.turn_of_isPlain hp]
    exact follows_plain hs (Step.emits_plain hp h)
  cases s with
  | ifBegin left op right => exact follows_ifBegin hs h.1.selector op h.2.selector
  | ifScoped init left op right =>
    obtain ⟨⟨targets, callee, args, hinit, hargs⟩, hl, hr⟩ := h
    have hi : Yields (callExpr targets callee args) fun text ↦ Flat text.toList :=
      yields_flat_callExpr (flatAll_of_isSelector hargs)
    rw [hinit] at hi
    exact follows_ifScoped hs hi.of_ok hl.selector op hr.selector
  | rangeBegin key value list => exact follows_rangeBegin hs key value (IsSelector.selector h)
  | elseIf left op right => exact follows_elseIf hs h.1.selector op h.2.selector
  | elseBegin => exact follows_elseBegin hs
  | close => exact follows_close hs
  | _ => first | exact absurd h id | exact absurd rfl hp

end Steps

theorem Block.follows_ofSteps {steps : List Step} (h : ∀ s ∈ steps, s.Simple) {b : Block}
    (hb : Block.ofSteps steps = .ok b) {frames : List Frame} {blocks : List Bool}
    (hs : Stands frames blocks) :
    Follows frames b.lines (openBlocks takesBranches blocks steps) := by
  induction steps generalizing b frames blocks with
  | nil =>
    cases hb
    exact .done hs
  | cons s rest ih =>
    obtain ⟨first, tail, hfirst, htail, rfl⟩ := Block.ofSteps_cons_eq_ok hb
    have hstep := Step.follows_emit hs (h s List.mem_cons_self)
    rw [hfirst] at hstep
    exact hstep.of_ok.bind fun frames blocks hs ↦
      ih (fun t ht ↦ h t (List.mem_cons_of_mem s ht)) htail hs

/-- A block that can be laid out on its own is well nested; one that is badly nested is refused
with its source. -/
theorem Block.wellNested_of_formatFragment {steps : List Step} (h : ∀ s ∈ steps, s.Simple)
    {b : Block} (hb : Block.ofSteps steps = .ok b) :
    ((∃ text, formatFragment b.source = .ok text) → WellNested steps) ∧
      (Misnested steps → ∃ reason, formatFragment b.source = .error (.format reason b.source)) := by
  have hfollows := Block.follows_ofSteps h hb .nil
  have herror (hn : ¬WellNested steps) :
      ∃ reason, formatFragment b.source = .error (.format reason b.source) :=
    hfollows.formatFragment_eq_error fun hr ↦ hn (wellNested_of_openBlocks hr)
  refine ⟨fun hok ↦ ?_, fun hm ↦ herror hm.not_wellNested⟩
  by_contra hn
  obtain ⟨text, htext⟩ := hok
  obtain ⟨reason, hreason⟩ := herror hn
  rw [htext] at hreason
  cases hreason

/-- A branch that is closed, and the same one without its close. -/
theorem Block.wellNested_of_formatFragment_return :
    WellNested [.ifBegin "a" .equal "b.c", .ret, .close] ∧
      ∃ reason, formatFragment "if a == b.c \x7b\nreturn" =
        .error (.format reason "if a == b.c \x7b\nreturn") := by
  have hopen : ∀ s ∈ [Step.ifBegin "a" .equal "b.c", .ret], s.Simple :=
    List.forall_mem_cons.2 ⟨⟨rfl, rfl⟩, List.forall_mem_singleton.2 trivial⟩
  have hclosed : ∀ s ∈ [Step.ifBegin "a" .equal "b.c", .ret] ++ [.close], s.Simple :=
    List.forall_mem_append.2 ⟨hopen, List.forall_mem_singleton.2 trivial⟩
  constructor
  · exact (Block.wellNested_of_formatFragment hclosed rfl).1
      ⟨"if a == b.c \x7b\n\treturn\n\x7d", by rfl⟩
  · exact (Block.wellNested_of_formatFragment hopen rfl).2 (.unequal (by decide))

end RpcStubs
