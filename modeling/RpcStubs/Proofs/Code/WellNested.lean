import Mathlib.Tactic.Common
import RpcStubs.Code.Step

namespace RpcStubs

namespace Step

def isPlain : Step → Bool
  | .call .. | .defineCall .. | .assignCall .. | .declareVar .. | .newInstance ..
  | .defineOperation .. | .typeAssert .. | .assignField .. | .deferCall .. | .ret
  | .returnValues .. | .returnCall .. => true
  | _ => false

def isIf : Step → Bool
  | .ifBegin .. | .ifScoped .. => true
  | _ => false

def isRange : Step → Bool
  | .rangeBegin .. => true
  | _ => false

def isElse : Step → Bool
  | .elseIf .. | .elseBegin => true
  | _ => false

def isClose : Step → Bool
  | .close => true
  | _ => false

end Step

inductive Part where
  | body
  | branches

/-- `S ::= (plain | if S (else if S)* [else S] close | range S close)*`. -/
inductive Derives : Part → List Step → Prop
  | nil : Derives .body []
  | plain {s : Step} {rest : List Step} : s.isPlain = true → Derives .body rest →
      Derives .body (s :: rest)
  | branching {s : Step} {first tail rest : List Step} : s.isIf = true → Derives .body first →
      Derives .branches tail → Derives .body rest → Derives .body (s :: (first ++ (tail ++ rest)))
  | loop {s : Step} {inner rest : List Step} : s.isRange = true → Derives .body inner →
      Derives .body rest → Derives .body (s :: (inner ++ .close :: rest))
  | close : Derives .branches [.close]
  | elseBranch {last : List Step} : Derives .body last →
      Derives .branches (.elseBegin :: (last ++ [.close]))
  | elseIf {left right : String} {op : Operator} {next tail : List Step} : Derives .body next →
      Derives .branches tail → Derives .branches (.elseIf left op right :: (next ++ tail))

def WellNested (steps : List Step) : Prop := Derives .body steps

theorem WellNested.append {a b : List Step} (ha : WellNested a) (hb : WellNested b) :
    WellNested (a ++ b) := by
  unfold WellNested at ha hb ⊢
  generalize hp : Part.body = p at ha
  induction ha with
  | nil => exact hb
  | plain hs _ ih => exact .plain hs (ih hp)
  | branching hs hfirst htail _ _ _ ih =>
    rw [List.cons_append, List.append_assoc, List.append_assoc]
    exact .branching hs hfirst htail (ih hp)
  | loop hs hinner _ _ ih =>
    rw [List.cons_append, List.append_assoc, List.cons_append]
    exact .loop hs hinner (ih hp)
  | close => cases hp
  | elseBranch => cases hp
  | elseIf => cases hp

/-- What a step does to the open blocks, of which each is told by whether branches may follow it.
Whether they may follow an `if` is decided by `takes` from the last operand of its condition. -/
def Step.turn (takes : String → Bool) (blocks : List Bool) : Step → Option (List Bool)
  | .ifBegin _ _ right => some (takes right :: blocks)
  | .ifScoped _ _ _ right => some (takes right :: blocks)
  | .rangeBegin .. => some (false :: blocks)
  | .elseIf _ _ right =>
    if blocks.head? = some true then some (takes right :: blocks.tail) else none
  | .elseBegin => if blocks.head? = some true then some (false :: blocks.tail) else none
  | .close => if blocks = [] then none else some blocks.tail
  | s => if s.isPlain then some blocks else none

def openBlocks (takes : String → Bool) : List Bool → List Step → Option (List Bool)
  | blocks, [] => some blocks
  | blocks, s :: rest => (s.turn takes blocks).bind (openBlocks takes · rest)

section Stack

variable {takes : String → Bool} {blocks blocks' : List Bool} {s : Step} {a b steps : List Step}

theorem openBlocks_append (a b : List Step) :
    openBlocks takes blocks (a ++ b) =
      (openBlocks takes blocks a).bind (openBlocks takes · b) := by
  induction a generalizing blocks with
  | nil => rfl
  | cons s a ih =>
    rw [List.cons_append, openBlocks, openBlocks]
    cases s.turn takes blocks with
    | none => rfl
    | some blocks' => exact ih

theorem openBlocks_append_of_eq (ha : openBlocks takes blocks a = some blocks') :
    openBlocks takes blocks (a ++ b) = openBlocks takes blocks' b := by
  rw [openBlocks_append, ha, Option.bind_some]

theorem openBlocks_snoc (steps : List Step) (s : Step) :
    openBlocks takes blocks (steps ++ [s]) =
      (openBlocks takes blocks steps).bind (s.turn takes ·) := by
  rw [openBlocks_append]
  simp [openBlocks]

theorem Step.turn_of_isPlain (h : s.isPlain = true) : s.turn takes blocks = some blocks := by
  cases s <;> first | rfl | cases h

theorem Step.turn_of_isIf (h : s.isIf = true) :
    ∃ right, s.turn takes blocks = some (takes right :: blocks) := by
  cases s <;> first | exact ⟨_, rfl⟩ | cases h

theorem Step.turn_of_isRange (h : s.isRange = true) :
    s.turn takes blocks = some (false :: blocks) := by
  cases s <;> first | rfl | cases h

theorem Step.turn_of_isElse (h : s.isElse = true) (hb : blocks.head? ≠ some true) :
    s.turn takes blocks = none := by
  cases s <;> first | exact if_neg hb | cases h

/-- All that a step can do. -/
theorem Step.turn_eq_some (h : s.turn takes blocks = some blocks') :
    (s.isPlain = true ∧ blocks' = blocks) ∨
    (s.isIf = true ∧ ∃ k, blocks' = k :: blocks) ∨
    (s.isRange = true ∧ blocks' = false :: blocks) ∨
    (∃ left op right below, s = .elseIf left op right ∧ blocks = true :: below ∧
      blocks' = takes right :: below) ∨
    (∃ below, s = .elseBegin ∧ blocks = true :: below ∧ blocks' = false :: below) ∨
    (∃ k, s = .close ∧ blocks = k :: blocks') := by
  have hhead (ht : blocks.head? = some true) : blocks = true :: blocks.tail := by
    cases blocks with
    | nil => cases ht
    | cons k below => rw [Option.some_inj.1 ht, List.tail_cons]
  cases s with
  | ifBegin left op right => exact .inr (.inl ⟨rfl, _, (Option.some_inj.1 h).symm⟩)
  | ifScoped init left op right => exact .inr (.inl ⟨rfl, _, (Option.some_inj.1 h).symm⟩)
  | rangeBegin key value list => exact .inr (.inr (.inl ⟨rfl, (Option.some_inj.1 h).symm⟩))
  | elseIf left op right =>
    rw [turn] at h
    split_ifs at h with ht
    exact .inr (.inr (.inr (.inl ⟨left, op, right, _, rfl, hhead ht, (Option.some_inj.1 h).symm⟩)))
  | elseBegin =>
    rw [turn] at h
    split_ifs at h with ht
    exact .inr (.inr (.inr (.inr (.inl ⟨_, rfl, hhead ht, (Option.some_inj.1 h).symm⟩))))
  | close =>
    cases blocks with
    | nil => cases h
    | cons k below => exact .inr (.inr (.inr (.inr (.inr ⟨k, rfl, by cases h; rfl⟩))))
  | _ => first | exact .inl ⟨rfl, (Option.some_inj.1 h).symm⟩ | cases h

/-- A step that can be taken does not see the blocks further down. -/
theorem Step.turn_above (h : s.turn takes blocks = some blocks') (below : List Bool) :
    s.turn takes (blocks ++ below) = some (blocks' ++ below) := by
  obtain ⟨hs, rfl⟩ | ⟨hs, k, rfl⟩ | ⟨hs, rfl⟩ | ⟨left, op, right, low, rfl, rfl, rfl⟩ |
    ⟨low, rfl, rfl, rfl⟩ | ⟨k, rfl, rfl⟩ := Step.turn_eq_some h
  · exact Step.turn_of_isPlain hs
  · cases s <;> first | (cases h; rfl) | cases hs
  · exact Step.turn_of_isRange hs
  · rfl
  · rfl
  · rfl

theorem openBlocks_above (h : openBlocks takes blocks steps = some blocks') (below : List Bool) :
    openBlocks takes (blocks ++ below) steps = some (blocks' ++ below) := by
  induction steps generalizing blocks with
  | nil =>
    cases h
    rfl
  | cons s rest ih =>
    obtain ⟨next, hnext, hrest⟩ := Option.bind_eq_some_iff.1 h
    rw [openBlocks, Step.turn_above hnext]
    exact ih hrest

/-- A step over a block without branches closes it, or does not see it. -/
theorem Step.turn_over (h : s.turn takes (blocks ++ [false]) = some blocks') :
    s = .close ∧ blocks = [] ∧ blocks' = [] ∨
      ∃ above, s.turn takes blocks = some above ∧ blocks' = above ++ [false] := by
  cases hturn : s.turn takes blocks with
  | some above =>
    rw [Step.turn_above hturn] at h
    exact .inr ⟨above, rfl, (Option.some_inj.1 h).symm⟩
  | none =>
    refine .inl ?_
    obtain ⟨hs, -⟩ | ⟨hs, -⟩ | ⟨hs, -⟩ | ⟨left, op, right, low, rfl, hb, -⟩ |
      ⟨low, rfl, hb, -⟩ | ⟨k, rfl, hb⟩ := Step.turn_eq_some h
    · rw [Step.turn_of_isPlain hs] at hturn
      cases hturn
    · obtain ⟨right, hright⟩ : ∃ right, s.turn takes blocks = some (takes right :: blocks) :=
        Step.turn_of_isIf hs
      rw [hright] at hturn
      cases hturn
    · rw [Step.turn_of_isRange hs] at hturn
      cases hturn
    · cases blocks with
      | nil => cases hb
      | cons k blocks =>
        cases hb
        cases hturn
    · cases blocks with
      | nil => cases hb
      | cons k blocks =>
        cases hb
        cases hturn
    · cases blocks with
      | nil =>
        cases hb
        exact ⟨rfl, rfl, rfl⟩
      | cons k blocks => cases hturn

theorem openBlocks_over {below : List Bool}
    (h : openBlocks takes (blocks ++ [false]) steps = some below) :
    (∃ above, openBlocks takes blocks steps = some above ∧ below = above ++ [false]) ∨
      ∃ a b, steps = a ++ .close :: b ∧ openBlocks takes blocks a = some [] ∧
        openBlocks takes [] b = some below := by
  induction steps generalizing blocks with
  | nil =>
    cases h
    exact .inl ⟨blocks, rfl, rfl⟩
  | cons s rest ih =>
    obtain ⟨next, hnext, hrest⟩ := Option.bind_eq_some_iff.1 h
    obtain ⟨rfl, rfl, rfl⟩ | ⟨above, hturn, rfl⟩ := Step.turn_over hnext
    · exact .inr ⟨[], rest, rfl, rfl, hrest⟩
    · obtain ⟨after, ha, hb⟩ | ⟨a, b, rfl, ha, hb⟩ := ih hrest
      · exact .inl ⟨after, by rw [openBlocks, hturn]; exact ha, hb⟩
      · exact .inr ⟨s :: a, b, rfl, by rw [openBlocks, hturn]; exact ha, hb⟩

/-- The steps close the block around them and then open another one. -/
def Escapes (takes : String → Bool) (steps : List Step) : Prop :=
  ∃ a b k, steps = a ++ .close :: b ∧ openBlocks takes [] a = some [] ∧
    openBlocks takes [] b = some [k]

/-- Between a head and a close, steps leave nothing open if they do not on their own, or if the
close ends a block of theirs after they have ended the block around them. -/
theorem openBlocks_enclosed_iff :
    openBlocks takes [false] (steps ++ [.close]) = some [] ↔
      openBlocks takes [] steps = some [] ∨ Escapes takes steps := by
  have hover {a : List Step} (h : openBlocks takes [] a = some []) :
      openBlocks takes [false] a = some [false] := openBlocks_above h [false]
  constructor
  · intro h
    rw [openBlocks_snoc] at h
    obtain ⟨below, hsteps, hclose⟩ := Option.bind_eq_some_iff.1 h
    obtain ⟨k, rfl⟩ : ∃ k, below = [k] := by
      cases below with
      | nil => cases hclose
      | cons k below => exact ⟨k, congrArg (k :: ·) (Option.some_inj.1 hclose)⟩
    have hsteps' : openBlocks takes ([] ++ [false]) steps = some [k] := hsteps
    obtain ⟨above, habove, hk⟩ | ⟨a, b, rfl, ha, hb⟩ := openBlocks_over hsteps'
    · obtain rfl : above = [] := by
        cases above with
        | nil => rfl
        | cons k above => simp at hk
      exact .inl habove
    · exact .inr ⟨a, b, k, rfl, ha, hb⟩
  · rintro (h | ⟨a, b, k, rfl, ha, hb⟩)
    · rw [openBlocks_append_of_eq (hover h)]
      rfl
    · have hclosed : openBlocks takes [false] (a ++ .close :: b) = some [k] := by
        rw [openBlocks_append_of_eq (hover ha)]
        exact hb
      rw [openBlocks_append_of_eq hclosed]
      rfl

end Stack

def Part.blocks (below : List Bool) : Part → List Bool
  | .body => below
  | .branches => true :: below

theorem Derives.openBlocks_eq {p : Part} {steps : List Step} (h : Derives p steps)
    (below : List Bool) : openBlocks (fun _ ↦ true) (p.blocks below) steps = some below := by
  induction h generalizing below with
  | nil => rfl
  | plain hs _ ih =>
    rw [openBlocks, Step.turn_of_isPlain hs]
    exact ih below
  | @branching s first tail rest hs _ _ _ ihfirst ihtail ihrest =>
    have hfirst : openBlocks (fun _ ↦ true) (true :: below) first = some (true :: below) :=
      ihfirst (true :: below)
    have htail : openBlocks (fun _ ↦ true) (true :: below) tail = some below := ihtail below
    obtain ⟨right, hturn⟩ : ∃ right : String, s.turn (fun _ ↦ true) below = some (true :: below) :=
      Step.turn_of_isIf hs
    rw [openBlocks, Part.blocks, hturn, Option.bind_some, openBlocks_append_of_eq hfirst,
      openBlocks_append_of_eq htail]
    exact ihrest below
  | @loop s inner rest hs _ _ ihinner ihrest =>
    have hinner : openBlocks (fun _ ↦ true) (false :: below) inner = some (false :: below) :=
      ihinner (false :: below)
    rw [openBlocks, Part.blocks, Step.turn_of_isRange hs, Option.bind_some,
      openBlocks_append_of_eq hinner]
    exact ihrest below
  | close => rfl
  | elseBranch _ ih => exact openBlocks_append_of_eq (ih (false :: below))
  | elseIf _ _ ihnext ihtail =>
    exact (openBlocks_append_of_eq (ihnext (true :: below))).trans (ihtail below)

/-- The steps close all that is open, and nothing else is wrong with them. -/
def Closes : List Bool → List Step → Prop
  | [], steps => WellNested steps
  | k :: below, steps => ∃ inner tail rest, steps = inner ++ (tail ++ rest) ∧ WellNested inner ∧
      Derives .branches tail ∧ (k = false → tail = [.close]) ∧ Closes below rest

theorem Closes.append {blocks : List Bool} {a b : List Step} (ha : WellNested a)
    (hb : Closes blocks b) : Closes blocks (a ++ b) := by
  cases blocks with
  | nil => exact WellNested.append ha hb
  | cons k below =>
    obtain ⟨inner, tail, rest, rfl, hinner, htail⟩ := hb
    exact ⟨a ++ inner, tail, rest, (List.append_assoc ..).symm, ha.append hinner, htail⟩

/-- Whatever operands take branches, what the stack lets through is well nested. -/
theorem closes_of_openBlocks {takes : String → Bool} {blocks : List Bool} {steps : List Step}
    (h : openBlocks takes blocks steps = some []) : Closes blocks steps := by
  induction steps generalizing blocks with
  | nil =>
    cases h
    exact .nil
  | cons s rest ih =>
    obtain ⟨next, hturn, hrest⟩ := Option.bind_eq_some_iff.1 h
    have hclose := ih hrest
    obtain ⟨hs, rfl⟩ | ⟨hs, k, rfl⟩ | ⟨hs, rfl⟩ | ⟨left, op, right, low, rfl, rfl, rfl⟩ |
      ⟨low, rfl, rfl, rfl⟩ | ⟨k, rfl, rfl⟩ := Step.turn_eq_some hturn
    · exact Closes.append (a := [s]) (.plain hs .nil) hclose
    · obtain ⟨inner, tail, rest, rfl, hinner, htail, -, hbelow⟩ := hclose
      have hif : WellNested (s :: (inner ++ (tail ++ []))) := .branching hs hinner htail .nil
      have hall := hbelow.append hif
      rwa [List.append_nil, List.cons_append, List.append_assoc] at hall
    · obtain ⟨inner, tail, rest, rfl, hinner, -, htail, hbelow⟩ := hclose
      have hloop : WellNested (s :: (inner ++ .close :: [])) := .loop hs hinner .nil
      have hall := hbelow.append hloop
      rw [List.cons_append, List.append_assoc] at hall
      rwa [htail rfl]
    · obtain ⟨inner, tail, rest, rfl, hinner, htail, -, hbelow⟩ := hclose
      exact ⟨[], .elseIf left op right :: (inner ++ tail), rest, by simp, .nil,
        .elseIf hinner htail, by simp, hbelow⟩
    · obtain ⟨inner, tail, rest, rfl, hinner, -, htail, hbelow⟩ := hclose
      refine ⟨[], .elseBegin :: (inner ++ [.close]), rest, ?_, .nil, .elseBranch hinner, by simp,
        hbelow⟩
      rw [htail rfl]
      simp
    · exact ⟨[], [.close], rest, rfl, .nil, .close, fun _ ↦ rfl, hclose⟩

theorem wellNested_of_openBlocks {takes : String → Bool} {steps : List Step}
    (h : openBlocks takes [] steps = some []) : WellNested steps := closes_of_openBlocks h

theorem wellNested_iff {steps : List Step} :
    WellNested steps ↔ openBlocks (fun _ ↦ true) [] steps = some [] :=
  ⟨fun h ↦ Derives.openBlocks_eq h [], wellNested_of_openBlocks⟩

theorem WellNested.openBlocks_eq {a : List Step} (h : WellNested a) (blocks : List Bool) :
    openBlocks (fun _ ↦ true) blocks a = some blocks := Derives.openBlocks_eq h blocks

def Step.isHead (s : Step) : Bool := s.isIf || s.isRange

/-- Steps that are not well nested for a reason that has a name. -/
inductive Misnested : List Step → Prop
  | unequal {steps : List Step} : steps.countP Step.isHead ≠ steps.countP Step.isClose →
      Misnested steps
  | earlyClose {a b : List Step} : WellNested a → Misnested (a ++ .close :: b)
  | topElse {a b : List Step} {s : Step} : WellNested a → s.isElse = true →
      Misnested (a ++ s :: b)
  | elseAfterRange {a b c : List Step} {s t : Step} : s.isRange = true → WellNested b →
      t.isElse = true → Misnested (a ++ s :: (b ++ t :: c))
  | elseAfterElse {a b c : List Step} {t : Step} : WellNested b → t.isElse = true →
      Misnested (a ++ .elseBegin :: (b ++ t :: c))

/-- Every head opens one block and every close closes one; an `else` does both. -/
theorem length_openBlocks {takes : String → Bool} {blocks blocks' : List Bool} {steps : List Step}
    (h : openBlocks takes blocks steps = some blocks') :
    blocks'.length + steps.countP Step.isClose = blocks.length + steps.countP Step.isHead := by
  induction steps generalizing blocks with
  | nil =>
    cases h
    rfl
  | cons s rest ih =>
    obtain ⟨next, hturn, hrest⟩ := Option.bind_eq_some_iff.1 h
    have hlength := ih hrest
    have hplain (hs : s.isPlain = true) : s.isClose = false ∧ s.isHead = false := by
      cases s <;> first | exact ⟨rfl, rfl⟩ | cases hs
    have hhead (hs : s.isHead = true) : s.isClose = false := by
      cases s <;> first | rfl | cases hs
    rw [List.countP_cons, List.countP_cons]
    obtain ⟨hs, rfl⟩ | ⟨hs, k, rfl⟩ | ⟨hs, rfl⟩ | ⟨left, op, right, low, rfl, rfl, rfl⟩ |
      ⟨low, rfl, rfl, rfl⟩ | ⟨k, rfl, rfl⟩ := Step.turn_eq_some hturn
    · rw [(hplain hs).1, (hplain hs).2]
      simpa using hlength
    · have hs' : s.isHead = true := by rw [Step.isHead, hs, Bool.true_or]
      rw [hhead hs', hs']
      simp only [List.length_cons, Bool.false_eq_true, if_false, if_true] at hlength ⊢
      omega
    · have hs' : s.isHead = true := by rw [Step.isHead, hs, Bool.or_true]
      rw [hhead hs', hs']
      simp only [List.length_cons, Bool.false_eq_true, if_false, if_true] at hlength ⊢
      omega
    all_goals
      simp only [List.length_cons, Step.isHead, Step.isIf, Step.isRange, Step.isClose,
        Bool.or_false, Bool.false_eq_true, if_false, if_true] at hlength ⊢
      omega

/-- Steps after which the next one cannot be taken. -/
theorem openBlocks_eq_none {takes : String → Bool} {blocks blocks' : List Bool} {a b : List Step}
    {s : Step} (ha : openBlocks takes blocks a = some blocks') (hs : s.turn takes blocks' = none) :
    openBlocks takes blocks (a ++ s :: b) = none := by
  rw [openBlocks_append_of_eq ha, openBlocks, hs]
  rfl

theorem Misnested.not_wellNested {steps : List Step} (h : Misnested steps) :
    ¬WellNested steps := by
  intro hw
  rw [wellNested_iff] at hw
  -- an `else` that follows a block of which the head is `s`
  have hafter {a b c : List Step} {s t : Step} (hs : ∀ blocks next,
      s.turn (fun _ ↦ true) blocks = some next → next.head? = some false)
      (hb : WellNested b) (ht : t.isElse = true) :
      openBlocks (fun _ ↦ true) [] (a ++ s :: (b ++ t :: c)) ≠ some [] := by
    intro hok
    rw [openBlocks_append] at hok
    obtain ⟨blocks, -, hrest⟩ := Option.bind_eq_some_iff.1 hok
    obtain ⟨next, hturn, hrest⟩ := Option.bind_eq_some_iff.1 hrest
    rw [openBlocks_eq_none (hb.openBlocks_eq next)
      (Step.turn_of_isElse ht (by rw [hs _ _ hturn]; simp))] at hrest
    cases hrest
  cases h with
  | unequal hne =>
    have hlength := length_openBlocks hw
    simp only [List.length_nil, Nat.zero_add] at hlength
    exact hne hlength.symm
  | earlyClose ha =>
    rw [openBlocks_eq_none (ha.openBlocks_eq []) rfl] at hw
    cases hw
  | topElse ha hs =>
    rw [openBlocks_eq_none (ha.openBlocks_eq []) (Step.turn_of_isElse hs (by simp))] at hw
    cases hw
  | elseAfterRange hs hb ht =>
    refine hafter (fun blocks next hturn ↦ ?_) hb ht hw
    rw [Step.turn_of_isRange hs] at hturn
    cases hturn
    rfl
  | elseAfterElse hb ht =>
    refine hafter (fun blocks next hturn ↦ ?_) hb ht hw
    rw [Step.turn] at hturn
    split_ifs at hturn
    cases hturn
    rfl

end RpcStubs
