import Mathlib.Tactic.Common
import RpcStubs.Code.File

namespace RpcStubs

/-- The failure comes from a rule that the program itself should keep. -/
def Failure.isViolation (f : Failure) : Bool :=
  match f.root with
  | .invariantViolation _ => true
  | _ => false

def Failure.isInputFault (f : Failure) : Bool := f.isConstruction || f.isResolution

theorem Failure.isViolation_eq_false {f : Failure} (h : f.isInputFault = true ∨ f.isFormat = true) :
    f.isViolation = false := by
  unfold isInputFault isConstruction isResolution isFormat at h
  unfold isViolation
  cases hr : f.root <;> simp_all

/-- If this fails, then with a failure of the given kind. -/
structure FailsOnly (P : Failure → Bool) {α : Type} (x : Build α) : Prop where
  of_error : ∀ failure, x = .error failure → P failure = true

section Rules

variable {α β : Type} {P Q : Failure → Bool} {x : Build α}

theorem failsOnly_ok (a : α) : FailsOnly P (.ok a : Build α) := ⟨nofun⟩

theorem failsOnly_pure (a : α) : FailsOnly P (pure a : Build α) := ⟨nofun⟩

theorem failsOnly_of_eq_ok {a : α} (h : x = .ok a) : FailsOnly P x := h ▸ failsOnly_ok a

theorem failsOnly_error_iff {failure : Failure} :
    FailsOnly P (.error failure : Build α) ↔ P failure = true :=
  ⟨fun h ↦ h.of_error failure rfl, fun h ↦ ⟨fun _ heq ↦ by cases heq; exact h⟩⟩

theorem FailsOnly.bind_of_ok {f : α → Build β} (hx : FailsOnly P x)
    (hf : ∀ a, x = .ok a → FailsOnly P (f a)) : FailsOnly P (x >>= f) := by
  cases x with
  | ok a => exact hf a rfl
  | error failure => exact failsOnly_error_iff.2 (failsOnly_error_iff.1 hx)

theorem FailsOnly.map {f : α → β} (h : FailsOnly P x) : FailsOnly P (x.map f) := by
  cases x with
  | ok a => exact failsOnly_ok (f a)
  | error failure => exact failsOnly_error_iff.2 (failsOnly_error_iff.1 h)

theorem FailsOnly.bind {f : α → Build β} (hx : FailsOnly P x) (hf : ∀ a, FailsOnly P (f a)) :
    FailsOnly P (x >>= f) := hx.bind_of_ok fun a _ ↦ hf a

theorem FailsOnly.mapError {g : Failure → Failure} (h : FailsOnly P x) (hg : ∀ f, P (g f) = P f) :
    FailsOnly P (x.mapError g) := by
  cases x with
  | ok a => exact failsOnly_ok a
  | error failure => exact failsOnly_error_iff.2 ((hg failure).trans (h.of_error failure rfl))

theorem failsOnly_mapM {f : α → Build β} {l : List α} (h : ∀ a ∈ l, FailsOnly P (f a)) :
    FailsOnly P (l.mapM f) := by
  induction l with
  | nil => exact failsOnly_pure _
  | cons a l ih =>
    rw [List.forall_mem_cons] at h
    rw [List.mapM_cons]
    exact h.1.bind fun _ ↦ (ih h.2).bind fun _ ↦ failsOnly_pure _

theorem failsOnly_foldlM {f : β → α → Build β} {l : List α}
    (h : ∀ a ∈ l, ∀ b, FailsOnly P (f b a)) (b : β) : FailsOnly P (l.foldlM f b) := by
  induction l generalizing b with
  | nil => exact failsOnly_pure _
  | cons a l ih =>
    rw [List.forall_mem_cons] at h
    rw [List.foldlM_cons]
    exact (h.1 b).bind fun b' ↦ ih h.2 b'

/-- No invariant is broken: if this fails, then over its input. -/
abbrev Upholds (x : Build α) : Prop := FailsOnly Failure.isInputFault x

theorem upholds_fault {failure : Failure} (h : failure.isInputFault = true) :
    Upholds (.error failure : Build α) := failsOnly_error_iff.2 h

theorem FailsOnly.inBuilder (h : Upholds x) (builder : String) :
    Upholds (Build.inBuilder builder x) := h.mapError fun _ ↦ rfl

abbrev LaysOut (x : Build α) : Prop := FailsOnly Failure.isFormat x

theorem LaysOut.inBuilder (h : LaysOut x) (builder : String) :
    LaysOut (Build.inBuilder builder x) := h.mapError fun _ ↦ rfl

end Rules

theorem laysOut_format (source : String) : LaysOut (Layout.format source) := by
  unfold Layout.format
  split
  · exact failsOnly_ok _
  · exact failsOnly_error_iff.2 rfl

theorem laysOut_finish (builder source : String) : LaysOut (finish builder source) :=
  LaysOut.inBuilder (laysOut_format source).map builder

theorem Structure.laysOut_renderMethods (s : Structure) : LaysOut s.renderMethods :=
  failsOnly_mapM fun _ _ ↦ LaysOut.inBuilder (laysOut_finish ..) _

theorem Structure.laysOut_renderWithMethods (s : Structure) :
    LaysOut (GoFile.renderWithMethods s) := by
  refine (laysOut_finish ..).bind fun text ↦ ?_
  exact s.laysOut_renderMethods.bind fun methods ↦ failsOnly_pure _

theorem Declaration.laysOut_render (d : Declaration) : LaysOut d.render := by
  cases d with
  | «structure» d =>
    refine (laysOut_finish ..).bind fun text ↦ ?_
    exact d.laysOut_renderMethods.bind fun methods ↦ failsOnly_pure _
  | _ => exact laysOut_finish ..

namespace GoFile

theorem laysOut_sections (f : GoFile) : LaysOut f.sections := by
  have hfinish {α : Type} {l : List α} (builder : α → String) (source : α → String) :
      LaysOut (l.mapM fun a ↦ RpcStubs.finish (builder a) (source a)) :=
    failsOnly_mapM fun _ _ ↦ laysOut_finish ..
  refine (hfinish _ _).bind fun consts ↦ ?_
  refine (hfinish _ _).bind fun vars ↦ ?_
  refine (hfinish _ _).bind fun interfaces ↦ ?_
  refine (hfinish _ _).bind fun prototypes ↦ ?_
  refine (hfinish _ _).bind fun types ↦ ?_
  refine (failsOnly_mapM fun s _ ↦ s.laysOut_renderWithMethods).bind fun typesWithMethods ↦ ?_
  exact (failsOnly_mapM fun d _ ↦ d.laysOut_render).bind fun funcs ↦ failsOnly_pure _

theorem laysOut_body (f : GoFile) : LaysOut f.body :=
  (LaysOut.inBuilder f.laysOut_sections builder).bind fun _ ↦ failsOnly_pure _

/-- A file whose declarations are there fails in the layout if at all. -/
theorem laysOut_finish (f : GoFile) : LaysOut f.finish.result := by
  unfold finish
  split
  · next failure h => exact failsOnly_error_iff.2 (f.laysOut_body.of_error failure h)
  · next body _ =>
    have hlayout : LaysOut (f.layOut body) := LaysOut.inBuilder (laysOut_format _) builder
    dsimp only
    split
    · next failure h => exact failsOnly_error_iff.2 (hlayout.of_error failure h)
    · exact failsOnly_ok _

end GoFile

end RpcStubs
