import RpcStubs.Proofs.Code.Files
import RpcStubs.Proofs.Layout.Seams

namespace RpcStubs.Layout

open Text

/-- A section, which has some text, and its layout. -/
structure LaidOut (s t : String) : Prop where
  hasText : HasText s
  format_eq : format s = .ok t

def stacked : List String → String
  | [] => ""
  | [t] => t
  | t :: ts => t ++ seam t ++ stacked ts

theorem LaidOut.append {a b a' b' : String} (ha : LaidOut a a') (hb : LaidOut b b') :
    LaidOut (a ++ "\n\n" ++ b) (a' ++ seam a' ++ b') where
  hasText := by
    refine hasText_iff.2 fun hblank ↦ hasText_iff.1 ha.hasText fun c hc ↦ hblank c ?_
    simp [hc]
  format_eq := format_append ha.hasText hb.hasText ha.format_eq hb.format_eq

/-- Any number of sections, by induction on the first ones: what follows a section is one text. -/
theorem LaidOut.intercalate {sources texts : List String}
    (h : List.Forall₂ LaidOut sources texts) (hne : sources ≠ []) :
    LaidOut ("\n\n".intercalate sources) (stacked texts) := by
  induction h with
  | nil => exact absurd rfl hne
  | @cons s t sources texts hs hrest ih =>
    cases hrest with
    | nil =>
      have hone : "\n\n".intercalate [s] = s := String.toList_injective (by simp)
      rw [hone]
      exact hs
    | @cons s' t' sources texts hs' hrest =>
      have hmore : "\n\n".intercalate (s :: s' :: sources) =
          s ++ "\n\n" ++ "\n\n".intercalate (s' :: sources) := by
        refine String.toList_injective ?_
        simp only [String.toList_intercalate, String.toList_append, List.map_cons,
          List.intercalate_cons_cons]
      rw [hmore]
      exact hs.append (ih (by simp))

/-- The declarations of a body stand among the sections of the file. -/
theorem intercalate_optional {front decls texts : List String} (hfront : front ≠ [])
    (h : List.Forall₂ LaidOut decls texts) :
    "\n\n".intercalate (front ++ optional ("\n\n".intercalate decls)) =
      "\n\n".intercalate (front ++ decls) := by
  by_cases hne : decls = []
  · rw [hne]
    rfl
  have hbody : ("\n\n".intercalate decls).isEmpty = false := by
    rw [Bool.eq_false_iff, Ne, String.isEmpty_iff]
    intro hnil
    refine hasText_iff.1 (LaidOut.intercalate h hne).hasText ?_
    simp [hnil, Blanks]
  refine String.toList_injective ?_
  rw [optional, hbody, if_neg Bool.false_ne_true, String.toList_intercalate,
    String.toList_intercalate, List.map_append, List.map_append,
    intercalate_append _ (by simpa using hfront) (by simp),
    intercalate_append _ (by simpa using hfront) (by simpa using hne), List.map_singleton,
    List.intercalate_singleton, String.toList_intercalate]

def beforeBody (g : GoFile) (body : String) : List String :=
  frontMatter g ++ optional (importBlock (resolveImports body g.declaredImports))

theorem layOut_eq_stacked {g : GoFile} {decls front texts : List String}
    (hf : List.Forall₂ LaidOut (beforeBody g ("\n\n".intercalate decls)) front)
    (hd : List.Forall₂ LaidOut decls texts) :
    g.layOut ("\n\n".intercalate decls) = .ok (stacked (front ++ texts)) := by
  have hne : beforeBody g ("\n\n".intercalate decls) ≠ [] := by simp [beforeBody, frontMatter]
  have hall : LaidOut ("\n\n".intercalate (beforeBody g ("\n\n".intercalate decls) ++ decls))
      (stacked (front ++ texts)) :=
    LaidOut.intercalate (List.rel_append hf hd) (List.append_ne_nil_of_left_ne_nil hne decls)
  rw [GoFile.layOut, assemble_eq, ← beforeBody, intercalate_optional hne hd,
    format_newline hall.format_eq]
  rfl

/-- Layout is compositional. Two sections with a blank line between them are laid out one by one,
and the blank line stays unless a comment at the end of the first one looks like an open bracket.
So are the sections of a file, whatever they are. -/
theorem format_sections :
    (∀ a b a' b', LaidOut a a' → LaidOut b b' →
      format (a ++ "\n\n" ++ b) = .ok (a' ++ seam a' ++ b')) ∧
    (∀ a a', LaidOut a a' → seam a' = "" →
      ∃ gs c, mark a'.toList = .ok (gs ++ [(c, .lineComment), ('\n', .code)])) ∧
    (∀ sources texts, sources ≠ [] → List.Forall₂ LaidOut sources texts →
      format ("\n\n".intercalate sources) = .ok (stacked texts)) ∧
    ∀ (g : GoFile) (decls front texts : List String),
      List.Forall₂ LaidOut (beforeBody g ("\n\n".intercalate decls)) front →
      List.Forall₂ LaidOut decls texts →
      g.layOut ("\n\n".intercalate decls) = .ok (stacked (front ++ texts)) := by
  refine ⟨fun a b a' b' ha hb ↦ (ha.append hb).format_eq, fun a a' ha hs ↦ ?_,
    fun sources texts hne h ↦ (LaidOut.intercalate h hne).format_eq,
    fun g decls front texts ↦ layOut_eq_stacked⟩
  refine exists_lineComment ha.hasText ha.format_eq ?_
  by_contra ho
  rw [seam, if_neg ho] at hs
  revert hs
  decide

def fieldsSection : String := "type T struct \x7b\na int\nbb string\n\x7d\n\n// see ("

def fieldsLayout : String :=
  "type T struct \x7b\n\ta  int\n\tbb string\n\x7d\n\n// see (\n"

def valueSection : String := "\n\nvar x = 1  "

def valueLayout : String := "var x = 1\n"

theorem laidOut_fieldsSection : LaidOut fieldsSection fieldsLayout where
  hasText := ⟨"// see (".toList, by decide +kernel, by decide +kernel⟩
  format_eq := format_ofList (by decide +kernel)

theorem laidOut_valueSection : LaidOut valueSection valueLayout where
  hasText := ⟨"var x = 1  ".toList, by decide +kernel, by decide +kernel⟩
  format_eq := format_ofList (by decide +kernel)

def bareFile : GoFile where
  package := ⟨"fields", by decide⟩
  fileName := "fields.go"

theorem format_sections_commented :
    format (fieldsSection ++ "\n\n" ++ valueSection) = .ok (fieldsLayout ++ "" ++ valueLayout) ∧
      (∃ gs c, mark fieldsLayout.toList = .ok (gs ++ [(c, .lineComment), ('\n', .code)])) ∧
      format ("\n\n".intercalate [valueSection, fieldsSection]) =
        .ok (valueLayout ++ "\n" ++ fieldsLayout) ∧
      bareFile.layOut ("\n\n".intercalate [valueSection, fieldsSection]) =
        .ok ("package fields\n" ++ "\n" ++ (valueLayout ++ "\n" ++ fieldsLayout)) := by
  obtain ⟨hpair, hcomment, hlist, hfile⟩ := format_sections
  have hopen : seam fieldsLayout = "" := by decide +kernel
  have hblank : seam valueLayout = "\n" := by decide +kernel
  have hsections := List.Forall₂.cons laidOut_valueSection (.cons laidOut_fieldsSection .nil)
  have hfront : List.Forall₂ LaidOut
      (beforeBody bareFile ("\n\n".intercalate [valueSection, fieldsSection]))
      ["package fields\n"] := by
    have hpackage : beforeBody bareFile ("\n\n".intercalate [valueSection, fieldsSection]) =
        ["package fields"] := by decide +kernel
    rw [hpackage]
    exact .cons ⟨⟨"package fields".toList, by decide +kernel, by decide +kernel⟩,
      format_ofList (by decide +kernel)⟩ .nil
  refine ⟨?_, hcomment _ _ laidOut_fieldsSection hopen, ?_, ?_⟩
  · rw [← hopen]
    exact hpair _ _ _ _ laidOut_fieldsSection laidOut_valueSection
  · rw [← hblank]
    exact hlist _ _ (by simp) hsections
  · have hstack := hfile bareFile _ _ _ hfront hsections
    have hseam : seam "package fields\n" = "\n" := by decide +kernel
    simpa only [stacked, List.singleton_append, hseam, hblank] using hstack

end RpcStubs.Layout
