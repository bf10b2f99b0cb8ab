import Mathlib.Tactic.SplitIfs
import RpcStubs.Schema.Context

namespace RpcStubs

namespace Proto.Fields

theorem erase_cons (entry : Nat × Value) (d : Fields) (number : Nat) :
    erase (entry :: d) number =
      if entry.1 = number then erase d number else entry :: erase d number := by
  unfold erase
  split_ifs with h
  · exact List.filter_cons_of_neg (by simp [h])
  · exact List.filter_cons_of_pos (by simp [h])

theorem erase_erase (d : Fields) (number : Nat) :
    (d.erase number).erase number = d.erase number := by
  unfold erase
  rw [List.filter_filter]
  simp only [Bool.and_self]

theorem get?_erase_self (d : Fields) (number : Nat) : (d.erase number).get? number = none := by
  refine List.lookup_eq_none_iff.2 fun entry hentry ↦ ?_
  have hkept : entry.1 ≠ number := of_decide_eq_true (List.mem_filter.1 hentry).2
  exact bne_iff_ne.2 hkept.symm

theorem get?_erase_of_ne {number erased : Nat} (h : number ≠ erased) (d : Fields) :
    (d.erase erased).get? number = d.get? number := by
  induction d with
  | nil => rfl
  | cons entry d ih =>
    unfold get? at ih ⊢
    rw [erase_cons]
    split_ifs with he
    · rw [ih, List.lookup_cons, beq_eq_false_iff_ne.2 (he ▸ h)]
    · rw [List.lookup_cons, List.lookup_cons, ih]

theorem getAll_erase_of_ne {number erased : Nat} (h : number ≠ erased) (d : Fields) :
    (d.erase erased).getAll number = d.getAll number := by
  induction d with
  | nil => rfl
  | cons entry d ih =>
    obtain ⟨n, value⟩ := entry
    unfold getAll at ih ⊢
    rw [erase_cons]
    split_ifs with he
    · have hskip : ¬n = number := fun hn ↦ h (hn.symm.trans he)
      simp only [ih, List.filterMap_cons, if_neg hskip]
    · rw [List.filterMap_cons, List.filterMap_cons, ih]

end Proto.Fields

namespace Schema

open Proto

theorem messagesOf_erase {number erased : Nat} (h : number ≠ erased) (d : Fields) :
    messagesOf number (d.erase erased) = messagesOf number d := by
  induction d with
  | nil => rfl
  | cons entry d ih =>
    obtain ⟨n, value⟩ := entry
    rw [Fields.erase_cons, messagesOf]
    split_ifs with he hn hn
    · exact absurd (hn.symm.trans he) h
    · exact ih
    · rw [messagesOf, if_pos hn, ih]
    · rw [messagesOf, if_neg hn, ih]

def File.undocumented (f : File) : File := { f with comments := [] }

def Context.undocumented (ctx : Context) : Context :=
  { ctx with
    files := ctx.files.map File.undocumented
    registry := { ctx.registry with comments := [] } }

theorem undocumented_ofDescriptor (d : Fields) :
    (File.ofDescriptor d).undocumented = File.ofDescriptor (d.erase 9) := by
  have hcomments : commentsOf (d.erase 9) = [] := by
    simp only [commentsOf, Fields.message?, Fields.get?_erase_self]
  have htext {number : Nat} (h : number ≠ 9) : (d.erase 9).text? number = d.text? number := by
    rw [Fields.text?, Fields.get?_erase_of_ne h]
    rfl
  have hoptions : (d.erase 9).message? 8 = d.message? 8 := by
    rw [Fields.message?, Fields.get?_erase_of_ne (by decide)]
    rfl
  have hservices : (d.erase 9).messages 6 = d.messages 6 := by
    rw [Fields.messages, Fields.getAll_erase_of_ne (by decide)]
    rfl
  rw [File.undocumented, File.ofDescriptor, File.ofDescriptor, hcomments, htext (by decide),
    htext (by decide), hoptions, hservices, messagesOf_erase (by decide), Fields.erase_erase]

/-- Descriptors that differ in their source info only give files that differ in comments only. -/
theorem undocumented_ofDescriptor_congr {d d' : Fields} (h : d'.erase 9 = d.erase 9) :
    (File.ofDescriptor d').undocumented = (File.ofDescriptor d).undocumented := by
  rw [undocumented_ofDescriptor, undocumented_ofDescriptor, h]

theorem positions_undocumented (files : List File) (names : List String) :
    Context.positions (files.map File.undocumented) names = Context.positions files names := by
  have hfind (name : String) : (files.map File.undocumented).findIdx? (·.name == name) =
      files.findIdx? (·.name == name) := List.findIdx?_map
  induction names with
  | nil => rfl
  | cons name names ih => rw [Context.positions, Context.positions, hfind, ih]

theorem deducePackage_undocumented (files : List File) :
    deducePackage (files.map File.undocumented) = deducePackage files := by
  simp only [deducePackage, explicitNames, List.filterMap_map, List.map_map]
  rfl

theorem definitions_undocumented (files : List File) :
    (Registry.ofFiles (files.map File.undocumented)).definitions =
      (Registry.ofFiles files).definitions := by
  simp only [Registry.ofFiles, List.zipIdx_map, List.flatMap_map]
  rfl

theorem getElem?_undocumented (files : List File) (i : Nat) :
    (files.map File.undocumented)[i]? = files[i]?.map File.undocumented := List.getElem?_map

namespace Context

theorem packageOf?_undocumented (ctx : Context) (i : Nat) :
    ctx.undocumented.packageOf? i = ctx.packageOf? i := by
  rw [packageOf?, packageOf?, undocumented, getElem?_undocumented, Option.map_map]
  rfl

theorem type_undocumented (ctx : Context) (name : String) :
    ctx.undocumented.type name = ctx.type name := by
  unfold type
  refine bind_congr fun d ↦ ?_
  rw [packageOf?_undocumented]
  simp only [undocumented, getElem?_undocumented]
  cases ctx.files[d.fileIndex]? with
  | none => rfl
  | some f => cases ctx.packageOf? d.fileIndex <;> rfl

theorem file_undocumented (ctx : Context) (i : Nat) :
    ctx.undocumented.file i = (ctx.file i).map File.undocumented := by
  rw [file, file, undocumented, getElem?_undocumented]
  cases ctx.files[i]? <;> rfl

theorem type_eq_of_undocumented {ctx ctx' : Context} (h : ctx'.undocumented = ctx.undocumented)
    (name : String) : ctx'.type name = ctx.type name := by
  rw [← ctx'.type_undocumented, h, ctx.type_undocumented]

end Context

end Schema

end RpcStubs
