import RpcStubs.Proofs.Stub.Conformance
import RpcStubs.Proofs.Stub.ServerNames

namespace RpcStubs

namespace Text

theorem le_of_inClass {lo n : Nat} {rest : List Nat} (h : inClass (lo :: rest) n = true) :
    lo ≤ n := by
  cases rest with
  | nil => cases h
  | cons hi rest =>
    by_contra hlt
    rw [inClass, if_pos (by omega)] at h
    cases h

def holdsAll : List Nat → List (Nat × Nat) → Bool
  | lo :: hi :: rest, stretches =>
    holdsAll rest (stretches.dropWhile fun p ↦ lo ≤ p.1 && p.2 < hi)
  | _, stretches => stretches.isEmpty

theorem inClass_of_holdsAll {bounds : List Nat} (hbounds : bounds.IsChain (· ≤ ·))
    {stretches : List (Nat × Nat)} (h : holdsAll bounds stretches = true) {p : Nat × Nat}
    (hp : p ∈ stretches) {n : Nat} (hlo : p.1 ≤ n) (hhi : n ≤ p.2) :
    inClass bounds n = true := by
  induction bounds using classMembers.induct generalizing stretches with
  | case1 lo hi rest ih =>
    rw [holdsAll] at h
    rw [← List.takeWhile_append_dropWhile (p := fun p ↦ lo ≤ p.1 && p.2 < hi) (l := stretches),
      List.mem_append] at hp
    rcases hp with hp | hp
    · have hfits := List.mem_takeWhile_imp hp
      simp only [Bool.and_eq_true, decide_eq_true_eq] at hfits
      rw [inClass, if_neg (by omega), if_pos (by omega)]
    · -- a later range holds the stretch, and later ranges lie higher
      rw [inClass]
      cases rest with
      | nil =>
        simp only [holdsAll, List.isEmpty_iff] at h
        rw [h] at hp
        cases hp
      | cons lo' rest =>
        simp only [List.isChain_cons_cons] at hbounds
        have hrest := ih hbounds.2.2 h hp
        have hle := le_of_inClass hrest
        rw [hrest, if_neg (by omega)]
        simp
  | case2 bounds hshort =>
    rw [holdsAll, List.isEmpty_iff] at h
    · simp [h] at hp
    · exact hshort

/-- Only letters have another upper case. -/
theorem isLetter_or_toUpper_eq (c : Char) : isLetter c = true ∨ toUpper c = [c] := by
  have hbounds : alphabeticBounds.IsChain (· ≤ ·) := by decide +kernel
  have hshifts : holdsAll alphabeticBounds (upperShifts.map fun s ↦ (s.lo, s.hi)) = true := by
    decide +kernel
  have hgrowth : holdsAll alphabeticBounds (upperGrowth.map fun p ↦ (p.1, p.1)) = true := by
    decide +kernel
  rw [toUpper, mapCase]
  split
  · next s hfind =>
    have hcovers := List.find?_some hfind
    simp only [CaseShift.covers, Bool.and_eq_true, decide_eq_true_eq] at hcovers
    have hmem := List.mem_map_of_mem (f := fun s : CaseShift ↦ (s.lo, s.hi))
      (List.mem_of_find?_eq_some hfind)
    exact .inl (inClass_of_holdsAll hbounds hshifts hmem hcovers.1.1 hcovers.1.2)
  · split
    · next codes hlookup =>
      obtain ⟨l, l', hsplit, -⟩ := List.lookup_eq_some_iff.1 hlookup
      have hmem : (c.toNat, c.toNat) ∈ upperGrowth.map fun p ↦ (p.1, p.1) := by
        rw [hsplit]
        simp
      exact .inl (inClass_of_holdsAll hbounds hgrowth hmem le_rfl le_rfl)
    · exact .inr rfl

end Text

open Text

/-- The start of a word can be gone on with another word. -/
theorem isWord_append_of_isWord {a b b' : List Char} (h : isWord (a ++ b) = true)
    (hb' : isWord b' = true) : isWord (a ++ b') = true := by
  cases a with
  | nil => exact hb'
  | cons c a =>
    simp only [List.cons_append, isWord, Bool.and_eq_true, List.all_append] at h ⊢
    exact ⟨h.1, h.2.1, List.all_eq_true.2 fun d hd ↦ isWordChar_of_mem hb' hd⟩

theorem isWord_of_exported {s : String} (h : isWord (Name.exported s).toList = true) :
    isWord s.toList = true := by
  rw [Name.exported, Name.mapFirst] at h
  split at h
  · cases h
  · next c rest hs =>
    rw [hs]
    rw [String.toList_ofList] at h
    rcases isLetter_or_toUpper_eq c with hletter | hsame
    · have hrest : rest.all Name.isWordChar = true :=
        List.all_eq_true.2 fun d hd ↦ isWordChar_of_mem h (List.mem_append_right _ hd)
      rw [isWord, hrest, startsWord, hletter]
      rfl
    · rwa [hsame] at h

/-- A legal selector on the receiver of a method ends in a legal name. -/
theorem legal_of_isOk_checkSelector {builder field receiver name : String}
    (hr : '.' ∉ receiver.toList) (hn : '.' ∉ name.toList)
    (h : checkSelector builder field (receiver ++ "." ++ name) = .ok ()) :
    identifierFault? name = none := by
  have hpieces := yields_checkSelector builder field (receiver ++ "." ++ name)
  rw [h] at hpieces
  have hsplit : pieces '.' (receiver ++ "." ++ name).toList = [receiver.toList, name.toList] := by
    have hlist : (receiver ++ "." ++ name).toList = receiver.toList ++ '.' :: name.toList := by simp
    rw [hlist, pieces_append, pieces_of_not_mem hr, pieces_of_not_mem hn]
    rfl
  have hname := hpieces.of_ok name.toList (by rw [hsplit]; simp)
  rwa [String.ofList_toList] at hname

namespace Stub

variable {s : Service} {f : Framework} {cts : List Wire.ContentType} {data : ServerMetadata}
  {e : Endpoint}

/-- The names of an interface are those that Go exports. -/
theorem Service.isOk_interface_iff : s.interface.isOk = true ↔
    identifierFault? (Name.exported s.name) = none ∧
      ∀ e ∈ s.endpoints, identifierFault? (Name.exported e.name) = none := by
  constructor
  · intro h
    obtain ⟨i, hi⟩ := exists_of_isOk h
    obtain ⟨hname, hmethods⟩ := signatures_of_interface hi
    refine ⟨hname ▸ i.name.legal, fun e he ↦ ?_⟩
    have hmem : { e.toSignature with name := Name.exported e.name } ∈
        i.methods.map InterfaceMethod.toSignature := hmethods ▸ List.mem_map_of_mem he
    obtain ⟨m, -, hm⟩ := List.mem_map.1 hmem
    have hexported : m.name.name = Name.exported e.name := congrArg Signature.name hm
    exact hexported ▸ m.name.legal
  · rintro ⟨hname, hendpoints⟩
    exact isOk_interface_of_legal hname hendpoints

namespace ServerStub

theorem legal_name_of_newServer {structName : String} {hooks logError : GoType} {fn : Function}
    (h : newServer s f structName hooks logError = .ok fn) : identifierFault? s.name = none := by
  obtain ⟨type, -, h⟩ := bind_eq_ok h
  obtain ⟨first, hfirst, h⟩ := bind_eq_ok h
  unfold StructLiteral.addField at hfirst
  split_ifs at hfirst
  · cases hfirst
  · obtain ⟨⟨⟩, hcheck, -⟩ := bind_eq_ok hfirst
    have hcheck := eq_ok_of_inBuilder hcheck
    unfold checkIdentifier at hcheck
    split at hcheck
    · assumption
    · cases hcheck

/-- The content handler calls the endpoint by its name. -/
theorem legal_name_of_contentHandler {receiver : GoType} {m : Method}
    (h : contentHandler receiver f e = .ok m) (hdot : '.' ∉ e.name.toList) :
    identifierFault? e.name = none := by
  obtain ⟨decode, -, h⟩ := bind_eq_ok h
  obtain ⟨call, hcall, -⟩ := bind_eq_ok h
  obtain ⟨onPanic, -, hcall⟩ := bind_eq_ok hcall
  obtain ⟨start, -, hcall⟩ := bind_eq_ok hcall
  obtain ⟨body, hbody, -⟩ := bind_eq_ok hcall
  obtain ⟨guard, -, hbody⟩ := bind_eq_ok hbody
  obtain ⟨rest, hrest, -⟩ := bind_eq_ok hbody
  obtain ⟨last, hlast, -⟩ := bind_eq_ok hrest
  obtain ⟨text, htext, -⟩ := bind_eq_ok hlast
  obtain ⟨⟨⟩, hcheck, -⟩ := bind_eq_ok htext
  obtain ⟨⟨⟩, hcallee, -⟩ := bind_eq_ok hcheck
  exact legal_of_isOk_checkSelector (by decide : '.' ∉ "s".toList) hdot
    (eq_ok_of_mapError hcallee : checkSelector _ _ ("s" ++ "." ++ e.name) = _)

end ServerStub

theorem Service.clientName_eq (s : Service) (ct : Wire.ContentType) :
    s.clientName ct = Name.unexported s.name ++ (ct.clientSuffix ++ "Client") := by
  rw [clientName, String.append_assoc]

theorem Service.legal_clientName (h : isWord s.serverName.toList = true) (ct : Wire.ContentType) :
    identifierFault? (s.clientName ct) = none := by
  have hsuffix : isWord ct.clientSuffix.toList = true := by cases ct <;> decide
  rw [serverName, String.toList_append] at h
  refine legal_append_right ?_ (by decide) (by decide)
  rw [String.toList_append]
  exact isWord_append_of_isWord h hsuffix

/-- Interface and server use every name that the clients use. -/
theorem Service.named_of_isOk (hi : s.interface.isOk = true) {server : ServerStub}
    (h : (ServerStub.build s f cts data).result = .ok server) : s.Named := by
  obtain ⟨hexported, hendpoints⟩ := isOk_interface_iff.1 hi
  obtain ⟨-, hooks, logError, hname, -, hconstructor, hmethods⟩ :=
    ServerStub.declarations_of_build h
  have hserver : identifierFault? s.serverName = none := hname ▸ server.type.name.legal
  refine ⟨ServerStub.legal_name_of_newServer hconstructor, hexported, hserver,
    Service.legal_clientName (isWord_of_legal hserver), fun e he ↦ ⟨?_, hendpoints e he⟩⟩
  obtain ⟨i, hi⟩ := List.mem_iff_getElem?.1 he
  obtain ⟨d, c, -, -, -, hcontent⟩ := (ServerStub.getElem?_methods hmethods).2 i e hi
  have hword := isWord_of_exported (isWord_of_legal (hendpoints e he))
  exact ServerStub.legal_name_of_contentHandler hcontent
    (not_mem_of_isWord hword (by decide +kernel))

end Stub

end RpcStubs
