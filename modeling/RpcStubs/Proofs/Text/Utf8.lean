import Mathlib.Tactic.Common
import RpcStubs.Text.Utf8

namespace RpcStubs.Text

theorem loop_eq_append (bytes : ByteArray) (i : Nat) (done : List UInt8) :
    ByteArray.toList.loop bytes i done = done.reverse ++ bytes.data.toList.drop i := by
  fun_induction ByteArray.toList.loop bytes i done with
  | case1 i done h ih =>
    have hi : i < bytes.data.toList.length := h
    rw [ih, List.drop_eq_getElem_cons hi]
    simp [ByteArray.get!, h]
  | case2 i done h =>
    have hi : bytes.data.toList.length ≤ i := Nat.le_of_not_lt h
    rw [List.drop_eq_nil_of_le hi, List.append_nil]

theorem utf8Bytes_eq_flatMap (s : String) :
    utf8Bytes s = s.toList.flatMap String.utf8EncodeChar := by
  have hs : s.toUTF8 = s.toList.utf8Encode := by
    rw [← String.toByteArray_ofList, String.ofList_toList]
    rfl
  rw [utf8Bytes, hs, ByteArray.toList, loop_eq_append, List.utf8Encode,
    List.toList_data_toByteArray]
  rfl

theorem scalar?_toNat {least : Nat} {c : Char} (h : least ≤ c.toNat) :
    scalar? least c.toNat = some c := by
  have hc : c.toNat < 0xD800 ∨ 0xDFFF < c.toNat ∧ c.toNat < 0x110000 := c.valid
  rw [scalar?, if_pos (by omega), Char.ofNat_toNat]

section Sizes

variable {a b d e : UInt8} {c : Char} (rest : List UInt8)

theorem firstChar?_two (ha : a.toNat / 32 = 6) (hb : isContinuation b.toNat)
    (hc : c.toNat = a.toNat % 32 * 64 + b.toNat % 64) (hleast : 0x80 ≤ c.toNat) :
    firstChar? (a :: b :: rest) = some (c, 2) := by
  have hone : ¬a.toNat < 0x80 := by omega
  simp [firstChar?, hone, ha, hb, ← hc, scalar?_toNat hleast]

theorem firstChar?_three (ha : a.toNat / 16 = 14) (hb : isContinuation b.toNat)
    (hd : isContinuation d.toNat)
    (hc : c.toNat = (a.toNat % 16 * 64 + b.toNat % 64) * 64 + d.toNat % 64)
    (hleast : 0x800 ≤ c.toNat) : firstChar? (a :: b :: d :: rest) = some (c, 3) := by
  have hone : ¬a.toNat < 0x80 := by omega
  have htwo : ¬a.toNat / 32 = 6 := by omega
  simp [firstChar?, hone, htwo, ha, hb, hd, ← hc, scalar?_toNat hleast]

theorem firstChar?_four (ha : a.toNat / 8 = 30) (hb : isContinuation b.toNat)
    (hd : isContinuation d.toNat) (he : isContinuation e.toNat)
    (hc : c.toNat =
      ((a.toNat % 8 * 64 + b.toNat % 64) * 64 + d.toNat % 64) * 64 + e.toNat % 64)
    (hleast : 0x10000 ≤ c.toNat) : firstChar? (a :: b :: d :: e :: rest) = some (c, 4) := by
  have hone : ¬a.toNat < 0x80 := by omega
  have htwo : ¬a.toNat / 32 = 6 := by omega
  have hthree : ¬a.toNat / 16 = 14 := by omega
  simp [firstChar?, hone, htwo, hthree, ha, hb, hd, he, ← hc, scalar?_toNat hleast]

end Sizes

theorem toNat_ofNat_of_lt {n : Nat} (h : n < 256) : (UInt8.ofNat n).toNat = n := by
  rw [UInt8.toNat_ofNat', Nat.mod_eq_of_lt h]

theorem isContinuation_ofNat (n : Nat) : isContinuation (UInt8.ofNat (n % 64 + 128)).toNat := by
  rw [toNat_ofNat_of_lt (by omega), isContinuation, beq_iff_eq]
  omega

/-- The bytes of a character are read together, whatever follows them. -/
theorem firstChar?_utf8EncodeChar (c : Char) (rest : List UInt8) :
    firstChar? (String.utf8EncodeChar c ++ rest) = some (c, (String.utf8EncodeChar c).length) := by
  have hval : c.val.toNat = c.toNat := rfl
  have hc : c.toNat < 0xD800 ∨ 0xDFFF < c.toNat ∧ c.toNat < 0x110000 := c.valid
  simp only [String.utf8EncodeChar, hval]
  split_ifs with h₁ h₂ h₃
  · have ha : (UInt8.ofNat c.toNat).toNat = c.toNat := toNat_ofNat_of_lt (by omega)
    have hone : c.toNat < 0x80 := by omega
    simp [firstChar?, ha, hone]
  · refine firstChar?_two rest ?_ (isContinuation_ofNat _) ?_ (by omega)
    · rw [toNat_ofNat_of_lt (by omega)]
      omega
    · rw [toNat_ofNat_of_lt (by omega), toNat_ofNat_of_lt (by omega)]
      omega
  · refine firstChar?_three rest ?_ (isContinuation_ofNat _) (isContinuation_ofNat _) ?_ (by omega)
    · rw [toNat_ofNat_of_lt (by omega)]
      omega
    · rw [toNat_ofNat_of_lt (by omega), toNat_ofNat_of_lt (by omega),
        toNat_ofNat_of_lt (by omega)]
      omega
  · refine firstChar?_four rest ?_ (isContinuation_ofNat _) (isContinuation_ofNat _)
      (isContinuation_ofNat _) ?_ (by omega)
    · rw [toNat_ofNat_of_lt (by omega)]
      omega
    · rw [toNat_ofNat_of_lt (by omega), toNat_ofNat_of_lt (by omega),
        toNat_ofNat_of_lt (by omega), toNat_ofNat_of_lt (by omega)]
      omega

theorem decodeFrom_skip (skipped : List UInt8) (done : List (Option Char)) (rest : List UInt8) :
    decodeFrom skipped.length done (skipped ++ rest) = decodeFrom 0 done rest := by
  induction skipped with
  | nil => rfl
  | cons b skipped ih => exact ih

theorem decodeFrom_utf8EncodeChar (c : Char) (done : List (Option Char)) (rest : List UInt8) :
    decodeFrom 0 done (String.utf8EncodeChar c ++ rest) = decodeFrom 0 (some c :: done) rest := by
  have hne : String.utf8EncodeChar c ≠ [] := by simp
  obtain ⟨b, tail, hbytes⟩ := List.exists_cons_of_ne_nil hne
  have hfirst := firstChar?_utf8EncodeChar c rest
  rw [hbytes, List.cons_append] at hfirst
  rw [hbytes, List.cons_append, decodeFrom, hfirst]
  exact decodeFrom_skip tail (some c :: done) rest

theorem decodeFrom_flatMap (s : List Char) (done : List (Option Char)) :
    decodeFrom 0 done (s.flatMap String.utf8EncodeChar) = done.reverse ++ s.map some := by
  induction s generalizing done with
  | nil => simp [decodeFrom]
  | cons c s ih =>
    rw [List.flatMap_cons, decodeFrom_utf8EncodeChar, ih]
    simp

theorem decodeUtf8_utf8Bytes (s : String) : decodeUtf8 (utf8Bytes s) = s.toList.map some := by
  rw [decodeUtf8, utf8Bytes_eq_flatMap, decodeFrom_flatMap]
  rfl

end RpcStubs.Text
