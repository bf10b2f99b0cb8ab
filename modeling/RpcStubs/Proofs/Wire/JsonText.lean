import Mathlib.Tactic.Common
import RpcStubs.Wire.Json

namespace RpcStubs.Wire.Json

def rendered (s : List Char) : RawText := (s.flatMap escape).map some

theorem rendered_cons (c : Char) (s : List Char) :
    rendered (c :: s) = (escape c).map some ++ rendered s := by
  simp [rendered]

theorem map_some_renderString (s : String) :
    (renderString s).toList.map some = some '"' :: (rendered s.toList ++ [some '"']) := by
  simp [renderString, rendered]

/-- The digits of a control character mean it. -/
theorem hexUnit?_hexByte {n : Nat} (h : n < 32) :
    ∃ a b, Text.hexByte n.toUInt8 = [a, b] ∧
      hexUnit? (some '0') (some '0') (some a) (some b) = some n := by
  have hall : ∀ n < 32, hexUnit? (some '0') (some '0')
      (some (Nat.digitChar (n.toUInt8.toNat / 16))) (some (Nat.digitChar (n.toUInt8.toNat % 16))) =
      some n := by decide
  exact ⟨_, _, rfl, hall n h⟩

theorem stringBody?_escape (c : Char) (done rest : RawText) :
    stringBody? done ((escape c).map some ++ rest) =
      stringBody? (((escape c).map some).reverse ++ done) rest := by
  unfold escape
  split_ifs with h₁ h₂ h₃ h₄ h₅ h₆ h₇ h₈
  · rfl
  · rfl
  · rfl
  · rfl
  · rfl
  · rfl
  · rfl
  · obtain ⟨a, b, hdigits, hunit⟩ := hexUnit?_hexByte h₈
    simp [hdigits, stringBody?, hunit]
  · simp [stringBody?, h₂, h₈]

theorem stringBody?_rendered (s : List Char) (done rest : RawText) :
    stringBody? done (rendered s ++ some '"' :: rest) =
      some (done.reverse ++ rendered s, rest) := by
  induction s generalizing done with
  | nil => simp [rendered, stringBody?]
  | cons c s ih =>
    rw [rendered_cons, List.append_assoc, stringBody?_escape, ih]
    simp

theorem text?_escape (c : Char) (rest : RawText) :
    text? ((escape c).map some ++ rest) = (text? rest).map (c :: ·) := by
  have hbind (x : Option (List Char)) : (x.bind fun t ↦ some (c :: t)) = x.map (c :: ·) := by
    cases x <;> rfl
  unfold escape
  split_ifs with h₁ h₂ h₃ h₄ h₅ h₆ h₇ h₈
  · subst h₁
    exact hbind _
  · subst h₂
    exact hbind _
  · subst h₃
    exact hbind _
  · subst h₄
    exact hbind _
  · subst h₅
    exact hbind _
  · subst h₆
    exact hbind _
  · subst h₇
    exact hbind _
  · -- a control character is far from the surrogates
    obtain ⟨a, b, hdigits, hunit⟩ := hexUnit?_hexByte h₈
    have hhigh : ¬(0xD800 ≤ c.toNat ∧ c.toNat < 0xDC00) := by omega
    have hlow : ¬(0xDC00 ≤ c.toNat ∧ c.toNat < 0xE000) := by omega
    simpa [hdigits, text?, hunit, hhigh, hlow] using hbind (text? rest)
  · simpa [text?, h₂] using hbind (text? rest)

theorem rawString?_rendered (s : String) : rawString? (rendered s.toList) = some s := by
  have htext (t : List Char) : text? (rendered t) = some t := by
    induction t with
    | nil => rfl
    | cons c t ih => rw [rendered_cons, text?_escape, ih, Option.map_some]
  rw [rawString?, htext, Option.map_some, String.ofList_toList]

/-- With fuel for `n` steps the text is read as the value, whatever follows it. -/
def Reads (n : Nat) (text : List Char) (value : Json) : Prop :=
  ∀ fuel rest, n ≤ fuel → value? fuel (text.map some ++ rest) = some (value, rest)

theorem Reads.mono {m n : Nat} {text : List Char} {value : Json} (h : Reads m text value)
    (hmn : m ≤ n) : Reads n text value :=
  fun fuel rest hfuel ↦ h fuel rest (Nat.le_trans hmn hfuel)

theorem reads_string (s : String) :
    Reads 1 (renderString s).toList (.string (rendered s.toList)) := by
  intro fuel rest hfuel
  obtain ⟨fuel, rfl⟩ := Nat.exists_eq_add_of_le' hfuel
  have hskip (t : RawText) : skipSpace (some '"' :: t) = some '"' :: t := rfl
  rw [map_some_renderString, List.cons_append, List.append_assoc, value?, hskip]
  simp [stringBody?_rendered]

structure Field where
  key : String
  text : List Char
  value : Json

namespace Field

def render (f : Field) : List Char := (renderString f.key).toList ++ ':' :: f.text

def entry (f : Field) : RawText × Json := (rendered f.key.toList, f.value)

end Field

def fieldTexts (fs : List Field) : List Char := List.intercalate [','] (fs.map Field.render)

/-- A field is read with its key and its value, and what follows it decides how it goes on. -/
theorem fields?_render {n fuel : Nat} {f : Field} (h : Reads n f.text f.value) (hfuel : n ≤ fuel)
    (t : RawText) :
    fields? (fuel + 1) (f.render.map some ++ t) =
      match skipSpace t with
      | some ',' :: rest =>
        (fields? fuel rest).map fun (fields, rest) ↦ (f.entry :: fields, rest)
      | some '\x7d' :: rest => some ([f.entry], rest)
      | _ => none := by
  have hquote (t : RawText) : skipSpace (some '"' :: t) = some '"' :: t := rfl
  have hcolon (t : RawText) : skipSpace (some ':' :: t) = some ':' :: t := rfl
  rw [Field.render, List.map_append, map_some_renderString, List.cons_append, List.cons_append,
    List.append_assoc, List.append_assoc, fields?, hquote]
  simp only [List.map_cons, List.cons_append, List.nil_append]
  rw [stringBody?_rendered]
  simp only [hcolon, List.reverse_nil, List.nil_append]
  rw [h fuel t hfuel]
  rfl

theorem fields?_fieldTexts {n : Nat} {f : Field} {fs : List Field}
    (h : ∀ g ∈ f :: fs, Reads n g.text g.value) {fuel : Nat} (hfuel : n + fs.length < fuel)
    (rest : RawText) :
    fields? fuel ((fieldTexts (f :: fs)).map some ++ some '\x7d' :: rest) =
      some ((f :: fs).map Field.entry, rest) := by
  induction fs generalizing f fuel with
  | nil =>
    cases fuel with
    | zero => omega
    | succ fuel =>
      have htexts : fieldTexts [f] = f.render := by simp [fieldTexts]
      rw [htexts, fields?_render (h f List.mem_cons_self) (by omega)]
      rfl
  | cons g fs ih =>
    rw [List.length_cons] at hfuel
    cases fuel with
    | zero => omega
    | succ fuel =>
      have htexts : (fieldTexts (f :: g :: fs)).map some ++ some '\x7d' :: rest =
          f.render.map some ++
            some ',' :: ((fieldTexts (g :: fs)).map some ++ some '\x7d' :: rest) := by
        simp [fieldTexts]
      have hcomma (t : RawText) : skipSpace (some ',' :: t) = some ',' :: t := rfl
      have hbound : n + fs.length < fuel := by omega
      have hrest := ih (fun g' hg' ↦ h g' (List.mem_cons_of_mem f hg')) hbound
      rw [htexts, fields?_render (h f List.mem_cons_self) (by omega), hcomma]
      simp only [hrest, Option.map_some, List.map_cons]

theorem length_le_fieldTexts (fs : List Field) : fs.length ≤ (fieldTexts fs).length := by
  have hrender (f : Field) : 1 ≤ f.render.length := by simp [Field.render, renderString]
  induction fs with
  | nil => simp
  | cons f fs ih =>
    have hf := hrender f
    cases fs with
    | nil => simpa [fieldTexts] using hf
    | cons g fs =>
      rw [fieldTexts, List.map_cons, List.map_cons, List.intercalate_cons_cons, List.length_append,
        List.length_append, ← List.map_cons, ← fieldTexts, List.length_cons]
      simp only [List.length_cons, List.length_nil] at ih ⊢
      omega

theorem exists_fieldTexts_cons (f : Field) (fs : List Field) :
    ∃ t, fieldTexts (f :: fs) = '"' :: t := by
  cases fs <;> simp [fieldTexts, Field.render, renderString]

theorem reads_object {n : Nat} {fs : List Field} (h : ∀ f ∈ fs, Reads n f.text f.value) :
    Reads (n + fs.length + 1) ('\x7b' :: (fieldTexts fs ++ ['\x7d']))
      (.object (fs.map Field.entry)) := by
  intro fuel rest hfuel
  have hbrace (t : RawText) : skipSpace (some '\x7b' :: t) = some '\x7b' :: t := rfl
  cases fuel with
  | zero => omega
  | succ fuel =>
    rw [List.map_cons, List.cons_append, value?, hbrace]
    cases fs with
    | nil => rfl
    | cons f fs =>
      rw [List.length_cons] at hfuel
      have hbound : n + fs.length < fuel := by omega
      have hfields := fields?_fieldTexts h hbound rest
      -- the quote of the first key shows that the object is not empty
      obtain ⟨t, ht⟩ := exists_fieldTexts_cons f fs
      have hquote (t : RawText) : skipSpace (some '"' :: t) = some '"' :: t := rfl
      rw [ht, List.map_cons, List.cons_append] at hfields
      simp only [ht, List.cons_append, List.append_assoc, List.map_cons, List.map_append,
        List.map_nil, List.nil_append, hquote]
      exact congrArg (Option.map fun p ↦ (object p.1, p.2)) hfields

/-- A text that is read with fuel below its length is a whole document. -/
theorem Reads.parse? {n : Nat} {text : List Char} {value : Json} (h : Reads n text value)
    (hn : n ≤ 2 * text.length + 2) : parse? (text.map some) = some value := by
  have hvalue := h (2 * text.length + 2) [] hn
  rw [List.append_nil] at hvalue
  simp only [Json.parse?, List.length_map, hvalue]
  rfl

end RpcStubs.Wire.Json
