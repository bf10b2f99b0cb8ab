import RpcStubs.Proofs.Stub.ServerNames

namespace RpcStubs.Stub

open Layout

theorem toList_goQuoted (v : String) :
    (goQuoted v).toList = '"' :: (v.toList.flatMap quoteChar ++ ['"']) := by
  simp [goQuoted]

/-- Every quote and every backslash between the quotes belongs to an escape. -/
theorem literalBody_quoted (s : List Char) : LiteralBody '"' (s.flatMap quoteChar) := by
  rw [List.flatMap_def]
  refine literalBody_flatten fun u hu ↦ ?_
  obtain ⟨c, -, rfl⟩ := List.mem_map.1 hu
  exact literalUnit_quoteChar c

theorem segment_goQuoted (v : String) (rest : List Char) :
    Segment .str (goQuoted v).toList rest := by
  rw [toList_goQuoted]
  exact .str (literalBody_quoted v.toList)

theorem marked_goQuoted (v : String) (next : Option Char) :
    Marked next (.inside .code) ((goQuoted v).toList.map (·, .str)) (.inside .code) := by
  rw [toList_goQuoted]
  exact .cons rfl (marked_literalBody (.inl rfl) (literalBody_quoted v.toList) next)

/-- A text that starts with the literal is cut behind it. -/
theorem segments_goQuoted_append_iff (v : String) (rest : List Char)
    (segs : List (Region × List Char)) :
    Segments ((goQuoted v).toList ++ rest) segs ↔
      ∃ more, segs = (.str, (goQuoted v).toList) :: more ∧ Segments rest more := by
  constructor
  · intro h
    generalize htext : (goQuoted v).toList ++ rest = text at h
    cases h with
    | nil => simp [toList_goQuoted] at htext
    | @cons r piece rest' more hpiece hmore =>
      obtain ⟨rfl, rfl⟩ := (segment_goQuoted v rest).unique hpiece htext
      obtain rfl : rest = rest' := List.append_cancel_left htext
      exact ⟨more, rfl, hmore⟩
  · rintro ⟨more, rfl, hmore⟩
    exact .cons (segment_goQuoted v rest) hmore

/-- Code goes on behind a literal that stands in code. -/
theorem marked_append_goQuoted (v : String) {before : List Glyph}
    (hbefore : Marked (some '"') (.inside .code) before (.inside .code)) (next : Option Char) :
    Marked next (.inside .code) (before ++ (goQuoted v).toList.map (·, .str)) (.inside .code) := by
  refine Marked.append ?_ (marked_goQuoted v next)
  rw [toList_goQuoted]
  exact hbefore

/-- Between code and further text, the literal changes the regions of neither. -/
theorem mark_around_goQuoted_iff (v : String) {before : List Glyph}
    (hbefore : Marked (some '"') (.inside .code) before (.inside .code)) (after : List Char)
    (gs : List Glyph) :
    mark (glyphText before ++ (goQuoted v).toList ++ after) = .ok gs ↔
      ∃ ga, mark after = .ok ga ∧ gs = before ++ (goQuoted v).toList.map (·, .str) ++ ga := by
  constructor
  · intro h
    obtain ⟨htext, q, hmarked, hq⟩ := mark_eq_ok_iff.1 h
    obtain ⟨gb, ga, rfl, htb, rfl⟩ := exists_of_glyphText_eq_append htext
    obtain ⟨m, hb, ha⟩ := marked_append.1 hmarked
    -- a text has one marking at most, and this one is known up to the end of the literal
    obtain ⟨rfl, rfl⟩ := hb.unique (marked_append_goQuoted v hbefore _)
      (by rw [htb, glyphText_append, glyphText_map_pair])
    exact ⟨ga, mark_eq_ok_iff.2 ⟨rfl, q, ha, hq⟩, rfl⟩
  · rintro ⟨ga, hafter, rfl⟩
    obtain ⟨rfl, q, ha, hq⟩ := mark_eq_ok_iff.1 hafter
    exact mark_eq_ok_iff.2 ⟨by simp [glyphText_map_pair], q,
      (marked_append_goQuoted v hbefore _).append ha, hq⟩

theorem mark_goQuoted (v : String) :
    mark (goQuoted v).toList = .ok ((goQuoted v).toList.map (·, .str)) :=
  mark_eq_ok_iff.2 ⟨glyphText_map_pair _ _, .code, marked_goQuoted v none, rfl⟩

/-- Quoted text is exactly one string literal, on one line, wherever it stands in code; it reads
back as the text, so different texts have different literals. -/
theorem goQuoted_confined (v : String) :
    mark (goQuoted v).toList = .ok ((goQuoted v).toList.map (·, .str)) ∧
    (∀ rest segs, Segments ((goQuoted v).toList ++ rest) segs ↔
      ∃ more, segs = (.str, (goQuoted v).toList) :: more ∧ Segments rest more) ∧
    (∀ before after gs, Marked (some '"') (.inside .code) before (.inside .code) →
      (mark (glyphText before ++ (goQuoted v).toList ++ after) = .ok gs ↔
        ∃ ga, mark after = .ok ga ∧
          gs = before ++ (goQuoted v).toList.map (·, .str) ++ ga)) ∧
    '\n' ∉ (goQuoted v).toList ∧
    goUnquoted? (goQuoted v) = some v ∧ Function.Injective goQuoted :=
  ⟨mark_goQuoted v, segments_goQuoted_append_iff v,
    fun _ after gs hbefore ↦ mark_around_goQuoted_iff v hbefore after gs,
    (flat_goQuoted v).single, goUnquoted?_goQuoted v, fun _ _ ↦ ServerStub.goQuoted_inj⟩

def breakout : String := "\\\"//\n"

/-- The blanks and the word in front of it and the call behind it keep their regions. -/
theorem goQuoted_confined_breakout :
    mark ("x := ".toList ++ (goQuoted breakout).toList ++ " + f()".toList) =
      .ok ("x := ".toList.map (·, .code) ++ (goQuoted breakout).toList.map (·, .str) ++
        " + f()".toList.map (·, .code)) := by
  have hbefore : Marked (some '"') (.inside .code) ("x := ".toList.map (·, .code))
      (.inside .code) := marked_plain (by decide)
  have hafter : mark " + f()".toList = .ok (" + f()".toList.map (·, .code)) := by decide
  have hmark := (goQuoted_confined breakout).2.2.1 _ " + f()".toList
    ("x := ".toList.map (·, .code) ++ (goQuoted breakout).toList.map (·, .str) ++
      " + f()".toList.map (·, .code)) hbefore
  rw [glyphText_map_pair] at hmark
  exact hmark.2 ⟨_, hafter, rfl⟩

end RpcStubs.Stub
