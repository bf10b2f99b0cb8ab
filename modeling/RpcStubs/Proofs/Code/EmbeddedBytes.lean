import RpcStubs.Proofs.Code.Declarations
import RpcStubs.Proofs.Code.OutlineLayout

namespace RpcStubs

open Text Layout

theorem Row.read_byteTexts {row : List UInt8} (hne : row ≠ []) (frames : List Frame) :
    Row.Read frames ⟨frames.length, byteTexts row, none⟩ frames := by
  have hhead := head?_byteTexts hne
  have htight := tight_of_ends hhead (by decide) (getLast?_byteTexts hne) (by decide)
  exact Row.read_flat (flat_byteTexts row) (tame_byteTexts hne) htight hhead (by decide) (by decide)
    fun after ↦ (columnless_of_head hhead (by decide) htight).cells?_eq_none

namespace Var

def byteRows (name : String) (data : List UInt8) : List Row :=
  if data.isEmpty then [⟨0, "var " ++ name ++ " = []byte\x7b\x7d", none⟩]
  else ⟨0, "var " ++ name ++ " = []byte\x7b", none⟩ ::
    ((chunks bytesPerLine data).map (⟨1, byteTexts ·, none⟩) ++ [⟨0, "\x7d", none⟩])

theorem intercalate_byteRows (name : String) {data : List UInt8} (h : data ≠ [])
    (line : Row → List Char) :
    List.intercalate ['\n'] ((byteRows name data).map line) =
      line ⟨0, "var " ++ name ++ " = []byte\x7b", none⟩ ++
        '\n' :: (joinLines ((chunks bytesPerLine data).map (line ⟨1, byteTexts ·, none⟩)) ++
          line ⟨0, "\x7d", none⟩) := by
  rw [byteRows, if_neg (by simpa using h), List.map_cons, List.map_append, List.map_singleton,
    ← List.cons_append, intercalate_snoc, joinLines_cons, List.map_map, List.append_assoc,
    List.cons_append]
  rfl

theorem source_eq_rows (name : Identifier) (data : List UInt8) :
    (Var.mk name none (byteLiteral data) {}).source =
      "\n".intercalate ((byteRows name.name data).map Row.text) := by
  have habove : Comment.above {} = "" := rfl
  rw [source_bytes rfl rfl, habove, String.empty_append, ← String.toList_inj]
  by_cases hempty : data = []
  · subst hempty
    simp [byteRows, entryLines, chunks, chunksFrom]
  · have hne : (chunks bytesPerLine data).map byteTexts ≠ [] := by simpa using chunks_ne_nil hempty
    have hrows := intercalate_byteRows name.name hempty (·.text.toList)
    have hopen : "var " ++ name.name ++ " = []byte" ++ "\x7b" =
        "var " ++ name.name ++ " = []byte\x7b" := by
      rw [← String.toList_inj]
      simp
    rw [String.toList_append, toList_entryLines hne, String.toList_intercalate, List.map_map,
      List.flatMap_map, hopen]
    refine .trans ?_ hrows.symm
    rw [joinLines, List.flatMap_map]
    rfl

theorem read_emptyLiteral {name : String} (h : identifierFault? name = none) :
    Row.Read [] ⟨0, "var " ++ name ++ " = []byte\x7b\x7d", none⟩ [] := by
  have hsplit : "var " ++ name ++ " = []byte\x7b\x7d" =
      ("var " ++ name ++ " = []byte") ++ "\x7b\x7d" := by
    rw [← String.toList_inj]
    simp
  have hhead : (("var " ++ name ++ " = []byte") ++ "\x7b\x7d").toList.head? = some 'v' := by simp
  have hlast : (("var " ++ name ++ " = []byte") ++ "\x7b\x7d").toList.getLast? = some '\x7d' := by
    rw [String.toList_append, List.getLast?_append]
    rfl
  have htop : Below [] false := ⟨by simp [enclosingOpener], by simp [enclosingOpener]⟩
  rw [hsplit]
  refine Row.read_flat ?_ ?_ (tight_of_ends hhead (by decide) hlast (by decide)) hhead (by decide)
    (by decide) (htop.cells?_eq_none _)
  · rw [String.toList_append]
    exact (flat_bytesHead h).append (flat_ofList (by decide))
  · rw [String.toList_append]
    exact leads_bytesHead name _

theorem runs_byteTexts (f : Frame) {groups : List (List UInt8)} (h : ∀ row ∈ groups, row ≠ []) :
    Runs [f] (groups.map (⟨1, byteTexts ·, none⟩)) true [f] := by
  induction groups with
  | nil => exact .done _
  | cons row groups ih =>
    exact .row (Row.read_byteTexts (h row List.mem_cons_self) [f])
      (ih fun g hg ↦ h g (List.mem_cons_of_mem row hg))

theorem runs_byteRows {name : String} (h : identifierFault? name = none) (data : List UInt8) :
    Runs [] (byteRows name data) true [] := by
  unfold byteRows
  split_ifs
  · exact (read_emptyLiteral h).runs
  · have hhead : ("var " ++ name ++ " = []byte").toList.head? = some 'v' := by simp
    have hlast : ("var " ++ name ++ " = []byte").toList.getLast? = some 'e' := by
      rw [String.toList_append, List.getLast?_append]
      rfl
    have hopen := Row.read_open (flat_bytesHead h) (leads_bytesHead name) hhead (by decide) []
    rw [of_eq_literal hhead (by decide) hlast (by decide) (by decide)] at hopen
    have hsplit : "var " ++ name ++ " = []byte\x7b" = "var " ++ name ++ " = []byte" ++ "\x7b" := by
      rw [← String.toList_inj]
      simp
    have hgroups (row : List UInt8) (hrow : row ∈ chunks bytesPerLine data) : row ≠ [] :=
      List.ne_nil_of_length_pos (length_of_mem_chunks (by decide) hrow).1
    have hrows := runs_byteTexts ⟨'\x7b', .literal⟩ hgroups
    rw [hsplit]
    exact .row hopen (hrows.append (Row.read_close .literal []).runs)

theorem field?_of_mem_byteRows {name : String} {data : List UInt8} {r : Row}
    (h : r ∈ byteRows name data) : r.field? = none := by
  unfold byteRows at h
  split_ifs at h
  · obtain rfl := List.mem_singleton.1 h
    rfl
  · simp only [List.mem_cons, List.mem_append, List.mem_map, List.not_mem_nil, or_false] at h
    rcases h with rfl | ⟨row, -, rfl⟩ | rfl <;> rfl

theorem render_bytes (name : Identifier) (data : List UInt8) :
    (Var.mk name none (byteLiteral data) {}).render = .ok (rowText (byteRows name.name data)) := by
  have hne : byteRows name.name data ≠ [] := by
    unfold byteRows
    split_ifs <;> exact List.cons_ne_nil _ _
  have hlevel : (byteRows name.name data).IsChain Row.Level := by
    refine (List.pairwise_of_forall_mem_list fun r hr s _ w hw ↦ ?_).isChain
    rw [field?_of_mem_byteRows hr] at hw
    cases hw
  obtain ⟨-, text, htext, hrows⟩ | ⟨hfalse, -⟩ :=
    (runs_byteRows name.legal data).finish_cases hne builder
  · rw [render, source_eq_rows, htext, hrows.2 hlevel]
  · cases hfalse

def readToken? : List Char → Option UInt8
  | ['0', 'x', high, low, ','] => do
    return (16 * (← hexValue? high) + (← hexValue? low)).toUInt8
  | _ => none

def readTokens? (s : List Char) : Option (List UInt8) := (words s).mapM readToken?

def betweenBraces? (s : List Char) : Option (List Char) := do
  let (_, opened) ← cutFirst '\x7b' s
  let (inner, _) ← cutLast '\x7d' opened
  return inner

/-- The bytes between the braces. -/
def readLiteral? (text : String) : Option (List UInt8) := do
  readTokens? (← betweenBraces? text.toList)

/-- The bytes of each line between the line of the opening brace and that of the closing one. -/
def readRows? (text : String) : Option (List (List UInt8)) :=
  ((pieces '\n' text.toList).tail.dropLast).mapM readTokens?

theorem hexValue?_digitChar {n : Nat} (h : n < 16) : hexValue? (Nat.digitChar n) = some n := by
  have hall : ∀ n < 16, hexValue? (Nat.digitChar n) = some n := by decide
  exact hall n h

theorem readToken?_byteToken (b : UInt8) : readToken? (byteToken b).toList = some b := by
  have hb : b.toNat < 256 := b.toNat_lt
  have hvalue : 16 * (b.toNat / 16) + b.toNat % 16 = b.toNat := Nat.div_add_mod _ _
  rw [toList_byteToken]
  change (do return (16 * (← hexValue? (Nat.digitChar (b.toNat / 16))) +
    (← hexValue? (Nat.digitChar (b.toNat % 16)))).toUInt8) = some b
  rw [hexValue?_digitChar (by omega), hexValue?_digitChar (by omega)]
  change some (16 * (b.toNat / 16) + b.toNat % 16).toUInt8 = some b
  rw [hvalue]
  exact congrArg some UInt8.ofNat_toNat

theorem mapM_map_eq_some {α β : Type} {f : α → β} {g : β → Option α} (h : ∀ a, g (f a) = some a)
    (l : List α) : (l.map f).mapM g = some l := by
  induction l with
  | nil => rfl
  | cons a l ih => simp [h a, ih]

theorem isBlank_of_mem_byteToken {b : UInt8} {c : Char} (h : c ∈ (byteToken b).toList) :
    isBlank c = false := by
  have hdigit : ∀ n < 16, isBlank (Nat.digitChar n) = false := by decide
  have hb : b.toNat < 256 := b.toNat_lt
  simp only [toList_byteToken, hexByte, List.mem_cons, List.cons_append, List.nil_append,
    List.not_mem_nil, or_false] at h
  rcases h with rfl | rfl | rfl | rfl | rfl
  · decide
  · decide
  · exact hdigit _ (by omega)
  · exact hdigit _ (by omega)
  · decide

theorem words_byteTexts (row : List UInt8) :
    words (byteTexts row).toList = row.map fun b ↦ (byteToken b).toList := by
  have htokens : (row.map byteToken).map String.toList = row.map fun b ↦ (byteToken b).toList := by
    rw [List.map_map]
    rfl
  rw [byteTexts, String.toList_intercalate, htokens]
  refine words_intercalate (fun hnil ↦ ?_) fun w hw c hc ↦ ?_
  · obtain ⟨b, -, hb⟩ := List.mem_map.1 hnil
    rw [toList_byteToken] at hb
    cases hb
  · obtain ⟨b, -, rfl⟩ := List.mem_map.1 hw
    exact isBlank_of_mem_byteToken hc

theorem readTokens?_of_words {s : List Char} {row : List UInt8}
    (h : words s = row.map fun b ↦ (byteToken b).toList) : readTokens? s = some row := by
  rw [readTokens?, h, mapM_map_eq_some readToken?_byteToken]

theorem words_joinLines (ts : List (List Char)) : words (joinLines ts) = ts.flatMap words := by
  induction ts with
  | nil => rfl
  | cons t ts ih => rw [joinLines_cons, words_append t (by decide), ih, List.flatMap_cons]

theorem betweenBraces?_eq {before : List Char} (h : '\x7b' ∉ before) (inner : List Char) :
    betweenBraces? (before ++ '\x7b' :: (inner ++ ['\x7d'])) = some inner := by
  have hopened : cutFirst '\x7b' (before ++ '\x7b' :: (inner ++ ['\x7d'])) =
      some (before, inner ++ ['\x7d']) := cutFirst_eq_some_iff.2 ⟨rfl, h⟩
  have hinner : cutLast '\x7d' (inner ++ ['\x7d']) = some (inner, []) := by
    simp [cutLast, cutFirst]
  rw [betweenBraces?, hopened]
  change (do let (inner, _) ← cutLast '\x7d' (inner ++ ['\x7d']); return inner) = some inner
  rw [hinner]
  rfl

theorem brace_not_mem_bytesHead {name : String} (h : identifierFault? name = none) :
    '\x7b' ∉ ("var " ++ name ++ " = []byte").toList := by
  have hname := not_mem_of_isWord (isWord_of_legal h) (c := '\x7b') (by decide)
  simp [hname]

theorem toList_rowText (name : String) {data : List UInt8} (h : data ≠ []) :
    (rowText (byteRows name data)).toList = ("var " ++ name ++ " = []byte").toList ++
      '\x7b' :: (('\n' :: joinLines ((chunks bytesPerLine data).map fun row ↦
        '\t' :: (byteTexts row).toList)) ++ ['\x7d']) := by
  rw [rowText, String.toList_ofList, intercalate_byteRows name h Row.line]
  simp [Row.line]

theorem toList_rowText_nil (name : String) :
    (rowText (byteRows name [])).toList =
      ("var " ++ name ++ " = []byte").toList ++ "\x7b\x7d".toList := by
  simp [rowText, byteRows, Row.line]

theorem readLiteral?_rowText {name : String} (h : identifierFault? name = none)
    (data : List UInt8) : readLiteral? (rowText (byteRows name data)) = some data := by
  by_cases hempty : data = []
  · subst hempty
    have hbetween : betweenBraces? (("var " ++ name ++ " = []byte").toList ++ "\x7b\x7d".toList) =
        some [] := betweenBraces?_eq (brace_not_mem_bytesHead h) []
    rw [readLiteral?, toList_rowText_nil]
    exact (congrArg (·.bind readTokens?) hbetween :)
  · rw [readLiteral?, toList_rowText name hempty, betweenBraces?_eq (brace_not_mem_bytesHead h)]
    refine readTokens?_of_words ?_
    calc words ('\n' :: joinLines ((chunks bytesPerLine data).map fun row ↦
          '\t' :: (byteTexts row).toList))
        = (chunks bytesPerLine data).flatMap fun row ↦ words ('\t' :: (byteTexts row).toList) := by
          rw [words_blank (by decide), words_joinLines, List.flatMap_map]
      _ = (chunks bytesPerLine data).flatMap fun row ↦ row.map fun b ↦ (byteToken b).toList := by
          simp only [words_blank (by decide : isBlank '\t' = true), words_byteTexts]
      _ = data.map fun b ↦ (byteToken b).toList := by
          rw [List.flatMap_def, ← List.map_flatten, flatten_chunks]

theorem single_of_mem_byteRows {name : String} (h : identifierFault? name = none)
    {data : List UInt8} {r : Row} (hr : r ∈ byteRows name data) : '\n' ∉ r.line := by
  have hname := (flat_of_legal h).single
  have htexts (row : List UInt8) : '\n' ∉ (byteTexts row).toList := (flat_byteTexts row).single
  unfold byteRows at hr
  split_ifs at hr
  · obtain rfl := List.mem_singleton.1 hr
    simp [Row.line, hname]
  · simp only [List.mem_cons, List.mem_append, List.mem_map, List.not_mem_nil, or_false] at hr
    rcases hr with rfl | ⟨row, -, rfl⟩ | rfl
    · simp [Row.line, hname]
    · simp [Row.line, htexts row]
    · decide

theorem readRows?_rowText {name : String} (h : identifierFault? name = none) (data : List UInt8) :
    readRows? (rowText (byteRows name data)) = some (chunks bytesPerLine data) := by
  have hpieces : pieces '\n' (rowText (byteRows name data)).toList =
      (byteRows name data).map Row.line := by
    rw [rowText, String.toList_ofList, pieces_intercalate]
    · unfold byteRows
      split_ifs <;> simp
    · intro t ht
      obtain ⟨r, hr, rfl⟩ := List.mem_map.1 ht
      exact single_of_mem_byteRows h hr
  have hline (row : List UInt8) : readTokens? (Row.line ⟨1, byteTexts row, none⟩) = some row :=
    readTokens?_of_words ((words_blank (by decide) _).trans (words_byteTexts row))
  rw [readRows?, hpieces, byteRows]
  split_ifs with hempty
  · rw [List.isEmpty_iff.1 hempty]
    rfl
  · rw [List.map_cons, List.tail_cons, List.map_append, List.map_singleton, List.dropLast_concat,
      List.map_map]
    exact mapM_map_eq_some hline _

/-- The laid out text of a variable that holds bytes reads back as the bytes, sixteen to a line. -/
theorem bytes_readBack (name : Identifier) (data : List UInt8) :
    ∃ v text, bytes name.name data = .ok v ∧ v.render = .ok text ∧
      readLiteral? text = some data ∧
      (data = [] ↔ '\n' ∉ text.toList) ∧
      ∃ rows, readRows? text = some rows ∧ rows.flatten = data ∧
        (∀ row ∈ rows, 0 < row.length ∧ row.length ≤ 16) ∧
        ∀ row ∈ rows.dropLast, row.length = 16 := by
  refine ⟨_, _, bytes_eq_ok name data, render_bytes name data,
    readLiteral?_rowText name.legal data, ⟨?_, ?_⟩, _, readRows?_rowText name.legal data,
    flatten_chunks _ data, fun _ ↦ length_of_mem_chunks (by decide),
    fun _ ↦ length_of_mem_dropLast_chunks (by decide)⟩
  · rintro rfl
    rw [toList_rowText_nil]
    have hname := (flat_of_legal name.legal).single
    simp [hname]
  · intro hsingle
    by_contra hne
    rw [toList_rowText name.name hne] at hsingle
    simp at hsingle

end Var

end RpcStubs
