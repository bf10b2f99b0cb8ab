import RpcStubs.Proofs.Text.Utf8
import RpcStubs.Proofs.Wire.JsonText
import RpcStubs.Wire.ErrorBody

namespace RpcStubs.Wire

open Json

namespace ErrorBody

def detailField (entry : String × String) : Json.Field :=
  ⟨entry.1, (renderString entry.2).toList, .string (rendered entry.2.toList)⟩

def metaText (details : OrderedMap String String) : List Char :=
  '\x7b' :: (fieldTexts (details.entries.map detailField) ++ ['\x7d'])

def metaFields (details : OrderedMap String String) : List Json.Field :=
  if details.isEmpty then []
  else [⟨"meta", metaText details, .object (details.entries.map fun e ↦ (detailField e).entry)⟩]

def jsonFields (b : ErrorBody) : List Json.Field :=
  ⟨"code", (renderString b.code.word).toList, .string (rendered b.code.word.toList)⟩ ::
  ⟨"msg", (renderString b.msg).toList, .string (rendered b.msg.toList)⟩ :: metaFields b.details

theorem toList_toJson (b : ErrorBody) :
    b.toJson.toList = '\x7b' :: (fieldTexts b.jsonFields ++ ['\x7d']) := by
  have hdetails : (",".intercalate (b.details.map renderDetail)).toList =
      fieldTexts (b.details.entries.map detailField) := by
    have hcomma : ",".toList = [','] := rfl
    rw [String.toList_intercalate, hcomma, fieldTexts, OrderedMap.map, List.map_map, List.map_map]
    refine congrArg _ (List.map_congr_left fun e _ ↦ ?_)
    simp [renderDetail, Field.render, detailField]
  have hcode : "\x7b\"code\":".toList = '\x7b' :: ((renderString "code").toList ++ [':']) := by
    decide
  have hmsg : ",\"msg\":".toList = ',' :: ((renderString "msg").toList ++ [':']) := by decide
  have hmeta : ",\"meta\":\x7b".toList =
      ',' :: ((renderString "meta").toList ++ [':', '\x7b']) := by decide
  cases hd : b.details.isEmpty with
  | true => simp [toJson, hd, jsonFields, metaFields, fieldTexts, Field.render, hcode, hmsg]
  | false =>
    simp [toJson, hd, jsonFields, metaFields, fieldTexts, Field.render, hcode, hmsg, hmeta,
      metaText, hdetails]

theorem reads_toJson (b : ErrorBody) :
    Reads (b.details.entries.length + 6) b.toJson.toList
      (.object (b.jsonFields.map Field.entry)) := by
  have hmeta : Reads (1 + (b.details.entries.map detailField).length + 1) (metaText b.details)
      (.object ((b.details.entries.map detailField).map Field.entry)) := by
    refine reads_object fun f hf ↦ ?_
    obtain ⟨e, -, rfl⟩ := List.mem_map.1 hf
    simp only [detailField]
    exact reads_string e.2
  have hfields : ∀ f ∈ b.jsonFields, Reads (b.details.entries.length + 2) f.text f.value := by
    rw [List.length_map, List.map_map] at hmeta
    simp only [jsonFields, List.forall_mem_cons]
    refine ⟨(reads_string b.code.word).mono ?_, (reads_string b.msg).mono ?_, fun f hf ↦ ?_⟩
    · omega
    · omega
    · unfold metaFields at hf
      split_ifs at hf
      · cases hf
      · obtain rfl := List.mem_singleton.1 hf
        exact hmeta.mono (by omega)
  have hlength : b.jsonFields.length ≤ 3 := by
    unfold jsonFields metaFields
    split_ifs <;> simp
  rw [toList_toJson]
  exact (reads_object hfields).mono (by omega)

theorem length_details_le (b : ErrorBody) :
    b.details.entries.length + 4 ≤ b.toJson.toList.length := by
  have hdetails := length_le_fieldTexts (b.details.entries.map detailField)
  rw [List.length_map] at hdetails
  rw [toList_toJson]
  simp only [jsonFields, metaFields]
  split_ifs with h
  · rw [OrderedMap.isEmpty, List.isEmpty_iff] at h
    rw [h]
    simp [fieldTexts, Field.render, renderString]
    omega
  · simp [fieldTexts, Field.render, renderString, metaText] at hdetails ⊢
    omega

theorem parse?_toJson (b : ErrorBody) :
    parse? (b.toJson.toList.map some) = some (.object (b.jsonFields.map Field.entry)) := by
  have hlength := length_details_le b
  exact (reads_toJson b).parse? (by omega)

theorem detailsFrom?_entries {done : OrderedMap String String} {entries : List (String × String)}
    (h : (done.entries ++ entries).Pairwise fun a b ↦ compare a.1 b.1 = .lt) :
    detailsFrom? done (entries.map fun e ↦ (detailField e).entry) =
      some ⟨done.entries ++ entries, h⟩ := by
  induction entries generalizing done with
  | nil => simp [detailsFrom?]
  | cons e entries ih =>
    have hlast : ∀ d ∈ done.entries, compare d.1 e.1 = .lt := fun d hd ↦
      (List.pairwise_append.1 h).2.2 d hd e List.mem_cons_self
    have hput : (done.insert e.1 e.2).entries = done.entries ++ [e] :=
      OrderedMap.insertInto_of_forall_lt hlast
    have hall : ((done.insert e.1 e.2).entries ++ entries).Pairwise
        fun a b ↦ compare a.1 b.1 = .lt := by
      rw [hput]
      simpa using h
    have hrest := ih hall
    simp only [hput, List.append_assoc, List.singleton_append] at hrest
    simp only [List.map_cons, detailsFrom?, detailField, Field.entry] at hrest ⊢
    simp [rawString?_rendered, string?, hrest]

theorem ofWord?_word (code : ErrorCode) : ErrorCode.ofWord? code.word = some code := by
  cases code <;> decide

section Fields

variable {f : Fields}

theorem fieldsFrom?_code (rest : List (RawText × Json)) (code : ErrorCode) (hf : f.code = none) :
    fieldsFrom? f ((rendered "code".toList, .string (rendered code.word.toList)) :: rest) =
      fieldsFrom? { f with code := some code } rest := by
  rw [fieldsFrom?, rawString?_rendered]
  simp [hf, codeOf?, rawString?_rendered, ofWord?_word]

theorem fieldsFrom?_msg (rest : List (RawText × Json)) (msg : String) (hf : f.msg = none) :
    fieldsFrom? f ((rendered "msg".toList, .string (rendered msg.toList)) :: rest) =
      fieldsFrom? { f with msg := some msg } rest := by
  rw [fieldsFrom?, rawString?_rendered]
  simp [hf, string?, rawString?_rendered]

/-- Metadata that is left out reads as none. -/
theorem fieldsFrom?_metaFields (details : OrderedMap String String) (hf : f.details = none) :
    ∃ d, fieldsFrom? f ((metaFields details).map Field.entry) = some { f with details := d } ∧
      d.getD [] = details := by
  unfold metaFields
  cases hd : details.isEmpty with
  | true =>
    refine ⟨none, ?_, (OrderedMap.eq_empty hd).symm⟩
    obtain ⟨code, msg, d⟩ := f
    obtain rfl : d = none := hf
    rfl
  | false =>
    have hall : ((∅ : OrderedMap String String).entries ++ details.entries).Pairwise
        fun a b ↦ compare a.1 b.1 = .lt := details.ascending
    have hdetails : detailsFrom? [] (details.entries.map fun e ↦ (detailField e).entry) =
        some details := detailsFrom?_entries hall
    refine ⟨some details, ?_, rfl⟩
    change fieldsFrom? f [(rendered "meta".toList,
      .object (details.entries.map fun e ↦ (detailField e).entry))] = _
    rw [fieldsFrom?, rawString?_rendered]
    simp [hf, detailsOf?, hdetails, fieldsFrom?]

end Fields

theorem ofValue?_jsonFields (b : ErrorBody) :
    ofValue? (.object (b.jsonFields.map Field.entry)) = some b := by
  simp only [ofValue?, jsonFields, List.map_cons, Field.entry]
  rw [fieldsFrom?_code _ b.code rfl, fieldsFrom?_msg _ b.msg rfl]
  obtain ⟨d, hd, hdetails⟩ :=
    fieldsFrom?_metaFields (f := { code := b.code, msg := b.msg }) b.details rfl
  rw [hd]
  exact congrArg some (congrArg (ErrorBody.mk b.code b.msg) hdetails)

/-- Every body is read back from the bytes of its text. -/
theorem ofJson?_toJson (b : ErrorBody) : ofJson? (Text.utf8Bytes b.toJson) = some b := by
  rw [ofJson?, Text.decodeUtf8_utf8Bytes, parse?_toJson, Option.bind_some, ofValue?_jsonFields]

def escapedBody : ErrorBody :=
  ((ErrorBody.mk .noError "\"\\\x01\n\x7f é😀" []).withMeta "k\t" "").withMeta "" "v"

theorem ofJson?_toJson_escapedBody :
    escapedBody.toJson = "\x7b\"code\":\"\"," ++
      "\"msg\":\"\\\"\\\\\\u0001\\n\x7f é😀\",\"meta\":\x7b\"\":\"v\",\"k\\t\":\"\"\x7d\x7d" ∧
      ofJson? (Text.utf8Bytes escapedBody.toJson) = some escapedBody :=
  ⟨by decide, ofJson?_toJson escapedBody⟩

end ErrorBody

end RpcStubs.Wire
