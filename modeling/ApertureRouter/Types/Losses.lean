import ApertureRouter.Types.Replace

/-!
# What a converted request loses of its blocks

What a turn does not keep of a block (`Kept`) could as well not be there: the converted request is that
of a request with a block of the same type that does not say it (`Lost`).

* `lost_beside_calls`: the blocks beside the tool calls of an assistant.
* `lost_image`, `lost_raw`, `lost_text`, `lost_id`: what the other turns do not read.
* `payload_kept_or_lost`: the payloads that are kept, and the others.
-/

namespace ApertureRouter

open Value (asStr asArray)

variable (serde : Serde)

/-! ## What is lost -/

/-- The turn does not depend on what the block says: there is one of the same type for it that does not. -/
def Lost (turn : Value) (pre post : List Value) (b : Value) (p : Payload) : Prop :=
  ∃ b', typeOf b' = typeOf b ∧ ¬HasPayload b' p ∧
    convertTurn serde (withBlocks turn (pre ++ b' :: post)) = convertTurn serde turn

section

variable {turn b b' : Value} {pre post : List Value} {p : Payload}

theorem SameUse.lost (h : SameUse serde (turnRole turn) b b')
    (hcontent : turn.get "content" = some (.array (pre ++ b :: post)))
    (hthinking : isThinking b = false)
    (huse : turnRole turn = "assistant" → (pre ++ b :: post).any isToolUse = false)
    (hnot : ¬HasPayload b' p) : Lost serde turn pre post b p :=
  ⟨b', h.type, hnot, convertTurn_withBlocks serde hcontent (h.messages_eq serde hthinking huse)⟩

/-- A block between the texts and calls of an assistant. -/
theorem lost_of_assistantParts (hcontent : turn.get "content" = some (.array (pre ++ b :: post)))
    (hrole : turnRole turn = "assistant") (huse : (pre ++ b :: post).any isToolUse = true)
    (htype : typeOf b' = typeOf b) (htext : blockText b' = blockText b)
    (hcall : isToolUse b = true → ∀ i, toolCallOf serde b' i = toolCallOf serde b i)
    (hnot : ¬HasPayload b' p) : Lost serde turn pre post b p := by
  refine ⟨b', htype, hnot, convertTurn_withBlocks serde hcontent ?_⟩
  have huse' : isToolUse b' = isToolUse b := by rw [isToolUse, blockType_congr htype, isToolUse]
  have hparts := assistantParts_replace serde htext huse' hcall pre post
  have hhas : (assistantParts serde (pre ++ b :: post)).hasToolUse = true := by
    rw [assistantParts_eq, huse]
  simp only [convertAnthropicMessageExpanded, if_pos hrole, convertAssistantBlocks, hparts, hhas,
    if_true]

/-- A field of a tool call that is no string. -/
theorem lost_callField {key : String} {v : Value} (hkey : key = "id" ∨ key = "name")
    (hcontent : turn.get "content" = some (.array (pre ++ b :: post)))
    (hrole : turnRole turn = "assistant") (huse : (pre ++ b :: post).any isToolUse = true)
    (ht : typeOf b = some "tool_use") (hv : nonNull (b.get key) = some v)
    (hs : ¬∃ s, v = .string s) (hnot : ¬HasPayload (b.remove key) p) :
    Lost serde turn pre post b p := by
  have htype : typeOf (b.remove key) = typeOf b := by
    rcases hkey with rfl | rfl <;> exact typeOf_remove (by decide) b
  refine lost_of_assistantParts serde hcontent hrole huse htype ?_ (fun _ i => ?_) hnot
  · rw [blockText, blockText, blockType_congr htype, blockType_of_typeOf ht, if_neg (by decide),
      if_neg (by decide)]
  · have hsame := asStr_get_remove hv hs
    rcases hkey with rfl | rfl <;>
      simp only [toolCallOf, hsame, Value.get_remove_of_ne (by decide : "name" ≠ "id"),
        Value.get_remove_of_ne (by decide : "input" ≠ "id"),
        Value.get_remove_of_ne (by decide : "id" ≠ "name"),
        Value.get_remove_of_ne (by decide : "input" ≠ "name")]

/-- Of an assistant's turn that uses tools, only texts and tool calls are read, and as strings. -/
theorem lost_beside_calls (hcontent : turn.get "content" = some (.array (pre ++ b :: post)))
    (h : HasPayload b p) (hrole : turnRole turn = "assistant")
    (huse : (pre ++ b :: post).any isToolUse = true)
    (hk : ¬((typeOf b = none ∨ typeOf b = some "text" ∨ typeOf b = some "tool_use") ∧ p.AsString)) :
    Lost serde turn pre post b p := by
  have hcall : typeOf b ≠ some "tool_use" → isToolUse b = true →
      ∀ b' i, toolCallOf serde b' i = toolCallOf serde b i :=
    fun hne e => absurd (isToolUse_iff.mp e) hne
  by_cases hnone : typeOf b = none
  · have htype : typeOf .null = typeOf b := hnone.symm
    refine lost_of_assistantParts serde hcontent hrole huse htype ?_
      (fun e => hcall (by rw [hnone]; decide) e _) not_hasPayload_null
    have hread : (b.get "text" >>= asStr) = none := by
      rcases h.of_none hnone with ⟨v, rfl, htext⟩ | ⟨-, htext⟩
      · exact asStr_eq_none (eq_of_nonNull htext) fun hs => hk ⟨.inl hnone, hs⟩
      · exact asStr_of_nonNull_eq_none htext
    rw [blockText, blockText, blockType_of_none hnone, hread]
    rfl
  by_cases htext : typeOf b = some "text"
  · obtain ⟨v, rfl, hv⟩ := h.of_text htext
    have hs : ¬∃ s, v = .string s := fun hs => hk ⟨.inr (.inl htext), hs⟩
    have htype := typeOf_remove (by decide : "text" ≠ "type") b
    refine lost_of_assistantParts serde hcontent hrole huse htype ?_
      (fun e => hcall (by rw [htext]; decide) e _) fun h' => ?_
    · rw [blockText, blockText, blockType_congr htype, asStr_get_remove hv hs]
    · obtain ⟨u, -, hu⟩ := h'.of_text (htype.trans htext)
      exact nonNull_get_remove hu
  by_cases htool : typeOf b = some "tool_use"
  · have hs : ¬p.AsString := fun hs => hk ⟨.inr (.inr htool), hs⟩
    have htype : ∀ key, key ≠ "type" → typeOf (b.remove key) = some "tool_use" := fun key hkey =>
      (typeOf_remove hkey b).trans htool
    rcases h.of_toolUse htool with ⟨v, rfl, hv⟩ | ⟨v, rfl, hv⟩ | ⟨v, rfl⟩
    · refine lost_callField serde (.inl rfl) hcontent hrole huse htool hv hs fun h' => ?_
      rcases h'.of_toolUse (htype "id" (by decide)) with ⟨u, -, hu⟩ | ⟨u, hu, -⟩ | ⟨u, hu⟩
      · exact nonNull_get_remove hu
      · cases hu
      · cases hu
    · refine lost_callField serde (.inr rfl) hcontent hrole huse htool hv hs fun h' => ?_
      rcases h'.of_toolUse (htype "name" (by decide)) with ⟨u, hu, -⟩ | ⟨u, -, hu⟩ | ⟨u, hu⟩
      · cases hu
      · exact nonNull_get_remove hu
      · cases hu
    · exact absurd trivial hs
  · obtain ⟨t, ht⟩ := Option.ne_none_iff_exists'.mp hnone
    have hne : t ≠ "text" := fun e => htext (by rw [ht, e])
    have hne' : t ≠ "tool_use" := fun e => htool (by rw [ht, e])
    have htype : typeOf (blockWithout t p) = typeOf b := ht.symm
    refine lost_of_assistantParts serde hcontent hrole huse htype ?_ (fun e => hcall htool e _)
      fun h' => ne_of_hasPayload_blockWithout hne hne' h' rfl
    rw [blockText, blockText, blockType_congr htype, blockType_of_typeOf ht, if_neg hne, if_neg hne]

section

variable (hcontent : turn.get "content" = some (.array (pre ++ b :: post)))
  (huse : turnRole turn = "assistant" → (pre ++ b :: post).any isToolUse = false)

include hcontent huse

/-- Of an image, only the inline data are read, as a string. -/
theorem lost_image {field : String} {v : Value} (h : HasPayload b (.image field v))
    (hv : ¬(field = "data" ∧ ∃ s, v = .string s)) :
    Lost serde turn pre post b (.image field v) := by
  have hthinking := h.not_isThinking
  cases h with
  | shown hshows =>
    cases hshows with
    | image ht _ _ _ hmedia =>
      refine (sameUse_dropField serde _ ht hmedia).lost serde hcontent hthinking huse fun h' => ?_
      exact not_shows_dropField hv (h'.of_image ((typeOf_dropField field b).trans ht))
  | toolResultShown ht hcs _ hshows =>
    have hmedia : field ≠ "media_type" := by
      cases hshows with
      | image _ _ _ _ hmedia => exact hmedia
    refine (sameUse_mapResult serde _ ht hcs (typeOf_dropField field)
      (fun c _ => get_dropField c (by decide)) (toolResultPart_dropField serde hmedia)).lost serde
        hcontent hthinking huse ?_
    exact not_hasPayload_mapResult ht hcs (.inl ⟨field, v, rfl⟩) fun c => not_shows_dropField hv

/-- What no part has room for is not read. -/
theorem lost_raw {v : Value} (h : HasPayload b (.raw v)) : Lost serde turn pre post b (.raw v) := by
  have hthinking := h.not_isThinking
  have htext := get_stripCacheControl (by decide : "text" ≠ "cache_control")
  cases h with
  | shown hshows =>
    cases hshows with
    | raw ht hnone _ =>
      have hsame : SameUse serde (turnRole turn) b .null := by
        refine ⟨ht.symm, by rw [ht]; decide, ?_, fun _ hr => ?_⟩
        · have htype : blockType (stripCacheControl b) = "text" :=
            (blockType_stripCacheControl b).trans (blockType_of_none ht)
          have hne : "text" ≠ "tool_result" := by decide
          simp only [messagePart, openaiPart, htype, htext, if_neg hne,
            getD_of_nonNull_eq_none hnone]
          rfl
        · rw [isToolResult_iff, ht] at hr
          cases hr
      exact hsame.lost serde hcontent hthinking huse not_hasPayload_null
    | source ht hv hobject =>
      have ht' := (typeOf_remove (by decide : "source" ≠ "type") b).trans ht
      have hsame : SameUse serde (turnRole turn) b (b.remove "source") := by
        refine .image serde _ ht ht' ?_
        rw [Value.get_remove_self, eq_of_nonNull hv, Option.getD_some, Option.getD_none,
          imagePart_eq_null hobject]
      refine hsame.lost serde hcontent hthinking huse fun h' => ?_
      cases h'.of_image ht' with
      | raw htn _ _ => rw [ht'] at htn; cases htn
      | source _ hv' _ => exact nonNull_get_remove hv'
  | toolResultShown ht hcs _ _ =>
    have htexts : ∀ c, typeOf c = some "text" → (dropRaw c).get "text" = c.get "text" :=
      fun c hc => by rw [dropRaw, hc, if_neg (by decide), if_neg (by decide)]
    refine (sameUse_mapResult serde _ ht hcs typeOf_dropRaw htexts
      (toolResultPart_dropRaw serde)).lost serde hcontent hthinking huse ?_
    exact not_hasPayload_mapResult ht hcs (.inr ⟨v, rfl⟩) fun c => not_shows_dropRaw
  | toolResultRaw ht hv hs hcs =>
    refine (sameUse_remove_content serde _ ht hv hs hcs).lost serde hcontent hthinking huse
      fun h' => ?_
    rcases h'.of_toolResult ((typeOf_remove (by decide) b).trans ht) with ⟨u, hu, -⟩ | h'
    · cases hu
    · rw [Value.get_remove_self] at h'
      cases h' with
      | raw hv' _ _ => cases hv'

/-- A text that is no string is not read between texts. -/
theorem lost_text {v : Value} (h : HasPayload b (.text v))
    (hk : ¬(Mixed (turnRole turn) (pre ++ b :: post) ∨ ∃ s, v = .string s)) :
    Lost serde turn pre post b (.text v) := by
  obtain ⟨hmixed, hs⟩ := not_or.mp hk
  have hthinking := h.not_isThinking
  have ht : typeOf b = some "text" := by
    by_contra hne
    refine hmixed (List.any_eq_true.mpr ⟨b, ?_, bne_iff_ne.mpr hne⟩)
    rw [visibleBlocks_append hthinking]
    simp
  obtain ⟨u, hu, htext⟩ := h.of_text ht
  cases hu
  have htype := typeOf_remove (by decide : "text" ≠ "type") b
  refine ⟨b.remove "text", htype, fun h' => ?_, convertTurn_withBlocks serde hcontent ?_⟩
  · obtain ⟨u, -, hu⟩ := h'.of_text (htype.trans ht)
    exact nonNull_get_remove hu
  · exact messages_eq_of_texts serde htype ht (asStr_get_remove htext hs) hmixed huse

/-- The id of a tool result is read as a string. -/
theorem lost_id {v : Value} (h : HasPayload b (.id v)) (ht : typeOf b ≠ some "tool_use")
    (hs : ¬∃ s, v = .string s) : Lost serde turn pre post b (.id v) := by
  have hthinking := h.not_isThinking
  cases h with
  | shown hshows => cases hshows
  | toolUseId ht' _ => exact absurd ht' ht
  | toolResultShown _ _ _ hshows => cases hshows
  | toolResultId ht' hid =>
    refine (sameUse_remove_id serde _ ht' hid hs).lost serde hcontent hthinking huse fun h' => ?_
    rcases h'.of_toolResult ((typeOf_remove (by decide) b).trans ht') with ⟨u, -, hu⟩ | h'
    · exact nonNull_get_remove hu
    · generalize (b.remove "tool_use_id").get "content" = content at h'
      cases h' with
      | shown _ hshows => cases hshows

end

/-- A block that says what is not kept can be replaced by one that does not say it. -/
theorem lost_of_not_kept (hcontent : turn.get "content" = some (.array (pre ++ b :: post)))
    (h : HasPayload b p) (hk : ¬Kept turn b p) : Lost serde turn pre post b p := by
  have hblocks : turnBlocks turn = pre ++ b :: post := by
    rw [turnBlocks, hcontent]
    rfl
  unfold Kept at hk
  rw [hblocks] at hk
  by_cases hassistant : turnRole turn = "assistant" ∧ (pre ++ b :: post).any isToolUse = true
  · rw [if_pos hassistant] at hk
    exact lost_beside_calls serde hcontent h hassistant.1 hassistant.2 hk
  rw [if_neg hassistant] at hk
  have huse : turnRole turn = "assistant" → (pre ++ b :: post).any isToolUse = false := fun e =>
    Bool.eq_false_iff.mpr fun hu => hassistant ⟨e, hu⟩
  by_cases hresult : turnRole turn = "assistant" ∧ typeOf b = some "tool_result"
  · -- only texts of the tool result are read
    rw [if_pos hresult] at hk
    have hsame : SameUse serde (turnRole turn) b (textsOnly b) := by
      rw [hresult.1]
      exact sameUse_textsOnly serde hresult.2
    exact hsame.lost serde hcontent h.not_isThinking huse fun h' =>
      hk (text_of_hasPayload_textsOnly h')
  rw [if_neg hresult] at hk
  by_cases htool : typeOf b = some "tool_use"
  · rw [if_pos htool] at hk
    exact absurd trivial hk
  rw [if_neg htool] at hk
  cases p with
  | text v => exact lost_text serde hcontent huse h hk
  | untyped | json => exact absurd trivial hk
  | id v => exact lost_id serde hcontent huse h htool hk
  | name v =>
    cases h with
    | shown hshows | toolResultShown _ _ _ hshows => cases hshows
    | toolUseName ht _ => exact absurd ht htool
  | image field v => exact lost_image serde hcontent huse h hk
  | raw v => exact lost_raw serde hcontent huse h

end

/-- **Payloads.** What a block says occurs in the converted request if the turn keeps it; if not,
the converted request is that of a request in which the block does not say it. -/
theorem payload_kept_or_lost {anthropic turn b : Value} {before after pre post : List Value}
    {p : Payload} (hturns : anthropic.get "messages" = some (.array (before ++ turn :: after)))
    (hcontent : turn.get "content" = some (.array (pre ++ b :: post))) (hp : HasPayload b p) :
    (Kept turn b p → Survives serde b p (requestMessages serde anthropic)) ∧
      (¬Kept turn b p → ∃ b', typeOf b' = typeOf b ∧ ¬HasPayload b' p ∧
        anthropicRequestToOpenai serde (anthropic.set "messages"
            (.array (before ++ withBlocks turn (pre ++ b' :: post) :: after))) =
          anthropicRequestToOpenai serde anthropic) := by
  have hturnsOf : turnsOf anthropic = before ++ turn :: after := by
    rw [turnsOf, hturns]
    rfl
  constructor
  · intro hk
    have hsub : convertTurn serde turn ⊆ requestMessages serde anthropic := by
      intro m hm
      rw [requestMessages, hturnsOf]
      simp [hm]
    exact (survives_convertTurn serde hcontent (by simp) hp hk).imp (·.mono hsub) (·.mono hsub)
  · intro hk
    obtain ⟨b', htype, hnot, hconvert⟩ := lost_of_not_kept serde hcontent hp hk
    refine ⟨b', htype, hnot, anthropicRequestToOpenai_congr serde ?_ fun key hkey => ?_⟩
    · rw [hturnsOf, turnsOf, Value.get_set_of_get hturns, if_pos rfl]
      show (before ++ _ :: after).flatMap _ = _
      simp only [List.flatMap_append, List.flatMap_cons, hconvert]
    · rw [Value.get_set_of_get hturns, if_neg hkey]

/-! ## An image beside a tool call -/

def sampleImage : Value := .object [("type", .string "image"),
  ("source", .object [("type", .string "base64"), ("media_type", .string "image/png"),
    ("data", .string "iVBORw0KGgo=")])]

def sampleToolUse : Value := .object [("type", .string "tool_use"), ("id", .string "a"),
  ("name", .string "f"), ("input", .object [])]

def assistantTurn (blocks : List Value) : Value :=
  .object [("role", .string "assistant"), ("content", .array blocks)]

def imageBesideToolUse : Value :=
  .object [("messages", .array [assistantTurn [sampleImage, sampleToolUse]])]

/-- `serde_json` on the empty object and on the image. -/
def imageSerde : Serde where
  fromStr _ := none
  toString
    | .object [] => "\x7b\x7d"
    | _ => "\x7b\"type\":\"image\",\"source\":\x7b\"type\":\"base64\"," ++
        "\"media_type\":\"image/png\",\"data\":\"iVBORw0KGgo=\"\x7d\x7d"

def sampleData : Payload := .image "data" (.string "iVBORw0KGgo=")

theorem hasPayload_sampleImage : HasPayload sampleImage sampleData :=
  .shown (.image rfl rfl rfl (by decide) (by decide))

theorem payload_kept_or_lost_imageBesideToolUse :
    (Kept (assistantTurn [sampleImage, sampleToolUse]) sampleImage sampleData →
      Survives imageSerde sampleImage sampleData
        (requestMessages imageSerde imageBesideToolUse)) ∧
    (¬Kept (assistantTurn [sampleImage, sampleToolUse]) sampleImage sampleData →
      ∃ b', typeOf b' = typeOf sampleImage ∧ ¬HasPayload b' sampleData ∧
        anthropicRequestToOpenai imageSerde (imageBesideToolUse.set "messages"
            (.array [withBlocks (assistantTurn [sampleImage, sampleToolUse]) [b', sampleToolUse]])) =
          anthropicRequestToOpenai imageSerde imageBesideToolUse) :=
  @payload_kept_or_lost imageSerde imageBesideToolUse _ _ [] [] [] _ _ rfl rfl
    hasPayload_sampleImage

theorem mentions_string_iff {s t : String} :
    Mentions (.string s) (.string t) ↔ s.toList <:+: t.toList :=
  ⟨fun h => by
    cases h with
    | self => exact List.infix_refl _
    | string hs h => cases hs; exact h, .string rfl⟩

theorem mentions_array_iff {s : String} {a : List Value} :
    Mentions (.string s) (.array a) ↔ ∃ v ∈ a, Mentions (.string s) v :=
  ⟨fun h => by cases h with | element hv hs => exact ⟨_, hv, hs⟩,
    fun ⟨_, hv, hs⟩ => .element hv hs⟩

theorem mentions_object_iff {s : String} {m : List (String × Value)} :
    Mentions (.string s) (.object m) ↔ ∃ e ∈ m, Mentions (.string s) e.2 :=
  ⟨fun h => by cases h with | field hv hs => exact ⟨_, hv, hs⟩,
    fun ⟨_, hv, hs⟩ => .field hv hs⟩

/-- The strings of the message. -/
theorem occurs_imageBesideToolUse {s : String}
    (h : Occurs (.string s) (requestMessages imageSerde imageBesideToolUse)) :
    ∃ t ∈ ["assistant", "a", "function", "f", "\x7b\x7d"], s.toList <:+: t.toList := by
  have hmessages : requestMessages imageSerde imageBesideToolUse = [.object [
      ("role", .string "assistant"), ("content", .null),
      ("tool_calls", .array [.object [("id", .string "a"), ("type", .string "function"),
        ("index", .number (.posInt 0)), ("function", .object [("name", .string "f"),
          ("arguments", .string "\x7b\x7d")])]])]] := rfl
  have hnull : ¬Mentions (.string s) .null := nofun
  have hnumber : ∀ n, ¬Mentions (.string s) (.number n) := nofun
  rw [hmessages] at h
  simpa [Occurs, mentions_object_iff, mentions_array_iff, mentions_string_iff, hnull, hnumber,
    or_assoc] using h

/-- An image beside a tool call is not in the messages. -/
theorem sampleImage_lost :
    HasPayload sampleImage sampleData ∧
      ¬Survives imageSerde sampleImage sampleData
        (requestMessages imageSerde imageBesideToolUse) := by
  refine ⟨hasPayload_sampleImage, ?_⟩
  have hshort : ∀ s : String, 9 < s.length →
      ¬Occurs (.string s) (requestMessages imageSerde imageBesideToolUse) := by
    intro s hs h
    obtain ⟨t, ht, hst⟩ := occurs_imageBesideToolUse h
    have hle : ∀ t ∈ ["assistant", "a", "function", "f", "\x7b\x7d"], t.length ≤ 9 := by decide
    have hlen := hst.length_le
    rw [String.length_toList, String.length_toList] at hlen
    have := hle t ht
    omega
  rintro (h | h)
  · exact hshort "iVBORw0KGgo=" (by decide) h
  · exact hshort _ (by decide) h

end ApertureRouter
