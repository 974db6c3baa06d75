import ApertureRouter.Types.Payload

/-!
# Blocks that can stand for each other

A turn does not use all of a block, so another one may do in its place.

* `convertAnthropicMessageExpanded_replace`: what a turn without tool calls has to read alike.
* `SameUse`: a block that does, and `sameUse_dropField`, `sameUse_mapResult` and their like: what can be
  left out of a block.
-/

namespace ApertureRouter

open Value (asStr asArray)

variable (serde : Serde)

/-! ## Another block in a turn -/

/-- The turn with other blocks. -/
def withBlocks (turn : Value) (blocks : List Value) : Value := turn.set "content" (.array blocks)

/-- Another block in a turn matters only for the messages of the turn. -/
theorem convertTurn_withBlocks {turn b b' : Value} {pre post : List Value}
    (hcontent : turn.get "content" = some (.array (pre ++ b :: post)))
    (hmessages : convertAnthropicMessageExpanded serde (turnRole turn)
        (some (.array (pre ++ b' :: post))) =
      convertAnthropicMessageExpanded serde (turnRole turn) (some (.array (pre ++ b :: post)))) :
    convertTurn serde (withBlocks turn (pre ++ b' :: post)) = convertTurn serde turn := by
  have hrole : turnRole (withBlocks turn (pre ++ b' :: post)) = turnRole turn := by
    rw [turnRole, withBlocks, Value.get_set_of_get hcontent, if_neg (by decide), turnRole]
  rw [convertTurn, hrole, withBlocks, Value.get_set_of_get hcontent, if_pos rfl, hmessages,
    convertTurn, hcontent]

/-- In an assistant turn with tool calls, the texts and the calls of the blocks matter. -/
theorem assistantParts_replace {b b' : Value} (htext : blockText b' = blockText b)
    (huse : isToolUse b' = isToolUse b)
    (hcall : isToolUse b = true → ∀ i, toolCallOf serde b' i = toolCallOf serde b i)
    (pre post : List Value) :
    assistantParts serde (pre ++ b' :: post) = assistantParts serde (pre ++ b :: post) := by
  rw [assistantParts_eq, assistantParts_eq]
  cases hb : isToolUse b with
  | true =>
    rw [hb] at huse
    simp [huse, hb, List.filterMap_cons, htext, hcall hb, List.zipIdx_append]
  | false =>
    rw [hb] at huse
    simp [huse, hb, List.filterMap_cons, htext]

theorem visibleBlocks_append {b : Value} (h : isThinking b = false) (role : String)
    (pre post : List Value) : visibleBlocks role (pre ++ b :: post) =
      visibleBlocks role pre ++ b :: visibleBlocks role post := by
  unfold visibleBlocks
  split
  · simp [h]
  · rfl

/-- In a turn without tool calls of an assistant, a block of the same type can stand for another one if
the message without tool results does not tell them apart, nor do their own tool messages, and beside
tool results nor do their parts. -/
theorem convertAnthropicMessageExpanded_replace {role : String} {b b' : Value} {pre post : List Value}
    (htype : typeOf b' = typeOf b) (hthinking : isThinking b = false)
    (huse : role = "assistant" → (pre ++ b :: post).any isToolUse = false)
    (hmessage : convertAnthropicMessage serde role
        (some (.array (visibleBlocks role pre ++ b' :: visibleBlocks role post))) =
      convertAnthropicMessage serde role
        (some (.array (visibleBlocks role pre ++ b :: visibleBlocks role post))))
    (hresult : role ≠ "assistant" → isToolResult b = true →
      toolMessage serde b' = toolMessage serde b)
    (hpart : role ≠ "assistant" → isToolResult b = false →
      (pre ++ b :: post).filter isToolResult ≠ [] →
        openaiPart serde (stripCacheControl b') = openaiPart serde (stripCacheControl b)) :
    convertAnthropicMessageExpanded serde role (some (.array (pre ++ b' :: post))) =
      convertAnthropicMessageExpanded serde role (some (.array (pre ++ b :: post))) := by
  have hresult' : isToolResult b' = isToolResult b := by
    rw [isToolResult, blockType_congr htype, isToolResult]
  by_cases hrole : role = "assistant"
  · have hparts : ∀ c, typeOf c = typeOf b →
        (assistantParts serde (pre ++ c :: post)).hasToolUse = false := fun c hc => by
      have hu := huse hrole
      have hc' : isToolUse c = isToolUse b := by rw [isToolUse, blockType_congr hc, isToolUse]
      simp only [List.any_append, List.any_cons] at hu
      rw [assistantParts_eq]
      simp only [List.any_append, List.any_cons, hc', hu]
    have hfilter : ∀ c, typeOf c = typeOf b →
        ((pre ++ c :: post).filter fun c => !isThinking c) =
          visibleBlocks role pre ++ c :: visibleBlocks role post := fun c hc => by
      have hthinking' : isThinking c = false := by rw [isThinking, hc]; exact hthinking
      rw [← visibleBlocks_append hthinking', visibleBlocks, if_pos hrole]
    simp only [convertAnthropicMessageExpanded, convertAssistantBlocks, hparts b rfl,
      hparts b' htype, hfilter b rfl, hfilter b' htype, Bool.false_eq_true, if_false,
      ← hrole, hmessage]
    simp
  · have hvisible : ∀ blocks, visibleBlocks role blocks = blocks := fun _ => if_neg hrole
    rw [hvisible, hvisible] at hmessage
    simp only [convertAnthropicMessageExpanded, if_neg hrole, hmessage]
    cases hr : isToolResult b with
    | true =>
      rw [hr] at hresult'
      simp [hr, hresult', hresult hrole hr]
    | false =>
      rw [hr] at hresult'
      have hresults : (pre ++ b' :: post).filter isToolResult =
          (pre ++ b :: post).filter isToolResult := by simp [hr, hresult']
      rw [hresults]
      by_cases hnone : (pre ++ b :: post).filter isToolResult = []
      · rw [hnone]
        rfl
      · have hfollow : followUp serde ((pre ++ b' :: post).filter fun c => !isToolResult c) =
            followUp serde ((pre ++ b :: post).filter fun c => !isToolResult c) := by
          rw [followUp_eq, followUp_eq]
          simp only [List.filter_append, List.filter_cons, hr, hresult', Bool.not_false, if_true,
            List.filterMap_append, List.filterMap_cons, hpart hrole hr hnone]
        rw [hfollow]

/-- Two blocks of a type that is not text, which a turn of the role uses in the same way. -/
structure SameUse (role : String) (b b' : Value) : Prop where
  type : typeOf b' = typeOf b
  notText : typeOf b ≠ some "text"
  part : messagePart serde (stripCacheControl b') = messagePart serde (stripCacheControl b)
  result : role ≠ "assistant" → isToolResult b = true → toolMessage serde b' = toolMessage serde b

/-- Tool results with the same texts and the same message. -/
theorem SameUse.toolResult (role : String) {b b' : Value} (ht : typeOf b = some "tool_result")
    (ht' : typeOf b' = some "tool_result")
    (htexts : extractTextFromContent ((b'.get "content").getD .null) =
      extractTextFromContent ((b.get "content").getD .null))
    (hmessage : role ≠ "assistant" → toolMessage serde b' = toolMessage serde b) :
    SameUse serde role b b' :=
  { type := ht'.trans ht.symm
    notText := by rw [ht]; decide
    part := by rw [messagePart_toolResult serde ht, messagePart_toolResult serde ht', htexts]
    result := fun hrole _ => hmessage hrole }

/-- Images with the same data. -/
theorem SameUse.image (role : String) {b b' : Value} (ht : typeOf b = some "image")
    (ht' : typeOf b' = some "image") (hsource : imagePart ((b'.get "source").getD .null) =
      imagePart ((b.get "source").getD .null)) : SameUse serde role b b' :=
  { type := ht'.trans ht.symm
    notText := by rw [ht]; decide
    part := by rw [messagePart_image serde ht, messagePart_image serde ht', hsource]
    result := fun _ hr => by
      rw [isToolResult_iff, ht] at hr
      exact absurd hr (by decide) }

/-- In a turn without tool calls, blocks of the same use can replace each other. -/
theorem SameUse.messages_eq {role : String} {b b' : Value} (h : SameUse serde role b b')
    {pre post : List Value} (hthinking : isThinking b = false)
    (huse : role = "assistant" → (pre ++ b :: post).any isToolUse = false) :
    convertAnthropicMessageExpanded serde role (some (.array (pre ++ b' :: post))) =
      convertAnthropicMessageExpanded serde role (some (.array (pre ++ b :: post))) := by
  refine convertAnthropicMessageExpanded_replace serde h.type hthinking huse ?_ h.result ?_
  · have hany : ∀ c, typeOf c = typeOf b → ((visibleBlocks role pre ++ c ::
        visibleBlocks role post).any fun c => typeOf c != some "text") = true := fun c hc => by
      refine List.any_eq_true.mpr ⟨c, by simp, ?_⟩
      rw [hc]
      exact bne_iff_ne.mpr h.notText
    simp only [convertAnthropicMessage, messageContentToOpenai, hany b rfl, hany b' h.type, if_true,
      List.filterMap_append, List.filterMap_cons, h.part]
  · intro _ hr _
    have hpart := h.part
    have hne : blockType b ≠ "tool_result" := beq_eq_false_iff_ne.mp hr
    rwa [messagePart, messagePart, blockType_stripCacheControl, blockType_stripCacheControl,
      blockType_congr h.type, if_neg hne, if_neg hne] at hpart

/-- Between texts only, it is the strings of the texts that matter. -/
theorem messages_eq_of_texts {role : String} {b b' : Value} {pre post : List Value}
    (htype : typeOf b' = typeOf b) (ht : typeOf b = some "text")
    (htext : (b'.get "text" >>= asStr) = (b.get "text" >>= asStr))
    (hmixed : ¬Mixed role (pre ++ b :: post))
    (huse : role = "assistant" → (pre ++ b :: post).any isToolUse = false) :
    convertAnthropicMessageExpanded serde role (some (.array (pre ++ b' :: post))) =
      convertAnthropicMessageExpanded serde role (some (.array (pre ++ b :: post))) := by
  have hthinking : isThinking b = false :=
    Bool.eq_false_iff.mpr fun e => (isThinking_iff.mp e).elim (by simp [ht]) (by simp [ht])
  have hnone := Bool.eq_false_iff.mpr hmixed
  rw [visibleBlocks_append hthinking] at hnone
  refine convertAnthropicMessageExpanded_replace serde htype hthinking huse ?_ ?_ ?_
  · have hnone' : ((visibleBlocks role pre ++ b' :: visibleBlocks role post).any
        fun c => typeOf c != some "text") = false := by
      rw [← hnone]
      simp only [List.any_append, List.any_cons, htype]
    simp only [convertAnthropicMessage, messageContentToOpenai, hnone, hnone', Bool.false_eq_true,
      if_false, List.filterMap_append, List.filterMap_cons, htext]
  · intro _ hr
    rw [isToolResult_iff, ht] at hr
    exact absurd hr (by decide)
  · -- a tool result would be among the blocks
    intro hrole _ hne
    obtain ⟨c, hc⟩ := List.exists_mem_of_ne_nil _ hne
    obtain ⟨hmem, hr⟩ := List.mem_filter.mp hc
    have hall := List.any_eq_false.mp (Bool.eq_false_iff.mpr hmixed) c
    rw [visibleBlocks, if_neg hrole, isToolResult_iff.mp hr] at hall
    exact absurd rfl (hall hmem)

/-! ## What each type of block says -/

section

variable {b : Value} {p : Payload}

theorem HasPayload.of_none (ht : typeOf b = none) (h : HasPayload b p) :
    (∃ v, p = .untyped v ∧ nonNull (b.get "text") = some v) ∨
      p = .raw b ∧ nonNull (b.get "text") = none := by
  cases h with
  | shown hshows =>
    cases hshows with
    | untyped _ htext => exact .inl ⟨_, rfl, htext⟩
    | raw _ htext _ => exact .inr ⟨rfl, htext⟩
    | text ht' _ | image ht' _ _ _ _ | source ht' _ _ => rw [ht] at ht'; cases ht'
  | toolUseId ht' _ | toolUseName ht' _ | toolUseInput ht' _ | toolResultId ht' _
  | toolResultText ht' _ | toolResultShown ht' _ _ _ | toolResultOther ht' _ _ _ _
  | toolResultRaw ht' _ _ _ | other ht' _ => rw [ht] at ht'; cases ht'

theorem HasPayload.of_text (ht : typeOf b = some "text") (h : HasPayload b p) :
    ∃ v, p = .text v ∧ nonNull (b.get "text") = some v := by
  cases h with
  | shown hshows =>
    cases hshows with
    | text _ htext => exact ⟨_, rfl, htext⟩
    | untyped ht' _ | raw ht' _ _ | image ht' _ _ _ _ | source ht' _ _ =>
      rw [ht] at ht'
      exact absurd ht' (by decide)
  | toolUseId ht' _ | toolUseName ht' _ | toolUseInput ht' _ | toolResultId ht' _
  | toolResultText ht' _ | toolResultShown ht' _ _ _ | toolResultOther ht' _ _ _ _
  | toolResultRaw ht' _ _ _ =>
    rw [ht] at ht'
    exact absurd ht' (by decide)
  | other ht' hne =>
    rw [ht] at ht'
    cases ht'
    exact absurd hne (by decide)

theorem HasPayload.of_image (ht : typeOf b = some "image") (h : HasPayload b p) : Shows b p := by
  cases h with
  | shown hshows => exact hshows
  | toolUseId ht' _ | toolUseName ht' _ | toolUseInput ht' _ | toolResultId ht' _
  | toolResultText ht' _ | toolResultShown ht' _ _ _ | toolResultOther ht' _ _ _ _
  | toolResultRaw ht' _ _ _ =>
    rw [ht] at ht'
    exact absurd ht' (by decide)
  | other ht' hne =>
    rw [ht] at ht'
    cases ht'
    exact absurd hne (by decide)

theorem HasPayload.of_toolUse (ht : typeOf b = some "tool_use") (h : HasPayload b p) :
    (∃ v, p = .id v ∧ nonNull (b.get "id") = some v) ∨
      (∃ v, p = .name v ∧ nonNull (b.get "name") = some v) ∨ ∃ v, p = .json v := by
  cases h with
  | shown hshows =>
    cases hshows with
    | text ht' _ | untyped ht' _ | raw ht' _ _ | image ht' _ _ _ _ | source ht' _ _ =>
      rw [ht] at ht'
      exact absurd ht' (by decide)
  | toolUseId _ hid => exact .inl ⟨_, rfl, hid⟩
  | toolUseName _ hname => exact .inr (.inl ⟨_, rfl, hname⟩)
  | toolUseInput => exact .inr (.inr ⟨_, rfl⟩)
  | toolResultId ht' _ | toolResultText ht' _ | toolResultShown ht' _ _ _
  | toolResultOther ht' _ _ _ _ | toolResultRaw ht' _ _ _ =>
    rw [ht] at ht'
    exact absurd ht' (by decide)
  | other ht' hne =>
    rw [ht] at ht'
    cases ht'
    exact absurd hne (by decide)

/-- What the content of a tool result says. -/
inductive Content : Option Value → Payload → Prop
  | string {s : String} : Content (some (.string s)) (.text (.string s))
  | shown {c : Value} {cs : List Value} {p : Payload} : c ∈ cs → Shows c p →
      Content (some (.array cs)) p
  | other {c : Value} {cs : List Value} : c ∈ cs → Content (some (.array cs)) (.json c)
  | raw {o : Option Value} {v : Value} : nonNull o = some v → (∀ s, v ≠ .string s) →
      (∀ cs, v ≠ .array cs) → Content o (.raw v)

theorem HasPayload.of_toolResult (ht : typeOf b = some "tool_result") (h : HasPayload b p) :
    (∃ v, p = .id v ∧ nonNull (b.get "tool_use_id") = some v) ∨ Content (b.get "content") p := by
  cases h with
  | shown hshows =>
    cases hshows with
    | text ht' _ | untyped ht' _ | raw ht' _ _ | image ht' _ _ _ _ | source ht' _ _ =>
      rw [ht] at ht'
      exact absurd ht' (by decide)
  | toolUseId ht' _ | toolUseName ht' _ | toolUseInput ht' _ =>
    rw [ht] at ht'
    exact absurd ht' (by decide)
  | toolResultId _ hid => exact .inl ⟨_, rfl, hid⟩
  | toolResultText _ hcontent => exact .inr (hcontent ▸ .string)
  | toolResultShown _ hcontent hc hshows => exact .inr (hcontent ▸ .shown hc hshows)
  | toolResultOther _ hcontent hc _ _ => exact .inr (hcontent ▸ .other hc)
  | toolResultRaw _ hcontent hs hcs => exact .inr (.raw hcontent hs hcs)
  | other ht' hne =>
    rw [ht] at ht'
    cases ht'
    exact absurd hne (by decide)

end

/-! ## A block of the same type that does not say it -/

/-- The value that a JSON payload is. -/
def Payload.inner : Payload → Value
  | json v | raw v => v
  | _ => .null

/-- A block of the type that does not say `p`. -/
def blockWithout (type : String) (p : Payload) : Value :=
  .object [("type", .string type), ("", .array [p.inner])]

theorem ne_of_hasPayload_blockWithout {type : String} {p q : Payload} (htext : type ≠ "text")
    (huse : type ≠ "tool_use") (h : HasPayload (blockWithout type p) q) : q ≠ p := by
  cases h with
  | shown hshows =>
    cases hshows with
    | text ht _ => exact absurd (Option.some.inj ht) htext
    | untyped ht _ | raw ht _ _ => cases ht
    | image _ hsource _ _ _ | source _ hsource _ => cases hsource
  | toolUseId ht _ | toolUseName ht _ | toolUseInput ht _ => exact absurd (Option.some.inj ht) huse
  | toolResultId _ hfield | toolResultText _ hfield | toolResultShown _ hfield _ _
  | toolResultOther _ hfield _ _ _ | toolResultRaw _ hfield _ _ => cases hfield
  | other =>
    intro he
    have hvalue : p.inner = blockWithout type p := (congrArg Payload.inner he).symm
    have hsize := congrArg sizeOf hvalue
    simp only [blockWithout, Value.object.sizeOf_spec, List.cons.sizeOf_spec, Prod.mk.sizeOf_spec,
      Value.array.sizeOf_spec] at hsize
    omega

/-- `null` says nothing. -/
theorem not_hasPayload_null {p : Payload} : ¬HasPayload .null p := by
  intro h
  cases h with
  | shown hshows =>
    cases hshows with
    | text ht _ | image ht _ _ _ _ | source ht _ _ => cases ht
    | untyped _ htext => cases htext
    | raw _ _ hne => exact hne rfl
  | toolUseId ht _ | toolUseName ht _ | toolUseInput ht _ | toolResultId ht _ | toolResultText ht _
  | toolResultShown ht _ _ _ | toolResultOther ht _ _ _ _ | toolResultRaw ht _ _ _
  | other ht _ => cases ht

theorem typeOf_remove {key : String} (hkey : key ≠ "type") (b : Value) :
    typeOf (b.remove key) = typeOf b := by
  rw [typeOf, Value.get_remove_of_ne hkey.symm, typeOf]

theorem nonNull_get_remove {key : String} {b v : Value} :
    nonNull ((b.remove key).get key) ≠ some v := by
  rw [Value.get_remove_self]
  nofun

/-- A value that is no string is not read as one. -/
theorem asStr_eq_none {o : Option Value} {v : Value} (h : o = some v) (hv : ¬∃ s, v = .string s) :
    (o >>= asStr) = none := by
  subst h
  cases v with
  | string s => exact absurd ⟨s, rfl⟩ hv
  | _ => rfl

theorem asStr_of_nonNull_eq_none {o : Option Value} (h : nonNull o = none) :
    (o >>= asStr) = none := by
  unfold nonNull at h
  split at h
  · rfl
  · rw [h]
    rfl

theorem asStr_get_remove {key : String} {b v : Value} (h : nonNull (b.get key) = some v)
    (hv : ¬∃ s, v = .string s) : ((b.remove key).get key >>= asStr) = (b.get key >>= asStr) := by
  rw [Value.get_remove_self, asStr_eq_none (eq_of_nonNull h) hv]
  rfl

/-! ## Images -/

/-- An image without a field of its source, unless it is the inline data. -/
def dropField (field : String) (b : Value) : Value :=
  match b.get "source" with
  | some source =>
    if typeOf b = some "image" ∧ ¬(field = "data" ∧ (source.get "data" >>= asStr).isSome = true) then
      b.set "source" (source.remove field)
    else b
  | none => b

theorem get_dropField {field key : String} (b : Value) (hkey : key ≠ "source") :
    (dropField field b).get key = b.get key := by
  unfold dropField
  split
  · rename_i source hsource
    split
    · rw [Value.get_set_of_get hsource, if_neg hkey]
    · rfl
  · rfl

theorem typeOf_dropField (field : String) (b : Value) : typeOf (dropField field b) = typeOf b := by
  rw [typeOf, get_dropField b (by decide), typeOf]

/-- An image does not show its dropped field. -/
theorem not_shows_dropField {field : String} {b v : Value}
    (hv : ¬(field = "data" ∧ ∃ s, v = .string s)) :
    ¬Shows (dropField field b) (.image field v) := by
  intro h
  cases h with
  | image ht hsource hfield _ _ =>
    rw [typeOf_dropField] at ht
    unfold dropField at hsource
    split at hsource
    · rename_i source hold
      split at hsource
      · rw [Value.get_set_of_get hold, if_pos rfl] at hsource
        rw [← Option.some.inj hsource] at hfield
        exact nonNull_get_remove hfield
      · -- the data were read as a string
        rename_i hkept
        obtain ⟨rfl, hsome⟩ := Classical.not_not.mp fun hnot => hkept ⟨ht, hnot⟩
        rw [hold] at hsource
        obtain rfl := Option.some.inj hsource
        rw [asStr_eq_none (eq_of_nonNull hfield) fun hs => hv ⟨rfl, hs⟩] at hsome
        cases hsome
    · rename_i hnone
      rw [hnone] at hsource
      cases hsource

/-- An image is read by its media type and its data. -/
theorem imagePart_dropField {field : String} {b : Value} (hmedia : field ≠ "media_type") :
    imagePart (((dropField field b).get "source").getD .null) =
      imagePart ((b.get "source").getD .null) := by
  unfold dropField
  split
  · rename_i source hsource
    split
    · rename_i hdrop
      rw [Value.get_set_of_get hsource, if_pos rfl, hsource]
      simp only [Option.getD_some, imagePart, Value.get_remove_of_ne hmedia.symm]
      by_cases hdata : field = "data"
      · subst hdata
        rw [Value.get_remove_self, Option.not_isSome_iff_eq_none.mp fun h => hdrop.2 ⟨rfl, h⟩]
        rfl
      · rw [Value.get_remove_of_ne (Ne.symm hdata)]
    · rfl
  · rfl

theorem toolResultPart_dropField {field : String} (hmedia : field ≠ "media_type") (b : Value) :
    toolResultPart serde (dropField field b) = toolResultPart serde b := by
  have htype : blockType (dropField field b) = blockType b := blockType_congr (typeOf_dropField field b)
  by_cases ht : typeOf b = some "image"
  · simp only [toolResultPart, htype, blockType_of_typeOf ht, imagePart_dropField hmedia]
  · have hsame : dropField field b = b := by
      unfold dropField
      split
      · rw [if_neg fun e => ht e.1]
      · rfl
    rw [hsame]

theorem sameUse_dropField (role : String) {b : Value} {field : String}
    (ht : typeOf b = some "image") (hmedia : field ≠ "media_type") :
    SameUse serde role b (dropField field b) :=
  .image serde role ht ((typeOf_dropField field b).trans ht) (imagePart_dropField hmedia)

/-! ## What a part has no room for -/

/-- A block without a type and a text, or an image without its source if that is no object. -/
def dropRaw (b : Value) : Value :=
  if typeOf b = none then if (nonNull (b.get "text")).isSome then b else .null
  else if typeOf b = some "image" then
    match b.get "source" with
    | none | some (.object _) => b
    | some _ => b.remove "source"
  else b

theorem typeOf_dropRaw (b : Value) : typeOf (dropRaw b) = typeOf b := by
  unfold dropRaw
  split
  · rename_i ht
    split
    · rfl
    · exact ht.symm
  · split
    · split
      · rfl
      · rfl
      · exact typeOf_remove (by decide) b
    · rfl

theorem not_shows_dropRaw {b v : Value} : ¬Shows (dropRaw b) (.raw v) := by
  intro h
  have htype := typeOf_dropRaw b
  cases h with
  | raw ht htext hne =>
    rw [ht] at htype
    unfold dropRaw at htext hne
    rw [if_pos htype.symm] at htext hne
    split at htext
    · rename_i hsome
      rw [htext] at hsome
      cases hsome
    · rename_i hnone
      exact hne (if_neg hnone)
  | source ht hsource hobject =>
    rw [ht] at htype
    unfold dropRaw at hsource
    rw [if_neg (by rw [← htype]; decide), if_pos htype.symm] at hsource
    split at hsource
    · rename_i hnone
      rw [hnone] at hsource
      cases hsource
    · rename_i m hm
      rw [hm] at hsource
      exact hobject m (Option.some.inj hsource).symm
    · exact nonNull_get_remove hsource

theorem getD_of_nonNull_eq_none {o : Option Value} (h : nonNull o = none) : o.getD .null = .null := by
  unfold nonNull at h
  split at h
  · rfl
  · rw [h]
    rfl

/-- A source that is no object has no fields. -/
theorem imagePart_eq_null {v : Value} (h : ∀ m, v ≠ .object m) : imagePart v = imagePart .null := by
  cases v with
  | object m => exact absurd rfl (h m)
  | _ => rfl

theorem toolResultPart_dropRaw (b : Value) :
    toolResultPart serde (dropRaw b) = toolResultPart serde b := by
  have htype : blockType (dropRaw b) = blockType b := blockType_congr (typeOf_dropRaw b)
  by_cases ht : typeOf b = none
  · simp only [toolResultPart, htype, blockType_of_none ht]
    unfold dropRaw
    rw [if_pos ht]
    split
    · rfl
    · rename_i hnone
      rw [getD_of_nonNull_eq_none (Option.not_isSome_iff_eq_none.mp hnone)]
      rfl
  by_cases himage : typeOf b = some "image"
  · simp only [toolResultPart, htype, blockType_of_typeOf himage]
    unfold dropRaw
    rw [if_neg ht, if_pos himage]
    split
    · rfl
    · rfl
    · rename_i v hobject hsource
      rw [Value.get_remove_self, hsource]
      exact (imagePart_eq_null hobject).symm
  · have hsame : dropRaw b = b := by rw [dropRaw, if_neg ht, if_neg himage]
    rw [hsame]

/-! ## Tool results -/

/-- A tool result with other parts. -/
def mapResult (f : Value → Value) (b : Value) (cs : List Value) : Value :=
  b.set "content" (.array (cs.map f))

section

variable {b : Value} {cs : List Value} {f : Value → Value}

theorem get_mapResult (hcontent : b.get "content" = some (.array cs)) (key : String) :
    (mapResult f b cs).get key = if key = "content" then some (.array (cs.map f)) else b.get key :=
  Value.get_set_of_get hcontent "content" key

theorem typeOf_mapResult (hcontent : b.get "content" = some (.array cs)) :
    typeOf (mapResult f b cs) = typeOf b := by
  rw [typeOf, get_mapResult hcontent, if_neg (by decide), typeOf]

/-- It shows what its parts do. -/
theorem not_hasPayload_mapResult {p : Payload} (ht : typeOf b = some "tool_result")
    (hcontent : b.get "content" = some (.array cs))
    (hp : (∃ field v, p = .image field v) ∨ ∃ v, p = .raw v) (hf : ∀ c, ¬Shows (f c) p) :
    ¬HasPayload (mapResult f b cs) p := by
  intro h
  have hnew : (mapResult f b cs).get "content" = some (.array (cs.map f)) := by
    rw [get_mapResult hcontent, if_pos rfl]
  rcases h.of_toolResult ((typeOf_mapResult hcontent).trans ht) with ⟨v, rfl, -⟩ | h
  · rcases hp with ⟨_, _, hp⟩ | ⟨_, hp⟩ <;> cases hp
  · rw [hnew] at h
    cases h with
    | shown hc hshows =>
      obtain ⟨c, -, rfl⟩ := List.mem_map.mp hc
      exact hf c hshows
    | other => rcases hp with ⟨_, _, hp⟩ | ⟨_, hp⟩ <;> cases hp
    | raw hv _ hcs => exact hcs _ (Option.some.inj hv).symm

/-- And it is used in the same way if its parts are. -/
theorem sameUse_mapResult (role : String) (ht : typeOf b = some "tool_result")
    (hcontent : b.get "content" = some (.array cs)) (htype : ∀ c, typeOf (f c) = typeOf c)
    (htext : ∀ c, typeOf c = some "text" → (f c).get "text" = c.get "text")
    (hpart : ∀ c, toolResultPart serde (f c) = toolResultPart serde c) :
    SameUse serde role b (mapResult f b cs) := by
  have hget : ∀ key, key ≠ "content" → (mapResult f b cs).get key = b.get key :=
    fun key hkey => by rw [get_mapResult hcontent, if_neg hkey]
  have hnew : (mapResult f b cs).get "content" = some (.array (cs.map f)) := by
    rw [get_mapResult hcontent, if_pos rfl]
  refine .toolResult serde role ht ((typeOf_mapResult hcontent).trans ht) ?_ fun _ => ?_
  · rw [hnew, hcontent]
    have htexts : ∀ c, (if typeOf (f c) = some "text" then (f c).get "text" >>= asStr else none) =
        if typeOf c = some "text" then c.get "text" >>= asStr else none := fun c => by
      rw [htype]
      split
      · rename_i hc
        rw [htext c hc]
      · rfl
    simp only [Option.getD_some, extractTextFromContent, List.filterMap_map, Function.comp_def,
      htexts]
  · simp only [toolMessage, hnew, hcontent, hget "is_error" (by decide),
      hget "tool_use_id" (by decide), Option.getD_some, convertToolResultContentToOpenai,
      List.map_map, Function.comp_def, hpart]

end

/-- A tool result without an id that is no string. -/
theorem sameUse_remove_id (role : String) {b v : Value} (ht : typeOf b = some "tool_result")
    (hid : nonNull (b.get "tool_use_id") = some v) (hv : ¬∃ s, v = .string s) :
    SameUse serde role b (b.remove "tool_use_id") := by
  have hget : ∀ key, key ≠ "tool_use_id" → (b.remove "tool_use_id").get key = b.get key :=
    fun key hkey => Value.get_remove_of_ne hkey b
  refine .toolResult serde role ht ((typeOf_remove (by decide) b).trans ht) ?_ fun _ => ?_
  · rw [hget "content" (by decide)]
  · simp only [toolMessage, hget "content" (by decide), hget "is_error" (by decide),
      asStr_get_remove hid hv]

/-- A tool result without a content that is neither a text nor a list of parts. -/
theorem sameUse_remove_content (role : String) {b v : Value} (ht : typeOf b = some "tool_result")
    (hcontent : nonNull (b.get "content") = some v) (hs : ∀ s, v ≠ .string s)
    (hcs : ∀ cs, v ≠ .array cs) : SameUse serde role b (b.remove "content") := by
  have hget : ∀ key, key ≠ "content" → (b.remove "content").get key = b.get key :=
    fun key hkey => Value.get_remove_of_ne hkey b
  have hextract : extractTextFromContent v = extractTextFromContent .null ∧
      convertToolResultContentToOpenai serde v = convertToolResultContentToOpenai serde .null := by
    cases v with
    | string s => exact absurd rfl (hs s)
    | array cs => exact absurd rfl (hcs cs)
    | _ => exact ⟨rfl, rfl⟩
  refine .toolResult serde role ht ((typeOf_remove (by decide) b).trans ht) ?_ fun _ => ?_
  · rw [Value.get_remove_self, eq_of_nonNull hcontent, Option.getD_some, Option.getD_none, hextract.1]
  · simp only [toolMessage, Value.get_remove_self, eq_of_nonNull hcontent, Option.getD_some,
      Option.getD_none, hextract.2, hget "is_error" (by decide), hget "tool_use_id" (by decide)]

/-- A tool result with the texts of another one, and nothing else. -/
def textsOnly (b : Value) : Value :=
  .object [("type", .string "tool_result"),
    ("content", .string (extractTextFromContent ((b.get "content").getD .null)))]

theorem text_of_hasPayload_textsOnly {b : Value} {p : Payload} (h : HasPayload (textsOnly b) p) :
    ∃ s, p = .text (.string s) := by
  rcases h.of_toolResult rfl with ⟨v, rfl, hid⟩ | h
  · cases hid
  · generalize hcontent : (textsOnly b).get "content" = content at h
    obtain rfl := hcontent.symm
    cases h with
    | string => exact ⟨_, rfl⟩
    | raw hv hs _ => exact absurd (Option.some.inj hv).symm (hs _)

theorem sameUse_textsOnly {b : Value} (ht : typeOf b = some "tool_result") :
    SameUse serde "assistant" b (textsOnly b) :=
  .toolResult serde _ ht rfl rfl fun h => absurd rfl h

end ApertureRouter
