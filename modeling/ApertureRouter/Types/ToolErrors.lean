import ApertureRouter.Types.History

/-!
# Errors of tools

An OpenAI tool message has no field for an error. `convert_anthropic_message_expanded` puts `Error: `
in front of the result instead, but only if the result has become a string. A result of several
blocks, or of an image, is an array of parts by then, and stays as it is.

* `MarkedAsError`: a tool message with the mark, against the one without.
* `toolError_visible_iff`: the message for a block with `is_error` has the mark exactly if its content
  is no array, or one block with a text.
-/

namespace ApertureRouter

/-- The mark of an error. -/
def errorPrefix : String := "Error: "

/-- The second content is the first one with the mark: on its text, or on its first text part. -/
inductive ErrorMarked : Value → Value → Prop where
  | text (s : String) : ErrorMarked (.string s) (.string (errorPrefix ++ s))
  | part {pre post : List Value} {text : String} (h : ∀ part ∈ pre, typeOf part ≠ some "text") :
      ErrorMarked (.array (pre ++ textPart (.string text) :: post))
        (.array (pre ++ textPart (.string (errorPrefix ++ text)) :: post))

/-- The message of a tool with the result `content`. -/
def toolResultMessage (id : String) (content : Value) : Value :=
  .object [("role", .string "tool"), ("tool_call_id", .string id), ("content", content)]

/-- The second message is the first one with the mark in its content. -/
def MarkedAsError (message marked : Value) : Prop :=
  ∃ id content content', message = toolResultMessage id content ∧
    marked = toolResultMessage id content' ∧ ErrorMarked content content'

/-- The content of a result that becomes a string: it is no array, or one block that is no image,
with a text if that is its type. -/
def BecomesText : Option Value → Prop
  | some (.array [b]) =>
    blockType b ≠ "image" ∧ (blockType b = "text" → ∃ text, b.get "text" = some (.string text))
  | some (.array _) => False
  | _ => True

/-! ## The content of a result -/

variable (serde : Serde)

theorem toolResultPart_text {b : Value} :
    (∃ text, (toolResultPart serde b).get "text" >>= Value.asStr = some text) ↔
      blockType b ≠ "image" ∧
        (blockType b = "text" → ∃ text, b.get "text" = some (.string text)) := by
  unfold toolResultPart
  split
  · rename_i htype
    rw [htype]
    refine ⟨fun ⟨text, htext⟩ => ⟨by decide, fun _ => ⟨text, ?_⟩⟩, fun h => ?_⟩
    · have hget : (textPart ((b.get "text").getD .null)).get "text" =
          some ((b.get "text").getD .null) := rfl
      rw [hget] at htext
      cases hb : b.get "text" with
      | none =>
        rw [hb] at htext
        cases htext
      | some v =>
        rw [hb] at htext
        cases v with
        | string s => exact congrArg (fun s => some (Value.string s)) (Option.some.inj htext)
        | _ => cases htext
    · obtain ⟨text, htext⟩ := h.2 rfl
      exact ⟨text, by rw [htext]; rfl⟩
  · rename_i htype
    rw [htype]
    exact iff_of_false (fun ⟨_, h⟩ => by cases h) fun h => h.1 rfl
  · rename_i htext himage
    exact iff_of_true ⟨_, rfl⟩ ⟨fun h => himage h, fun h => absurd h htext⟩

/-- A result is a string, or a list of parts. -/
theorem convertToolResultContent_cases (content : Option Value) :
    (BecomesText content ∧
      ∃ s, convertToolResultContentToOpenai serde (content.getD .null) = .string s) ∨
    (¬ BecomesText content ∧
      ∃ parts, convertToolResultContentToOpenai serde (content.getD .null) = .array parts) := by
  rcases content with _ | content
  · exact .inl ⟨trivial, "", rfl⟩
  · cases content with
    | string s => exact .inl ⟨trivial, s, rfl⟩
    | array blocks =>
      match blocks with
      | [] => exact .inr ⟨id, [], rfl⟩
      | [b] =>
        have htext := toolResultPart_text serde (b := b)
        rw [Option.getD_some]
        cases hpart : (toolResultPart serde b).get "text" >>= Value.asStr with
        | some text =>
          exact .inl ⟨htext.mp ⟨text, hpart⟩, text, by
            simp only [convertToolResultContentToOpenai, List.map_cons, List.map_nil, hpart]⟩
        | none =>
          refine .inr ⟨fun h => ?_, [toolResultPart serde b], by
            simp only [convertToolResultContentToOpenai, List.map_cons, List.map_nil, hpart]⟩
          obtain ⟨text, heq⟩ := htext.mpr h
          rw [hpart] at heq
          cases heq
      | b₁ :: b₂ :: blocks => exact .inr ⟨id, _, rfl⟩
    | _ => exact .inl ⟨trivial, "", rfl⟩

/-- A mark changes a content. -/
theorem ErrorMarked.ne {content marked : Value} (h : ErrorMarked content marked) :
    content ≠ marked := by
  have hlonger : ∀ s : String, s ≠ errorPrefix ++ s := fun s heq => by
    have hlen := congrArg String.length heq
    rw [String.length_append] at hlen
    have hpos : errorPrefix.length = 7 := by decide
    omega
  cases h with
  | text s => exact fun heq => hlonger s (Value.string.inj heq)
  | part _ =>
    intro heq
    have hpart := (List.cons.inj (List.append_cancel_left (Value.array.inj heq))).1
    injection hpart with hfields
    simp only [List.cons.injEq, Prod.mk.injEq, Value.string.injEq, true_and, and_true] at hfields
    exact hlonger _ hfields

/-! ## The message of a block -/

/-- The message of a block, by the content that its result becomes. -/
theorem toolMessage_eq (b : Value) :
    toolMessage serde b = toolResultMessage ((b.get "tool_use_id" >>= Value.asStr).getD "")
      (if (b.get "is_error" >>= Value.asBool).getD false then
        match (convertToolResultContentToOpenai serde ((b.get "content").getD .null)).asStr with
        | some s => .string (errorPrefix ++ s)
        | none => convertToolResultContentToOpenai serde ((b.get "content").getD .null)
      else convertToolResultContentToOpenai serde ((b.get "content").getD .null)) := rfl

/-- **One block.** -/
theorem toolMessage_marked_iff {b : Value} (herror : b.get "is_error" = some (.bool true)) :
    MarkedAsError (toolMessage serde (b.remove "is_error")) (toolMessage serde b) ↔
      BecomesText (b.get "content") := by
  rw [toolMessage_eq, toolMessage_eq, Value.get_remove_self, herror,
    Value.get_remove_of_ne (by decide), Value.get_remove_of_ne (by decide)]
  generalize (b.get "tool_use_id" >>= Value.asStr).getD "" = id
  have hplain : ((none : Option Value) >>= Value.asBool).getD false = false := rfl
  have hmarked : (some (Value.bool true) >>= Value.asBool).getD false = true := rfl
  rw [hplain, hmarked, if_neg Bool.false_ne_true, if_pos rfl]
  rcases convertToolResultContent_cases serde (b.get "content") with
    ⟨htext, s, hs⟩ | ⟨hparts, parts, hp⟩
  · rw [hs]
    exact iff_of_true ⟨id, _, _, rfl, rfl, .text s⟩ htext
  · rw [hp]
    refine iff_of_false (fun h => ?_) hparts
    obtain ⟨id₁, content₁, content₂, h₁, h₂, hmark⟩ := h
    have heq : toolResultMessage id₁ content₁ = toolResultMessage id₁ content₂ := h₁.symm.trans h₂
    injection heq with hfields
    simp only [List.cons.injEq, Prod.mk.injEq, true_and, and_true] at hfields
    exact hmark.ne hfields

/-! ## The message in a request -/

/-- The turn has the block between others, and is no assistant turn. -/
structure HasResult (turn b : Value) (before after : List Value) : Prop where
  role : turnRole turn ≠ "assistant"
  content : turn.get "content" = some (.array (before ++ b :: after))
  result : isToolResult b = true

/-- The block has its message at its place among those of the turn. -/
theorem HasResult.convertTurn_eq {turn b : Value} {before after : List Value}
    (h : HasResult turn b before after) :
    convertTurn serde turn = (before.filter isToolResult).map (toolMessage serde) ++
      toolMessage serde b :: ((after.filter isToolResult).map (toolMessage serde) ++
        followUp serde ((before ++ b :: after).filter fun b => !isToolResult b)) := by
  have hresults : ((before ++ b :: after).filter isToolResult).map (toolMessage serde) =
      (before.filter isToolResult).map (toolMessage serde) ++
        toolMessage serde b :: (after.filter isToolResult).map (toolMessage serde) := by
    rw [List.filter_append, List.filter_cons_of_pos h.result, List.map_append, List.map_cons]
  have hne : ((before ++ b :: after).filter isToolResult).map (toolMessage serde) ≠ [] := by
    rw [hresults]
    exact List.append_ne_nil_of_right_ne_nil _ (List.cons_ne_nil _ _)
  unfold convertTurn convertAnthropicMessageExpanded
  rw [if_neg h.role, h.content]
  dsimp only
  rw [List.isEmpty_eq_false_iff.mpr hne, if_neg Bool.false_ne_true, hresults, List.append_assoc,
    List.cons_append]

/-- The turn with another block in the place of `b`. -/
theorem HasResult.replace {turn b b' : Value} {before after : List Value}
    (h : HasResult turn b before after) (hb : typeOf b' = typeOf b) :
    HasResult (turn.set "content" (.array (before ++ b' :: after))) b' before after where
  role := by
    rw [turnRole, Value.get_set_of_get h.content, if_neg (by decide)]
    exact h.role
  content := by rw [Value.get_set_of_get h.content, if_pos rfl]
  result := by
    rw [isToolResult, blockType, hb]
    exact h.result

/-- The request has the turn between others. -/
def HasTurn (anthropic turn : Value) (before after : List Value) : Prop :=
  anthropic.get "messages" = some (.array (before ++ turn :: after))

theorem HasTurn.requestMessages_eq {anthropic turn : Value} {before after : List Value}
    (h : HasTurn anthropic turn before after) :
    requestMessages serde anthropic = systemMessages anthropic ++ before.flatMap (convertTurn serde) ++
      (convertTurn serde turn ++ after.flatMap (convertTurn serde)) := by
  rw [requestMessages, turnsOf, h]
  show _ ++ (before ++ turn :: after).flatMap _ = _
  rw [List.flatMap_append, List.flatMap_cons, List.append_assoc]

/-- The turn without the `is_error` of its block. -/
def withoutError (turn b : Value) (before after : List Value) : Value :=
  turn.set "content" (.array (before ++ b.remove "is_error" :: after))

/-- **Errors of tools.** The converted requests with and without the `is_error` of a block are the same
up to the message of the block, and this one has the mark exactly if the content becomes a text. -/
theorem toolError_visible_iff {anthropic turn b : Value}
    {turnsBefore turnsAfter before after : List Value}
    (hturn : HasTurn anthropic turn turnsBefore turnsAfter) (hresult : HasResult turn b before after)
    (herror : b.get "is_error" = some (.bool true)) :
    ∃ pre post,
      (anthropicRequestToOpenai serde anthropic).get "messages" =
        some (.array (pre ++ toolMessage serde b :: post)) ∧
      (anthropicRequestToOpenai serde (anthropic.set "messages"
          (.array (turnsBefore ++ withoutError turn b before after :: turnsAfter)))).get "messages" =
        some (.array (pre ++ toolMessage serde (b.remove "is_error") :: post)) ∧
      (MarkedAsError (toolMessage serde (b.remove "is_error")) (toolMessage serde b) ↔
        BecomesText (b.get "content")) := by
  have htype : typeOf (b.remove "is_error") = typeOf b := by
    rw [typeOf, Value.get_remove_of_ne (by decide), typeOf]
  have hresult' := hresult.replace htype
  have hplain : isToolResult (b.remove "is_error") = true := hresult'.result
  have hturn' : HasTurn (anthropic.set "messages"
      (.array (turnsBefore ++ withoutError turn b before after :: turnsAfter)))
      (withoutError turn b before after) turnsBefore turnsAfter := by
    rw [HasTurn, Value.get_set_of_get hturn, if_pos rfl]
  have hsystem : systemMessages (anthropic.set "messages"
      (.array (turnsBefore ++ withoutError turn b before after :: turnsAfter))) =
      systemMessages anthropic := by
    rw [systemMessages, Value.get_set_of_get hturn, if_neg (by decide), systemMessages]
  -- The other blocks of the turn are the same with and without the error.
  have hothers : (before ++ b.remove "is_error" :: after).filter (fun b => !isToolResult b) =
      (before ++ b :: after).filter fun b => !isToolResult b := by
    rw [List.filter_append, List.filter_append, List.filter_cons_of_neg (by simp [hplain]),
      List.filter_cons_of_neg (by simp [hresult.result])]
  refine ⟨systemMessages anthropic ++ turnsBefore.flatMap (convertTurn serde) ++
      (before.filter isToolResult).map (toolMessage serde),
    (after.filter isToolResult).map (toolMessage serde) ++
      followUp serde ((before ++ b :: after).filter fun b => !isToolResult b) ++
      turnsAfter.flatMap (convertTurn serde), ?_, ?_, toolMessage_marked_iff serde herror⟩
  · rw [get_messages, hturn.requestMessages_eq, hresult.convertTurn_eq]
    simp only [List.append_assoc, List.cons_append]
  · rw [get_messages, hturn'.requestMessages_eq, hsystem, withoutError, hresult'.convertTurn_eq,
      hothers]
    simp only [List.append_assoc, List.cons_append]

/-- A failed tool, with a result of two texts. -/
def failedResult : Value :=
  .object [("type", .string "tool_result"), ("tool_use_id", .string "t"), ("is_error", .bool true),
    ("content", .array [textPart (.string "line 1"), textPart (.string "line 2")])]

/-- The turn that reports it. -/
def failedTurn : Value := .object [("role", .string "user"), ("content", .array [failedResult])]

def failedRequest : Value := .object [("messages", .array [failedTurn])]

theorem hasResult_failedTurn : HasResult failedTurn failedResult [] [] :=
  ⟨by decide, rfl, rfl⟩

theorem toolError_visible_iff_failedRequest :
    ∃ pre post,
      (anthropicRequestToOpenai (tableSerde []) failedRequest).get "messages" =
        some (.array (pre ++ toolMessage (tableSerde []) failedResult :: post)) ∧
      (anthropicRequestToOpenai (tableSerde []) (failedRequest.set "messages"
          (.array ([] ++ withoutError failedTurn failedResult [] [] :: [])))).get "messages" =
        some (.array (pre ++
          toolMessage (tableSerde []) (failedResult.remove "is_error") :: post)) ∧
      (MarkedAsError (toolMessage (tableSerde []) (failedResult.remove "is_error"))
          (toolMessage (tableSerde []) failedResult) ↔
        BecomesText (failedResult.get "content")) :=
  toolError_visible_iff (tableSerde []) rfl hasResult_failedTurn rfl

/-- The failed run of the tool looks like a successful one. -/
theorem failedResult_unmarked :
    failedResult.get "is_error" = some (.bool true) ∧
      toolMessage (tableSerde []) failedResult =
        toolMessage (tableSerde []) (failedResult.remove "is_error") ∧
      ¬ MarkedAsError (toolMessage (tableSerde []) (failedResult.remove "is_error"))
        (toolMessage (tableSerde []) failedResult) :=
  ⟨rfl, rfl, fun h => (toolMessage_marked_iff (tableSerde []) rfl).mp h⟩

end ApertureRouter
