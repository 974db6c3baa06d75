import ApertureRouter.Types.Assistant
import ApertureRouter.Types.Request

/-!
# A response sent back

A client sends the content of a response back as an assistant turn of its next request. The turn
becomes one message, which says what the upstream said (`IsHistoryMessage`) but for the reasoning:
the message is the same whatever the reasoning was.
-/

namespace ApertureRouter

open Value (asStr asArray)

/-- An element of `tool_calls` with the id and the name of the call and arguments that parse to the
same value. -/
def SameCall (serde : Serde) (tc : Value) (call : Call) : Prop :=
  ∃ arguments, IsToolCall tc { call with arguments := arguments } ∧
    serde.fromStr arguments = serde.fromStr call.arguments

/-- An assistant message with the text and the calls, and nothing else. Without text, its content is
`null`. -/
structure IsHistoryMessage (serde : Serde) (m : Value) (text : String) (calls : List Call) :
    Prop where
  role : m.get "role" = some (.string "assistant")
  content : m.get "content" = some (if text = "" then .null else .string text)
  calls : List.Forall₂ (SameCall serde) ((m.get "tool_calls" >>= asArray).getD []) calls
  fields : ∀ key v, m.get key = some v → key ∈ ["role", "content", "tool_calls"]

section

variable (serde : Serde)

/-- The `tool_calls` for the calls of a response. -/
def historyCalls (calls : List Call) : List Value :=
  (calls.map (·.block serde)).zipIdx.map fun e => toolCallOf serde e.1 e.2

/-- The message for a response with the text and the calls. -/
def historyMessage (text : String) (calls : List Call) : Value :=
  let content := if text = "" then .null else .string text
  if calls = [] then plainMessage "assistant" content
  else .object [("role", .string "assistant"), ("content", content),
    ("tool_calls", .array (historyCalls serde calls))]

/-! ## The calls -/

/-- A call whose arguments are JSON comes back with arguments that parse to the same value. -/
theorem Call.sameCall {call : Call} {v : Value} (hv : serde.fromStr call.arguments = some v)
    (hprint : serde.fromStr (serde.toString v) = some v) (tcIndex : Nat) :
    SameCall serde (toolCallOf serde (call.block serde) tcIndex) call := by
  have hinput : toolInput serde (some call.arguments) = v := by simp [toolInput, hv]
  refine ⟨serde.toString v, ⟨rfl, rfl, ?_⟩, by rw [hprint, hv]⟩
  rw [← hinput]
  rfl

theorem historyCalls_sameCalls {calls : List Call}
    (hargs : ∀ call ∈ calls, ∃ fields, serde.fromStr call.arguments = some (.object fields))
    (hprint : ∀ call ∈ calls, ∀ v, serde.fromStr call.arguments = some v →
      serde.fromStr (serde.toString v) = some v) :
    List.Forall₂ (SameCall serde) (historyCalls serde calls) calls := by
  suffices h : ∀ n, List.Forall₂ (SameCall serde)
      (((calls.map (·.block serde)).zipIdx n).map fun e => toolCallOf serde e.1 e.2) calls from h 0
  induction calls with
  | nil => exact fun _ => .nil
  | cons call calls ih =>
    intro n
    obtain ⟨fields, hv⟩ := hargs call (by simp)
    refine .cons (call.sameCall serde hv (hprint call (by simp) _ hv) n) ?_
    exact ih (fun c hc => hargs c (by simp [hc])) (fun c hc => hprint c (by simp [hc])) (n + 1)

theorem historyMessage_isHistoryMessage {text : String} {calls : List Call}
    (hargs : ∀ call ∈ calls, ∃ fields, serde.fromStr call.arguments = some (.object fields))
    (hprint : ∀ call ∈ calls, ∀ v, serde.fromStr call.arguments = some v →
      serde.fromStr (serde.toString v) = some v) :
    IsHistoryMessage serde (historyMessage serde text calls) text calls := by
  have hfield : ∀ (m : List (String × Value)) key v, (Value.object m).get key = some v →
      key ∈ m.map Prod.fst := by
    intro m key v h
    obtain ⟨l₁, l₂, rfl, -⟩ := List.lookup_eq_some_iff.mp h
    simp
  unfold historyMessage
  by_cases hc : calls = []
  · subst hc
    rw [if_pos rfl]
    refine ⟨rfl, rfl, .nil, fun key v h => ?_⟩
    have := hfield _ key v h
    simp only [List.map_cons, List.map_nil, List.mem_cons, List.not_mem_nil, or_false] at this ⊢
    tauto
  · simp only
    rw [if_neg hc]
    exact ⟨rfl, rfl, historyCalls_sameCalls serde hargs hprint, fun key v h => hfield _ key v h⟩

/-! ## The turn -/

theorem filter_isToolUse (reasoning text : String) (calls : List Call) :
    (assistantBlocks serde reasoning text calls).filter isToolUse = calls.map (·.block serde) := by
  have hcalls : (calls.map (·.block serde)).filter isToolUse = calls.map (·.block serde) := by
    rw [List.filter_eq_self]
    intro b hb
    obtain ⟨call, -, rfl⟩ := List.mem_map.mp hb
    rfl
  have htexts : ((if reasoning = "" then [] else [thinkingBlock reasoning]) ++
      if text = "" then [] else [textBlock text]).filter isToolUse = [] := by
    split <;> split <;> rfl
  rw [assistantBlocks, List.filter_append, hcalls, htexts, List.nil_append]

theorem filterMap_blockText (reasoning text : String) (calls : List Call) :
    (assistantBlocks serde reasoning text calls).filterMap blockText =
      if text = "" then [] else [textPart (.string text)] := by
  have hcalls : (calls.map (·.block serde)).filterMap blockText = [] := by
    rw [List.filterMap_eq_nil_iff]
    intro b hb
    obtain ⟨call, -, rfl⟩ := List.mem_map.mp hb
    rfl
  rw [assistantBlocks, List.filterMap_append, hcalls, List.append_nil, List.filterMap_append]
  split <;> split <;> rfl

/-- The blocks of a response become one message. -/
theorem convertAssistantBlocks_assistantBlocks (reasoning : String) {text : String}
    {calls : List Call} (hne : text ≠ "" ∨ calls ≠ []) :
    convertAssistantBlocks serde (assistantBlocks serde reasoning text calls) =
      [historyMessage serde text calls] := by
  have hany : (assistantBlocks serde reasoning text calls).any isToolUse = !calls.isEmpty := by
    have hmem : (assistantBlocks serde reasoning text calls).any isToolUse = true ↔
        (assistantBlocks serde reasoning text calls).filter isToolUse ≠ [] := by
      simp [List.filter_eq_nil_iff]
    rw [Bool.eq_iff_iff, hmem, filter_isToolUse]
    cases calls <;> simp
  unfold convertAssistantBlocks historyMessage
  simp only [assistantParts_eq, hany, filter_isToolUse, filterMap_blockText, AssistantParts.message]
  by_cases hc : calls = []
  · have ht := hne.resolve_right fun h => h hc
    subst hc
    have hfilter : (assistantBlocks serde reasoning text []).filter (fun b => !isThinking b) =
        [textBlock text] := by
      rw [assistantBlocks, if_neg ht]
      split <;> rfl
    simp only [hfilter, if_neg ht, if_true]
    rfl
  · rw [if_pos (by simpa using hc), if_neg hc, historyCalls]
    by_cases ht : text = ""
    · simp [ht]
    · simp only [ht, if_false]
      rfl

/-- **Round trip.** The content of a response, sent back as an assistant turn, becomes one message
with the text and the calls of the upstream's message, whatever its reasoning is. -/
theorem response_roundTrip {text : String} {calls : List Call} (hne : text ≠ "" ∨ calls ≠ [])
    (hargs : ∀ call ∈ calls, ∃ fields, serde.fromStr call.arguments = some (.object fields))
    (hprint : ∀ call ∈ calls, ∀ v, serde.fromStr call.arguments = some v →
      serde.fromStr (serde.toString v) = some v) :
    ∃ m, IsHistoryMessage serde m text calls ∧
      ∀ (reasoning : String) (openai msg : Value),
        (firstChoice openai >>= (·.get "message")) = some msg →
        IsAssistantMessage msg reasoning text calls →
        ∀ (uuid : String) (anthropic turn : Value) (before after : List Value),
          anthropic.get "messages" = some (.array (before ++ turn :: after)) →
          turn.get "role" = some (.string "assistant") →
          turn.get "content" = (openaiResponseToAnthropic serde uuid openai).get "content" →
          (anthropicRequestToOpenai serde anthropic).get "messages" =
            some (.array (systemMessages anthropic ++ before.flatMap (convertTurn serde) ++
              m :: after.flatMap (convertTurn serde))) := by
  refine ⟨historyMessage serde text calls, historyMessage_isHistoryMessage serde hargs hprint, ?_⟩
  intro reasoning openai msg hmsg hcontent uuid anthropic turn before after hturns hrole hblocks
  have hblocks' : turn.get "content" =
      some (.array (assistantBlocks serde reasoning text calls)) := by
    rw [hblocks, ← responseContent_eq serde hmsg hcontent (.inr hne)]
    rfl
  have hturn : convertTurn serde turn = [historyMessage serde text calls] := by
    rw [convertTurn, turnRole, hrole, hblocks',
      ← convertAssistantBlocks_assistantBlocks serde reasoning hne]
    rfl
  rw [get_messages, requestMessages, turnsOf, hturns]
  simp [hturn]

end

/-- `serde_json` on the empty object. -/
def emptyObjectSerde : Serde where
  fromStr s := if s = "\x7b\x7d" then some (.object []) else none
  toString
    | .object [] => "\x7b\x7d"
    | _ => "null"

def sampleTurn : Value := .object [("role", .string "assistant"),
  ("content", .array (responseContent emptyObjectSerde sampleCompletion))]

/-- A user turn, and the response to it. -/
def sampleHistory : Value := .object [("messages", .array [
  .object [("role", .string "user"), ("content", .string "hi")], sampleTurn])]

theorem response_roundTrip_sample :
    ∃ m, IsHistoryMessage emptyObjectSerde m "t" sampleCalls ∧
      (anthropicRequestToOpenai emptyObjectSerde sampleHistory).get "messages" =
        some (.array [plainMessage "user" (.string "hi"), m]) := by
  have hne : "t" ≠ "" ∨ sampleCalls ≠ [] := .inl (by decide)
  obtain ⟨m, hm, h⟩ := response_roundTrip emptyObjectSerde hne
    (by simp [sampleCalls, emptyObjectSerde]) (by simp [sampleCalls, emptyObjectSerde])
  exact ⟨m, hm, h "r" sampleCompletion sampleMessage rfl sampleMessage_isAssistantMessage "0"
    sampleHistory sampleTurn [_] [] rfl rfl rfl⟩

end ApertureRouter
