import ApertureRouter.Stream.Encodings

/-!
# The stream and the response agree

The two converters on one assistant message: `openaiResponseToAnthropic` on the whole of it, the
stream converter on any of its streamings. A streaming has reasoning, then text, then tool calls
(`Parts.step`); in its tool calls each fragment has an index.

* `Parts.kept`: the client's blocks are a thinking block for the reasoning so far, a text block for
  the text so far, and tool blocks behind them.
* `Encoding.Placed.tools`: with `Collects`, the tool blocks are those of the calls, in order.
* `stream_eq_response`: the blocks that the client puts together are the blocks of the response.
-/

namespace ApertureRouter

open Emit
open Keyed (keys)

/-! ## Reasoning, then text, then calls -/

/-- What a list of fragments has said so far, part by part. -/
structure Parts where
  reasoning : String := ""
  text : String := ""
  calls : Bool := false
  deriving DecidableEq, Repr

/-- The next fragment of a message: no reasoning after the text, no text after a call. Empty texts
may come anywhere. -/
def Parts.step (p : Parts) : Fragment → Option Parts
  | .reasoning s =>
    if s = "" then some p
    else if p.text = "" ∧ p.calls = false then some { p with reasoning := p.reasoning ++ s }
    else none
  | .content s =>
    if s = "" then some p
    else if p.calls = false then some { p with text := p.text ++ s }
    else none
  | .toolCalls | .toolCall _ => some { p with calls := true }

/-- The parts of a list of fragments, if they come in this order. -/
def partsOf (fs : List Fragment) : Option Parts := fs.foldlM Parts.step {}

namespace Parts

/-- The thinking and the text block. -/
def texts (p : Parts) : List (ContentBlock × String) :=
  (if p.reasoning = "" then [] else [(.thinking, p.reasoning)]) ++
    if p.text = "" then [] else [(.text, p.text)]

/-- The block that is open before the calls. -/
def current (p : Parts) : Option ContentBlock :=
  if p.text ≠ "" then some .text else if p.reasoning ≠ "" then some .thinking else none

/-- The contents of a client that has read the parts `p`. -/
def Shape (p : Parts) (c : StreamState) (v : List (ContentBlock × String)) : Prop :=
  ∃ tools, v = p.texts ++ tools ∧ (∀ e ∈ tools, e.1.toolCall?.isSome = true) ∧
    (p.calls = false → tools = [] ∧ c.current = p.current)

theorem toolCall?_of_mem_texts {p : Parts} {e : ContentBlock × String} (h : e ∈ p.texts) :
    e.1.toolCall? = none := by
  rw [texts, List.mem_append] at h
  rcases h with h | h
  · split at h
    · cases h
    · rw [List.mem_singleton.mp h]
      rfl
  · split at h
    · cases h
    · rw [List.mem_singleton.mp h]
      rfl

end Parts

/-! ## The current block after a text -/

theorem writeDelta_current (d : Delta) (c : StreamState) :
    ((emitDelta d >> countDelta) c).1.current = c.current := by
  rw [Prog.andThen_apply, countDelta, Prog.cond_apply]
  split <;> rfl

theorem Tracks.convertReasoning_current {lost : List Nat} {c : StreamState} {m : Client}
    (h : Tracks lost c m) {s : String} (hs : s ≠ "") :
    (ApertureRouter.convertReasoning s c).1.current = some .thinking := by
  obtain ⟨-, -, -, hcur, -⟩ := h.openThinkingBlock
  rw [ApertureRouter.convertReasoning, Prog.cond_pos (by simp [hs]), Prog.andThen_apply,
    writeDelta_current, hcur]

theorem convertContent_current {s : String} (hs : s ≠ "") (c : StreamState) :
    (convertContent s c).1.current = some .text := by
  have hopen : ∀ c, (openTextBlock c).1.current = some .text := by
    intro c
    rw [openTextBlock, Prog.cond_apply]
    split
    · rfl
    · rename_i ht
      exact StreamState.current_text.mpr (by simpa using ht)
  rw [convertContent, Prog.cond_pos (by simp [hs]), Prog.andThen_apply, Prog.andThen_apply,
    writeDelta_current, hopen]

/-! ## One fragment -/

/-- A piece behind the last block. -/
theorem writeCurrent_last {k : ContentBlock} {current : Option ContentBlock}
    (v : List (ContentBlock × String)) (p s : String) (hc : current = some k) :
    writeCurrent k current s (v ++ [(k, p)]) = v ++ [(k, p ++ s)] := by
  rw [writeCurrent, if_pos hc]
  simpa using appendAt_last v k p s

theorem writeCurrent_new {k : ContentBlock} {current : Option ContentBlock}
    (v : List (ContentBlock × String)) (s : String) (hc : current ≠ some k) :
    writeCurrent k current s v = v ++ [(k, s)] := by
  rw [writeCurrent, if_neg hc]

namespace Parts

variable {order : IterOrder Nat ToolBlockState} {p p' : Parts} {lost : List Nat} {c : StreamState}
  {m : Client}

theorem writeCurrent_reasoning (ht : p.text = "") {s : String} (hs : s ≠ "") :
    writeCurrent .thinking p.current s p.texts =
      texts { p with reasoning := p.reasoning ++ s } := by
  by_cases hr : p.reasoning = ""
  · rw [writeCurrent_new _ _ (by simp [current, ht, hr])]
    simp [texts, hr, ht, hs]
  · have hc : p.current = some .thinking := by simp [current, ht, hr]
    have := writeCurrent_last [] p.reasoning s hc
    simpa [texts, hr, ht] using this

theorem writeCurrent_content {s : String} (hs : s ≠ "") :
    writeCurrent .text p.current s p.texts = texts { p with text := p.text ++ s } := by
  by_cases ht : p.text = ""
  · rw [writeCurrent_new _ _ (by by_cases hr : p.reasoning = "" <;> simp [current, ht, hr])]
    simp [texts, ht, hs]
  · have hc : p.current = some .text := by simp [current, ht]
    have := writeCurrent_last (if p.reasoning = "" then [] else [(.thinking, p.reasoning)]) p.text s hc
    simpa [texts, ht] using this

/-- A tool call leaves the texts alone. -/
theorem Shape.toolCall (h : p.Shape c m.contents) (ht : Tracks lost c m) (tc : Value)
    (c' : StreamState) :
    Shape { p with calls := true } c' (toolCallContents order c tc m.contents) := by
  obtain ⟨tools, hv, htools, -⟩ := h
  rw [toolCallContents]
  split
  · refine ⟨tools ++ [_], by rw [hv, List.append_assoc]; rfl, fun e he => ?_, by simp⟩
    rcases List.mem_append.mp he with he | he
    · exact htools e he
    · rw [List.mem_singleton.mp he]
      rfl
  · cases hg : c.toolBlocks.get (slotOf order c tc) with
    | none => exact ⟨tools, hv, htools, by simp⟩
    | some st =>
      obtain ⟨-, b, name, hb, hbs⟩ := ht.tool _ _ hg
      -- The block is no text block, so it is behind the texts.
      have hle : p.texts.length ≤ st.blockIndex := by
        by_contra hlt
        have hget : m.contents[st.blockIndex]? = some (b.start, b.payload) := by
          rw [Client.contents, List.getElem?_map, hb]
          rfl
        rw [hv, List.getElem?_append_left (by omega)] at hget
        have := toolCall?_of_mem_texts (List.mem_of_getElem? hget)
        rw [hbs] at this
        cases this
      rw [hv]
      refine ⟨_, appendAt_append_right hle _ tools, fun e he => ?_, by simp⟩
      have hmem : e.1 ∈ tools.map Prod.fst := by
        rw [← map_fst_appendAt]
        exact List.mem_map_of_mem he
      obtain ⟨e', he', hfst⟩ := List.mem_map.mp hmem
      rw [← hfst]
      exact htools e' he'

/-- A piece of reasoning or text before the calls. -/
theorem Shape.write {v : List (ContentBlock × String)} (h : p.Shape c v) (hp : p.calls = false)
    {k : ContentBlock} {s : String} (hw : writeCurrent k p.current s p.texts = p'.texts)
    {c' : StreamState} (hc' : c'.current = p'.current) :
    p'.Shape c' (writeCurrent k c.current s v) := by
  obtain ⟨tools, rfl, -, hbefore⟩ := h
  obtain ⟨rfl, hcur⟩ := hbefore hp
  rw [List.append_nil, hcur, hw]
  exact ⟨[], (List.append_nil _).symm, by simp, fun _ => ⟨rfl, hc'⟩⟩

/-- The next fragment of a message. -/
theorem Shape.fragment (h : p.Shape c m.contents) (ht : Tracks lost c m) {f : Fragment}
    (hf : p.step f = some p') :
    p'.Shape (convertFragment order f c).1 (contentsAfter order c m.contents f) := by
  cases f with
  | reasoning s =>
    rw [step] at hf
    rw [contentsAfter, convertFragment]
    by_cases hs : s = ""
    · subst hs
      cases hf
      exact h
    · rw [if_neg hs] at hf
      obtain ⟨⟨htext, hcalls⟩, hp⟩ := Option.ite_none_right_eq_some.mp hf
      cases hp
      rw [if_neg hs]
      refine h.write hcalls (writeCurrent_reasoning htext hs) ?_
      rw [ht.convertReasoning_current hs]
      simp [current, htext, hs]
  | content s =>
    rw [step] at hf
    rw [contentsAfter, convertFragment]
    by_cases hs : s = ""
    · subst hs
      cases hf
      exact h
    · rw [if_neg hs] at hf
      obtain ⟨hcalls, hp⟩ := Option.ite_none_right_eq_some.mp hf
      cases hp
      rw [if_neg hs]
      refine h.write hcalls (writeCurrent_content hs) ?_
      rw [convertContent_current hs]
      simp [current, hs]
  | toolCalls =>
    cases hf
    obtain ⟨tools, hv, htools, -⟩ := h
    exact ⟨tools, hv, htools, by simp⟩
  | toolCall tc =>
    cases hf
    exact h.toolCall ht tc _

/-- The parts so far are the client's contents. -/
theorem kept (order : IterOrder Nat ToolBlockState) :
    KeptByFragments order fun fs c v => ∀ p, partsOf fs = some p → p.Shape c v where
  fragment := by
    intro fs lost c m f ht h p hp
    rw [partsOf, List.foldlM_append] at hp
    obtain ⟨p₀, hp₀, hf⟩ := Option.bind_eq_some_iff.mp hp
    exact (h p₀ hp₀).fragment ht (by simpa using hf)
  congr := by
    intro fs c c' v _ hcur h p hp
    obtain ⟨tools, hv, htools, hc⟩ := h p hp
    exact ⟨tools, hv, htools, by rw [hcur]; exact hc⟩

end Parts

/-! ## The blocks of the calls -/

/-- The `content_block` of a call. -/
def ToolCall.start (call : ToolCall) : ContentBlock := .toolUse call.id call.name

theorem ToolCall.start_injective : Function.Injective ToolCall.start := by
  rintro ⟨_, _⟩ ⟨_, _⟩ h
  cases h
  rfl

theorem map_fst_of_callsIn {l : List (ContentBlock × String)}
    (h : ∀ e ∈ l, e.1.toolCall?.isSome = true) : l.map Prod.fst = (callsIn l).map ToolCall.start := by
  induction l with
  | nil => rfl
  | cons e l ih =>
    obtain ⟨call, hcall⟩ := Option.isSome_iff_exists.mp (h e (by simp))
    have hstart : e.1 = call.start := by
      cases he : e.1 with
      | toolUse id name =>
        rw [he] at hcall
        cases hcall
        rfl
      | text | thinking =>
        rw [he] at hcall
        cases hcall
    have hcalls : callsIn (e :: l) = call :: callsIn l := by
      simp [callsIn, hcall]
    rw [List.map_cons, hcalls, List.map_cons, ← hstart, ← ih fun x hx => h x (by simp [hx])]

/-- The tool blocks behind the texts are those of the calls. -/
theorem Collects.tools {κ : Type} [DecidableEq κ] {calls : κ → ToolCall} {slot : κ → Nat}
    {fs : List (κ × Value)} {c : StreamState} {p : Parts} {tools : List (ContentBlock × String)}
    (h : Collects calls slot fs c (p.texts ++ tools))
    (hids : Function.Injective fun k => (calls k).id)
    (htools : ∀ e ∈ tools, e.1.toolCall?.isSome = true) :
    tools = (keys fs).map fun k => ((calls k).start, Keyed.text argumentsText k fs) := by
  have htexts : callsIn p.texts = [] := by
    rw [callsIn, List.filterMap_eq_nil_iff]
    intro b hb
    obtain ⟨e, he, rfl⟩ := List.mem_map.mp hb
    exact Parts.toolCall?_of_mem_texts he
  have hcalls : callsIn tools = (keys fs).map calls := by
    rw [← h.starts, callsIn_append, htexts, List.nil_append]
  refine Keyed.eq_map_of_mem (f := fun k => (calls k).start) ?_ ?_ fun k hk => ?_
  · rw [map_fst_of_callsIn htools, hcalls, List.map_map]
    rfl
  · refine (Keyed.nodup_keys fs).map fun i j hij => hids ?_
    exact congrArg ToolCall.id (ToolCall.start_injective hij)
  · obtain ⟨st, -, -, hv⟩ := h.held k hk
    rcases List.mem_append.mp (List.mem_of_getElem? hv) with hm | hm
    · cases Parts.toolCall?_of_mem_texts hm
    · exact hm

/-! ## Blocks as JSON -/

/-- A block that the client has put together, with its `partial_json` parsed. -/
def contentBlockJson (serde : Serde) : ContentBlock × String → Option Value
  | (.text, s) => some (textBlock s)
  | (.thinking, s) => some (thinkingBlock s)
  | (.toolUse id name, s) =>
    (serde.fromStr s).map (toolUseBlock (.string id) (.string name))

theorem mapM_eq_some {α β : Type} {f : α → Option β} {g : α → β} {l : List α}
    (h : ∀ a ∈ l, f a = some (g a)) : l.mapM f = some (l.map g) := by
  induction l with
  | nil => rfl
  | cons a l ih =>
    rw [List.mapM_cons, h a (by simp), ih fun b hb => h b (by simp [hb])]
    rfl

theorem Parts.texts_json (serde : Serde) (p : Parts) :
    p.texts.mapM (contentBlockJson serde) =
      some (assistantBlocks serde p.reasoning p.text []) := by
  unfold texts assistantBlocks
  by_cases hr : p.reasoning = "" <;> by_cases ht : p.text = "" <;>
    simp [hr, ht, contentBlockJson]

theorem Call.json {serde : Serde} {call : Call}
    (h : (serde.fromStr call.arguments).isSome = true) :
    contentBlockJson serde (call.start, call.arguments) = some (call.block serde) := by
  obtain ⟨v, hv⟩ := Option.isSome_iff_exists.mp h
  simp [contentBlockJson, ToolCall.start, Call.block, toolInput, hv]

/-! ## A streaming -/

/-- A streaming of a message: chunks whose fragments are its parts in order, the last with the
`finish_reason`, then inputs without fragments. -/
structure Streaming (reasoning text : String) (calls : List Call) (finish : String) where
  init : List Value
  last : Value
  ending : List Upstream
  /-- The fragments of the calls, each with its call. -/
  pieces : List (Fin calls.length × Value)
  toolCalls : (init ++ [last]).flatMap chunkToolCalls = pieces.map Prod.snd
  parts : ∃ b, partsOf ((init ++ [last]).flatMap chunkFragments) = some ⟨reasoning, text, b⟩
  encodes : (Encoding.indexed Fin.val).Encodes (fun k => (calls.get k).toToolCall) pieces
  starts : keys pieces = List.finRange calls.length
  arguments : ∀ k, Keyed.text argumentsText k pieces = (calls.get k).arguments
  unfinished : ∀ v ∈ init, finishReason v = none
  finished : finishReason last = some finish
  rest : ∀ u ∈ ending, u.fragments = [] ∧ u.isOverflow = false

/-- What the upstream says. -/
def Streaming.inputs {reasoning text : String} {calls : List Call} {finish : String}
    (s : Streaming reasoning text calls finish) : List Upstream :=
  (s.init ++ [s.last]).map .chunk ++ s.ending

/-! ## The two converters -/

theorem responseStopReason_eq {openai : Value} {finish : String}
    (h : (firstChoice openai >>= (·.get "finish_reason")) = some (.string finish)) :
    responseStopReason openai = stopReason finish := by
  rw [responseStopReason, h]
  rfl

theorem injective_get_id {calls : List Call} (h : (calls.map (·.id)).Nodup) :
    Function.Injective fun k => (calls.get k).id := by
  intro i j hij
  have hget := List.inj_on_of_nodup_map h (calls.get_mem i) (calls.get_mem j) hij
  exact List.nodup_iff_injective_get.mp (List.Nodup.of_map _ h) hget

/-- The client of a streaming. -/
theorem Streaming.client (order : IterOrder Nat ToolBlockState) (uuid model : String)
    {reasoning text finish : String} {calls : List Call} (hids : (calls.map (·.id)).Nodup)
    (s : Streaming reasoning text calls finish) :
    ∃ m, Client.read (convertInputs order s.inputs (.new uuid model)).2 = some m ∧
      (∃ b, m.contents = Parts.texts ⟨reasoning, text, b⟩ ++
        calls.map fun call => (call.start, call.arguments)) ∧
      m.stopReason = some (stopReason finish) := by
  have hget := injective_get_id hids
  obtain ⟨b, hb⟩ := s.parts
  have hdistinct : (Encoding.indexed (Fin.val : Fin calls.length → Nat)).Distinct := fun _ _ => Fin.ext
  obtain ⟨m, hm, hplaced⟩ :=
    Encoding.run order uuid model hdistinct hget s.encodes s.unfinished s.toolCalls
  obtain ⟨lost, m', hm', htracks, hshape⟩ := (Parts.kept order).run uuid model
    (fun p hp => by cases hp; exact ⟨[], rfl, by simp, fun _ => ⟨rfl, rfl⟩⟩) s.unfinished s.last
  obtain rfl : m' = m := Option.some.inj (hm'.symm.trans hm)
  obtain ⟨tools, hv, htools, -⟩ := hshape _ hb
  have hcalls : tools = calls.map fun call => (call.start, call.arguments) := by
    have hcol := hplaced.collects
    rw [hv] at hcol
    rw [hcol.tools hget htools, s.starts]
    simp only [s.arguments]
    conv_rhs => rw [← List.map_get_finRange calls, List.map_map]
    rfl
  obtain ⟨m₂, hm₂, hfin, hv₂, hr₂⟩ := htracks.closeWithStopReason finish
  refine ⟨m₂, ?_, ⟨b, by rw [hv₂, hv, hcalls]⟩, hr₂⟩
  have hsilent := (Emits.forEach fun u hu => convertInput_silent order (s.rest u hu).1 (s.rest u hu).2)
    _ ⟨hfin.started, hfin.ended⟩
  rw [Streaming.inputs, convertInputs_message, s.finished, Prog.andThen_apply, Client.read_append, hm]
  show List.foldlM Client.step m' _ = _
  rw [Prog.ifSome_some, Prog.andThen_apply,
    show (convertInputs order s.ending _).2 = [] from List.eq_nil_iff_forall_not_mem.mpr hsilent.2,
    List.append_nil]
  exact hm₂

/-- **The stream and the response agree.** For any streaming of an assistant message, the blocks
that the client puts together and its stop reason are those of the response for the message. -/
theorem stream_eq_response (order : IterOrder Nat ToolBlockState) (serde : Serde)
    (uuid model : String) {reasoning text finish : String} {calls : List Call}
    (hids : (calls.map (·.id)).Nodup)
    (hargs : ∀ call ∈ calls, (serde.fromStr call.arguments).isSome = true)
    (hne : reasoning ≠ "" ∨ text ≠ "" ∨ calls ≠ []) {openai msg : Value}
    (hmsg : (firstChoice openai >>= (·.get "message")) = some msg)
    (hcontent : IsAssistantMessage msg reasoning text calls)
    (hfinish : (firstChoice openai >>= (·.get "finish_reason")) = some (.string finish))
    (s : Streaming reasoning text calls finish) (rawChunks : List (List Char))
    (hread : inputsOf serde rawChunks = s.inputs) :
    ∃ m blocks reason,
      Client.read (convertedEvents order serde uuid model rawChunks) = some m ∧
      m.contents.mapM (contentBlockJson serde) = some blocks ∧ m.stopReason = some reason ∧
      (openaiResponseToAnthropic serde uuid openai).get "content" = some (.array blocks) ∧
      (openaiResponseToAnthropic serde uuid openai).get "stop_reason" = some (.string reason) := by
  obtain ⟨m, hm, ⟨b, hv⟩, hr⟩ := s.client order uuid model hids
  rw [← hread, ← convertedEvents_eq] at hm
  refine ⟨m, _, _, hm, ?_, hr,
    congrArg (some ∘ Value.array) (responseContent_eq serde hmsg hcontent hne),
    congrArg (some ∘ Value.string) (responseStopReason_eq hfinish)⟩
  have htools : (calls.map fun call => (call.start, call.arguments)).mapM (contentBlockJson serde) =
      some (calls.map (·.block serde)) := by
    rw [List.mapM_map]
    exact mapM_eq_some fun call hc => Call.json (hargs call hc)
  rw [hv, List.mapM_append, Parts.texts_json, htools]
  simp [assistantBlocks]

/-! ## A message with all parts -/

/-- A chunk with one field in its delta. -/
def deltaChunk (field : String) (v : Value) : Value :=
  .object [("choices", .array [.object [("delta", .object [(field, v)])]])]

/-- The message as a stream. -/
def sampleStreaming : Streaming "r" "t" sampleCalls "tool_calls" where
  init := [deltaChunk "reasoning_content" (.string "r"), deltaChunk "content" (.string "t"),
    toolCallChunk (callHead 0 "a" "f" "\x7b"), toolCallChunk (callTail 0 "\x7d")]
  last := .object [("choices", .array [.object [("finish_reason", .string "tool_calls")]])]
  ending := [.done]
  pieces := [(⟨0, by decide⟩, callHead 0 "a" "f" "\x7b"), (⟨0, by decide⟩, callTail 0 "\x7d")]
  toolCalls := rfl
  parts := ⟨true, by decide⟩
  encodes := by decide
  starts := by decide
  arguments := by decide
  unfinished := by decide
  finished := by decide
  rest := by simp [Upstream.fragments, Upstream.isOverflow]

def sampleTexts : List String := [
  "\x7b\"choices\":[\x7b\"delta\":\x7b\"reasoning_content\":\"r\"\x7d\x7d]\x7d",
  "\x7b\"choices\":[\x7b\"delta\":\x7b\"content\":\"t\"\x7d\x7d]\x7d",
  toolCallText "\x7b\"index\":0,\"id\":\"a\",\"function\":\x7b\"name\":\"f\",\"arguments\":\"\x7b\"\x7d\x7d",
  toolCallText "\x7b\"index\":0,\"function\":\x7b\"arguments\":\"\x7d\"\x7d\x7d",
  "\x7b\"choices\":[\x7b\"finish_reason\":\"tool_calls\"\x7d]\x7d"]

/-- `serde_json` on the payloads and on the arguments. -/
def sampleSerde : Serde :=
  tableSerde (sampleTexts.zip (sampleStreaming.init ++ [sampleStreaming.last]) ++
    [("\x7b\x7d", .object [])])

theorem stream_eq_response_sample :
    ∃ m blocks reason,
      Client.read (convertedEvents .entries sampleSerde "0" "m" [sseText (sampleTexts ++ ["[DONE]"])]) =
        some m ∧
      m.contents.mapM (contentBlockJson sampleSerde) = some blocks ∧ m.stopReason = some reason ∧
      (openaiResponseToAnthropic sampleSerde "0" sampleCompletion).get "content" =
        some (.array blocks) ∧
      (openaiResponseToAnthropic sampleSerde "0" sampleCompletion).get "stop_reason" =
        some (.string reason) :=
  stream_eq_response .entries sampleSerde "0" "m" (by decide) (by decide +kernel) (.inl (by decide))
    rfl sampleMessage_isAssistantMessage rfl sampleStreaming _
    (inputsOf_payloads (tableSerde_fromStr (by decide +kernel) rfl _) (by decide +kernel)
      (by decide +kernel))

end ApertureRouter
