import ApertureRouter.Stream.Boundaries
import ApertureRouter.Stream.Termination

/-!
# Chunks that say nothing

Providers send chunks whose delta is empty to keep the connection open (`Heartbeat`). After the
first chunk such a chunk does what its `tool_calls` do: an array, even an empty one, closes the
text or thinking block that is open (`convertInput_heartbeat`).

* `Inserted`: two streams, the second with one more chunk. `inserted_line` gives the texts: one
  complete data line between two lines.
* `heartbeat_invisible_iff`: the additional chunk is invisible if and only if it has no array of
  tool calls or no text or thinking block is open.
-/

namespace ApertureRouter

open Emit
open Value (asStr asArray asU64)

/-- The field is absent, `null` or `empty`. -/
def Blank (empty : Value) (field : Option Value) : Prop :=
  field = none ∨ field = some .null ∨ field = some empty

/-- A chunk whose delta carries nothing, without `finish_reason` and `usage`. -/
structure Heartbeat (value : Value) : Prop where
  delta : ∀ delta, chunkDelta value = some delta →
    Blank (.string "") (delta.get "content") ∧ Blank (.string "") (delta.get "reasoning_content") ∧
      Blank (.string "") (delta.get "reasoning") ∧ Blank (.array []) (delta.get "tool_calls")
  finishReason : ∀ choice, firstChoice value = some choice →
    Blank (.string "") (choice.get "finish_reason")
  usage : Blank (.object []) (value.get "usage")

/-- The delta has an array of tool calls. -/
def hasToolCalls (value : Value) : Bool := (chunkDelta value >>= deltaToolCalls).isSome

section

variable (order : IterOrder Nat ToolBlockState)

theorem blank_asStr {field : Option Value} (h : Blank (.string "") field) :
    field >>= asStr = none ∨ field >>= asStr = some "" := by
  rcases h with rfl | rfl | rfl
  exacts [.inl rfl, .inl rfl, .inr rfl]

theorem blank_getReasoning {delta : Value} (hc : Blank (.string "") (delta.get "reasoning_content"))
    (hr : Blank (.string "") (delta.get "reasoning")) :
    getReasoning delta = none ∨ getReasoning delta = some "" := by
  rw [getReasoning]
  rcases hc with h | h | h <;> rw [h]
  exacts [blank_asStr hr, .inl rfl, .inr rfl]

theorem ifSome_empty {f : String → Convert} (hf : f "" = Prog.skip) {text : Option String}
    (h : text = none ∨ text = some "") : Prog.ifSome f text = Prog.skip := by
  rcases h with rfl | rfl
  exacts [rfl, hf]

theorem Heartbeat.finishReason_eq {value : Value} (h : Heartbeat value) :
    ApertureRouter.finishReason value = none := by
  unfold ApertureRouter.finishReason
  cases hc : firstChoice value with
  | none => rfl
  | some choice =>
    rcases h.finishReason choice hc with hf | hf | hf <;> simp [hf, asStr]

theorem Heartbeat.readUsage_eq {value : Value} (h : Heartbeat value) (c : StreamState) :
    readUsage value c = (c, []) := by
  rw [readUsage, Prog.modify_apply]
  rcases h.usage with hu | hu | hu <;> rw [hu] <;> rfl

/-- **What a chunk that says nothing does**, after the first chunk. -/
theorem convertInput_heartbeat {value : Value} (h : Heartbeat value) {c : StreamState}
    (hs : c.messageStarted = true) :
    convertInput order (.chunk value) c =
      if hasToolCalls value then closeForToolCalls c else (c, []) := by
  have hbegin : startMessage c = (c, []) := by
    rw [startMessage, Prog.cond_neg (by simp [hs])]
  have hdelta : ∀ delta, chunkDelta value = some delta → convertDelta order delta =
      if (deltaToolCalls delta).isSome then closeForToolCalls else Prog.skip := by
    intro delta hd
    obtain ⟨hc, hrc, hr, ht⟩ := h.delta delta hd
    have hcontent : Prog.ifSome convertContent (deltaContent delta) = Prog.skip :=
      ifSome_empty rfl (blank_asStr hc)
    rw [convertDelta, @ifSome_empty convertReasoning rfl _ (blank_getReasoning hrc hr), hcontent]
    funext c
    rcases ht with ht | ht | ht <;>
      simp [deltaToolCalls, ht, asArray, convertToolCalls, closeForToolCalls]
  rw [convertInput, processOpenaiChunk, h.finishReason_eq]
  simp only [Prog.andThen_apply, hbegin, h.readUsage_eq, Prog.ifSome_none, Prog.skip_apply,
    List.nil_append, List.append_nil]
  cases hd : chunkDelta value with
  | none => simp [hasToolCalls, hd]
  | some delta =>
    rw [Prog.ifSome_some, hdelta delta hd]
    cases ht : deltaToolCalls delta <;> simp [hasToolCalls, hd, ht]

end

/-! ## One more line -/

variable (order : IterOrder Nat ToolBlockState) (serde : Serde)

/-- The first stream says `pre`, then `post`; the second has the chunk `value` in between. -/
structure Inserted (serde : Serde) (pre : List Upstream) (value : Value) (post : List Upstream)
    (rawChunks rawChunks' : List (List Char)) : Prop where
  reads : inputsOf serde rawChunks = pre ++ post
  reads' : inputsOf serde rawChunks' = pre ++ .chunk value :: post

/-- One complete data line between two lines of a text. -/
theorem inserted_line {order : IterOrder Nat ToolBlockState} {uuid model : String}
    {rawChunks rawChunks' : List (List Char)} {a b : List Char} {text : String} {value : Value}
    (h : FitsBuffer order serde (.new uuid model) rawChunks)
    (h' : FitsBuffer order serde (.new uuid model) rawChunks')
    (hraw : rawChunks.flatten = a ++ b)
    (hraw' : rawChunks'.flatten = a ++ ("data: ".toList ++ text.toList ++ ['\n'] ++ b))
    (ha : (Lines.split '\n' a).2 = []) (hp : IsPayload text)
    (htext : readPayload serde text = some (.chunk value)) :
    Inserted serde (readLines serde a) value (readLines serde b) rawChunks rawChunks' := by
  have hline : '\n' ∉ "data: ".toList ++ text.toList := by
    rw [List.mem_append, not_or]
    exact ⟨by decide, hp.1⟩
  have hread : ∀ {raw : List (List Char)}, FitsBuffer order serde (.new uuid model) raw →
      inputsOf serde raw = readLines serde raw.flatten := fun hraw => by
    show (readChunks serde _ (OpenAIToAnthropicStreamConverter.new uuid model).lineBuffer).2 = _
    rw [readChunks_eq order List.not_mem_nil hraw]
    rfl
  constructor
  · rw [hread h, hraw, readLines_append, ha, List.nil_append]
  · have hsplit : "data: ".toList ++ text.toList ++ ['\n'] ++ b =
        ("data: ".toList ++ text.toList) ++ '\n' :: b := by simp
    rw [hread h', hraw', readLines_append, ha, List.nil_append, hsplit]
    show _ ++ List.filterMap _ (Lines.split '\n' _).1 = _
    rw [Lines.split_cons hline, List.filterMap_cons_some ((readLine_payload hp.2).trans htext)]
    rfl

/-- **Empty chunks.** One more chunk that says nothing, after the first chunk, leaves the events
before it and after it as they are if and only if it has no array of tool calls or no text or
thinking block is open. -/
theorem heartbeat_invisible_iff (uuid model : String) {pre post : List Upstream} {value : Value}
    {rawChunks rawChunks' : List (List Char)} (hin : Inserted serde pre value post rawChunks rawChunks')
    (hfirst : ∃ u ∈ pre, u.starts = true) (hh : Heartbeat value) :
    ((convertInputs order (pre ++ [.chunk value]) (.new uuid model)).2 =
        (convertInputs order pre (.new uuid model)).2 ∧
      convertedEvents order serde uuid model rawChunks' =
        convertedEvents order serde uuid model rawChunks) ↔
      hasToolCalls value = false ∨ (convertInputs order pre (.new uuid model)).1.NoneOpen := by
  have hs : (convertInputs order pre (.new uuid model)).1.messageStarted = true := by
    rw [convertInputs_messageStarted, List.any_eq_true.mpr hfirst, Bool.or_true]
  have hone := convertInput_heartbeat order hh hs
  rw [convertedEvents_eq, convertedEvents_eq, hin.reads, hin.reads', convertInputs_append order pre,
    convertInputs_append order pre, convertInputs_append order pre]
  simp only [convertInputs, Prog.forEach_cons, Prog.forEach_nil, Prog.andThen_apply,
    Prog.skip_apply, List.append_nil] at hone ⊢
  rw [hone]
  cases ht : hasToolCalls value with
  | false => simp
  | true =>
    simp only [if_true, Bool.true_eq_false, false_or]
    constructor
    · rintro ⟨h, -⟩
      exact closeForToolCalls_eq_nil.mp (List.append_cancel_left (h.trans (List.append_nil _).symm))
    · intro hno
      rw [closeForToolCalls_of_noneOpen hno]
      exact ⟨List.append_nil _, rfl⟩

/-- The text of a chunk with an empty array of tool calls. -/
def emptyToolCallsText : String :=
  "\x7b\"choices\":[\x7b\"delta\":\x7b\"tool_calls\":[]\x7d\x7d]\x7d"

def emptyToolCalls : Value :=
  .object [("choices", .array [.object [("delta", .object [("tool_calls", .array [])])]])]

theorem heartbeat_emptyToolCalls : Heartbeat emptyToolCalls where
  delta d hd := by
    cases hd
    exact ⟨.inl rfl, .inl rfl, .inl rfl, .inr (.inr rfl)⟩
  finishReason c hc := by
    cases hc
    exact .inl rfl
  usage := .inl rfl

def heartbeatSerde : Serde :=
  tableSerde [(contentText, contentChunk), (emptyToolCallsText, emptyToolCalls)]

theorem inserted_emptyToolCalls :
    Inserted heartbeatSerde [.chunk contentChunk] emptyToolCalls [.chunk contentChunk]
      [sseText [contentText, contentText]]
      [sseText [contentText, emptyToolCallsText, contentText]] where
  reads := (inputsOf_sseText (by decide) (by decide +kernel)).trans rfl
  reads' := (inputsOf_sseText (by decide) (by decide +kernel)).trans rfl

/-- The empty array splits a text block in two. -/
theorem emptyToolCalls_visible :
    Inserted heartbeatSerde [.chunk contentChunk] emptyToolCalls [.chunk contentChunk]
        [sseText [contentText, contentText]]
        [sseText [contentText, emptyToolCallsText, contentText]] ∧
      Heartbeat emptyToolCalls ∧
      convertedEvents .entries heartbeatSerde "0" "m"
          [sseText [contentText, emptyToolCallsText, contentText]] ≠
        convertedEvents .entries heartbeatSerde "0" "m" [sseText [contentText, contentText]] := by
  refine ⟨inserted_emptyToolCalls, heartbeat_emptyToolCalls, ?_⟩
  have hone : convertedEvents .entries heartbeatSerde "0" "m" [sseText [contentText, contentText]] =
      [.messageStart "msg_0" "m" 0, .contentBlockStart 0 .text, .contentBlockDelta 0 (.text "x"),
        .contentBlockDelta 0 (.text "x")] := by decide +kernel
  have htwo : convertedEvents .entries heartbeatSerde "0" "m"
      [sseText [contentText, emptyToolCallsText, contentText]] =
      [.messageStart "msg_0" "m" 0, .contentBlockStart 0 .text, .contentBlockDelta 0 (.text "x"),
        .contentBlockStop 0, .contentBlockStart 1 .text, .contentBlockDelta 1 (.text "x")] := by
    decide +kernel
  rw [hone, htwo]
  decide

theorem heartbeat_invisible_iff_emptyToolCalls :
    ((convertInputs .entries ([.chunk contentChunk] ++ [.chunk emptyToolCalls]) (.new "0" "m")).2 =
        (convertInputs .entries [.chunk contentChunk] (.new "0" "m")).2 ∧
      convertedEvents .entries heartbeatSerde "0" "m"
          [sseText [contentText, emptyToolCallsText, contentText]] =
        convertedEvents .entries heartbeatSerde "0" "m" [sseText [contentText, contentText]]) ↔
      hasToolCalls emptyToolCalls = false ∨
        (convertInputs .entries [.chunk contentChunk] (.new "0" "m")).1.NoneOpen :=
  heartbeat_invisible_iff .entries heartbeatSerde "0" "m" inserted_emptyToolCalls
    ⟨_, List.mem_singleton_self _, rfl⟩ heartbeat_emptyToolCalls

end ApertureRouter
