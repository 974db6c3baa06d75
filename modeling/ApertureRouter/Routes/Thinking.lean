import ApertureRouter.Routes.Streaming
import ApertureRouter.Types.Request

/-!
# Hidden thinking

With `include_thinking = false` `process_sse_chunk_lines` drops the data lines that
`is_thinking_block` accepts. It looks at one line at a time: of a thinking block that Anthropic
streams it drops the `content_block_start`, and forwards the `thinking_delta`s, the
`signature_delta` and the `content_block_stop`.

* `SameStream`: two texts that differ only in the texts of their thinking blocks.
  `hidden_iff`: they are forwarded as the same events exactly if they differ only in the starts of
  thinking blocks, and these are nested within `max_json_depth`.
-/

namespace ApertureRouter

open Emit Sse Text

/-! ## JSON text outside of its strings -/

/-- The text without what is inside its string literals. The scan is `inString`, `escaped` at its
beginning. -/
def outsideStrings : Bool → Bool → List Char → List Char
  | _, _, [] => []
  | false, _, ch :: json => ch :: outsideStrings (ch = '\x22') false json
  | true, true, _ :: json => outsideStrings true false json
  | true, false, ch :: json =>
    if ch = '\x5c' then outsideStrings true true json
    else if ch = '\x22' then ch :: outsideStrings false false json
    else outsideStrings true false json

/-- What the depth check counts. -/
def DepthScan.outside (s : DepthScan) : Nat × Bool := (s.depth, s.inString)

/-- The depth check does not look into strings. -/
theorem depthScan_outsideStrings (maxDepth : Nat) (json : List Char) (s : DepthScan)
    (he : s.inString = false → s.escaped = false) :
    (json.foldlM (DepthScan.step maxDepth) s).map DepthScan.outside =
      ((outsideStrings s.inString s.escaped json).foldlM (DepthScan.step maxDepth)
        { s with escaped := false }).map DepthScan.outside := by
  induction json generalizing s with
  | nil =>
    obtain ⟨depth, inString, escaped⟩ := s
    cases inString <;> cases escaped <;> rfl
  | cons ch json ih =>
    obtain ⟨depth, inString, escaped⟩ := s
    cases inString with
    | false =>
      obtain rfl : escaped = false := he rfl
      rw [outsideStrings, List.foldlM_cons, List.foldlM_cons]
      by_cases hq : ch = '\x22'
      · subst hq
        exact ih ⟨depth, true, false⟩ (by simp)
      · have hstep : DepthScan.step maxDepth ⟨depth, false, false⟩ ch =
            (DepthScan.step maxDepth ⟨depth, false, false⟩ ch).map fun t =>
              ⟨t.depth, false, false⟩ := by
          unfold DepthScan.step
          simp only [Bool.false_eq_true, if_false, if_neg hq]
          split
          · split <;> rfl
          · split
            · split <;> rfl
            · rfl
        cases hs : DepthScan.step maxDepth ⟨depth, false, false⟩ ch with
        | error e => rfl
        | ok t =>
          rw [hs] at hstep
          have ht : t = ⟨t.depth, false, false⟩ := Except.ok.inj hstep
          rw [decide_eq_false hq]
          rw [ht]
          exact ih ⟨t.depth, false, false⟩ (by simp)
    | true =>
      cases escaped with
      | true => exact ih ⟨depth, true, false⟩ (by simp)
      | false =>
        rw [outsideStrings, List.foldlM_cons]
        by_cases hb : ch = '\x5c'
        · subst hb
          exact ih ⟨depth, true, true⟩ (by simp)
        · by_cases hq : ch = '\x22'
          · subst hq
            exact ih ⟨depth, false, false⟩ (by simp)
          · rw [if_neg hb, if_neg hq, ← ih ⟨depth, true, false⟩ (by simp)]
            simp only [DepthScan.step, if_true, Bool.false_eq_true, if_false, if_neg hb, if_neg hq]
            rfl

/-- The depth check accepts the text. -/
def NestsWithin (maxDepth : Nat) (json : List Char) : Prop :=
  ∃ s, json.foldlM (DepthScan.step maxDepth) {} = .ok s

theorem nestsWithin_congr {maxDepth : Nat} {json₁ json₂ : List Char}
    (h : outsideStrings false false json₁ = outsideStrings false false json₂) :
    NestsWithin maxDepth json₁ ↔ NestsWithin maxDepth json₂ := by
  have hok : ∀ json, NestsWithin maxDepth json ↔
      ((outsideStrings false false json).foldlM (DepthScan.step maxDepth) {}).isOk = true := by
    intro json
    have hscan := depthScan_outsideStrings maxDepth json {} fun _ => rfl
    have hmap : ∀ x : Except JsonError DepthScan, x.isOk = (x.map DepthScan.outside).isOk := by
      rintro (e | s) <;> rfl
    rw [hmap, ← hscan, ← hmap]
    unfold NestsWithin
    cases json.foldlM (DepthScan.step maxDepth) {} <;> simp [Except.isOk, Except.toBool]
  rw [hok, hok, h]

/-- A text without strings is determined by what is outside of its strings. -/
theorem eq_of_outsideStrings {json₁ json₂ : List Char} (hq : '\x22' ∉ json₁)
    (h : outsideStrings false false json₁ = outsideStrings false false json₂) : json₁ = json₂ := by
  have hself : ∀ json : List Char, '\x22' ∉ json → outsideStrings false false json = json := by
    intro json hj
    induction json with
    | nil => rfl
    | cons ch json ih =>
      rw [List.mem_cons, not_or] at hj
      rw [outsideStrings, decide_eq_false (Ne.symm hj.1), ih hj.2]
  have hmem : ∀ json : List Char, '\x22' ∈ json → '\x22' ∈ outsideStrings false false json := by
    intro json hj
    induction json with
    | nil => cases hj
    | cons ch json ih =>
      rw [outsideStrings]
      by_cases hc : '\x22' = ch
      · rw [← hc]
        exact List.mem_cons_self
      · rw [decide_eq_false (Ne.symm hc)]
        exact List.mem_cons_of_mem _ (ih ((List.mem_cons.mp hj).resolve_left hc))
  rw [hself json₁ hq] at h
  have hq₂ : '\x22' ∉ json₂ := fun hj => hq (by rw [h]; exact hmem json₂ hj)
  rw [h, hself json₂ hq₂]

/-! ## Two streams -/

/-- The deltas of a thinking block, with the field that has their text. -/
def thinkingDeltas : List (String × String) :=
  [("thinking_delta", "thinking"), ("signature_delta", "signature")]

/-- Two events that differ only in the text of a thinking block. -/
inductive SameButThinking : Value → Value → Prop
  | start {v b b' : Value} : v.get "type" = some (.string "content_block_start") →
      v.get "content_block" = some b → typeOf b = some "thinking" → typeOf b' = some "thinking" →
      SameButThinking v (v.set "content_block" b')
  | delta {v d : Value} {type field text : String} :
      v.get "type" = some (.string "content_block_delta") → v.get "delta" = some d →
      typeOf d = some type → (type, field) ∈ thinkingDeltas →
      SameButThinking v (v.set "delta" (d.set field (.string text)))

/-- Two lines that are the same, or data lines whose JSON is the same outside of its strings and
differs only in the text of a thinking block. -/
def SameLine (serde : Serde) (line₁ line₂ : List Char) : Prop :=
  line₁ = line₂ ∨ ∃ json₁ json₂ v₁ v₂, line₁ = dataLine json₁ ∧ line₂ = dataLine json₂ ∧
    outsideStrings false false json₁ = outsideStrings false false json₂ ∧
    serde.fromStr (.ofList json₁) = some v₁ ∧ serde.fromStr (.ofList json₂) = some v₂ ∧
    SameButThinking v₁ v₂

/-- Two streams, in the chunks that `process_sse_chunk_lines` is given, that differ only in the text
of their thinking blocks. -/
def SameStream (serde : Serde) (chunks₁ chunks₂ : List (List Char)) : Prop :=
  List.Forall₂ (fun c₁ c₂ => List.Forall₂ (SameLine serde) (lines c₁) (lines c₂)) chunks₁ chunks₂

/-- The line is the start of a thinking block, not too deep to be parsed. -/
def HiddenStart (serde : Serde) (maxJsonDepth : Nat) (line : List Char) : Prop :=
  ∃ json v b, line = dataLine json ∧ NestsWithin maxJsonDepth json ∧
    serde.fromStr (.ofList json) = some v ∧ v.get "type" = some (.string "content_block_start") ∧
    v.get "content_block" = some b ∧ typeOf b = some "thinking"

/-- Where the streams differ, thinking blocks start. -/
def DifferAtHiddenStarts (serde : Serde) (maxJsonDepth : Nat) (chunks₁ chunks₂ : List (List Char)) :
    Prop :=
  List.Forall₂ (fun c₁ c₂ => List.Forall₂
    (fun line₁ line₂ => line₁ = line₂ ∨ HiddenStart serde maxJsonDepth line₁) (lines c₁) (lines c₂))
    chunks₁ chunks₂

theorem isThinkingBlock_start {v b : Value}
    (ht : v.get "type" = some (.string "content_block_start"))
    (hb : v.get "content_block" = some b) (hk : typeOf b = some "thinking") :
    isThinkingBlock v = true := by
  have hk' : (b.get "type").bind (·.asStr) = some "thinking" := hk
  simp [isThinkingBlock, ht, hb, hk']

theorem isThinkingBlock_delta {v d : Value}
    (ht : v.get "type" = some (.string "content_block_delta")) (hd : v.get "delta" = some d) :
    isThinkingBlock v = (typeOf d == some "thinking") := by
  simp [isThinkingBlock, ht, hd, typeOf]

theorem SameButThinking.isThinkingBlock_eq {v₁ v₂ : Value} (h : SameButThinking v₁ v₂) :
    isThinkingBlock v₂ = isThinkingBlock v₁ := by
  cases h with
  | start ht hb hk hk' =>
    rw [isThinkingBlock_start ht hb hk]
    apply isThinkingBlock_start _ _ hk'
    · rw [Value.get_set_of_get ht, if_neg (by decide), ht]
    · rw [Value.get_set_of_get ht, if_pos rfl]
  | @delta d type field text ht hd hk hf =>
    have hfield : "type" ≠ field := by
      simp only [thinkingDeltas, List.mem_cons, Prod.mk.injEq, List.not_mem_nil, or_false] at hf
      rcases hf with ⟨-, rfl⟩ | ⟨-, rfl⟩ <;> decide
    obtain ⟨w, hw, -⟩ := Option.bind_eq_some_iff.mp hk
    have hd' : (v₁.set "delta" (d.set field (.string text))).get "delta" =
        some (d.set field (.string text)) := by
      rw [Value.get_set_of_get ht, if_pos rfl]
    have ht' : (v₁.set "delta" (d.set field (.string text))).get "type" =
        some (.string "content_block_delta") := by
      rw [Value.get_set_of_get ht, if_neg (by decide), ht]
    rw [isThinkingBlock_delta ht hd, isThinkingBlock_delta ht' hd']
    congr 1
    unfold typeOf
    rw [Value.get_set_of_get hw, if_neg hfield]

/-! ## What is hidden -/

/-- A data line is dropped if its JSON is not too deep, and a thinking block. -/
theorem shouldInclude_false_iff (serde : Serde) (maxJsonDepth : Nat) (json : List Char) :
    shouldInclude serde false maxJsonDepth json = false ↔
      NestsWithin maxJsonDepth json ∧
        ∃ v, serde.fromStr (.ofList json) = some v ∧ isThinkingBlock v = true := by
  unfold shouldInclude parseJsonWithDepthLimit NestsWithin
  cases json.foldlM (DepthScan.step maxJsonDepth) {} with
  | error e => simp
  | ok s => cases serde.fromStr (.ofList json) <;> simp

/-- The end marker has no strings. -/
theorem doneMarker_of_outsideStrings {json₁ json₂ : List Char}
    (h : outsideStrings false false json₁ = outsideStrings false false json₂)
    (hd : json₁ = doneMarker) : json₁ = json₂ :=
  eq_of_outsideStrings (by rw [hd]; decide) h

/-- Two lines with different JSON are forwarded as one event each, or neither of them. -/
theorem agree_dataLine {serde : Serde} {maxJsonDepth : Nat} {json₁ json₂ : List Char}
    (hne : json₁ ≠ json₂)
    (hout : outsideStrings false false json₁ = outsideStrings false false json₂)
    (hsame : shouldInclude serde false maxJsonDepth json₁ =
      shouldInclude serde false maxJsonDepth json₂) (ty : List Char) :
    Agree (proxyLine serde false maxJsonDepth (dataLine json₁))
      (proxyLine serde false maxJsonDepth (dataLine json₂)) ty
      (shouldInclude serde false maxJsonDepth json₁ = false) := by
  have hd₁ : json₁ ≠ doneMarker := fun h => hne (doneMarker_of_outsideStrings hout h)
  have hd₂ : json₂ ≠ doneMarker := fun h => hne (doneMarker_of_outsideStrings hout.symm h).symm
  have hrun : ∀ json, json ≠ doneMarker → proxyLine serde false maxJsonDepth (dataLine json) ty =
      (ty, if shouldInclude serde false maxJsonDepth json
        then [{ event := sentType ty, data := json }] else []) := by
    intro json hd
    rw [proxyLine, stripPrefix_event_dataLine, stripPrefix_dataLine]
    simp only [if_neg hd]
    split <;> rfl
  rw [Agree, hrun json₁ hd₁, hrun json₂ hd₂, ← hsame]
  cases shouldInclude serde false maxJsonDepth json₁ <;> simp [hne]

/-- Two lines of streams that differ in thinking are forwarded as the same if they are the same,
or start a thinking block. -/
theorem SameLine.agree {serde : Serde} {maxJsonDepth : Nat} {line₁ line₂ : List Char}
    (h : SameLine serde line₁ line₂) (ty : List Char) :
    Agree (proxyLine serde false maxJsonDepth line₁) (proxyLine serde false maxJsonDepth line₂) ty
      (line₁ = line₂ ∨ HiddenStart serde maxJsonDepth line₁) := by
  by_cases heq : line₁ = line₂
  · subst heq
    exact ⟨rfl, rfl, iff_of_true rfl (.inl rfl)⟩
  · obtain ⟨json₁, json₂, v₁, v₂, rfl, rfl, hout, hv₁, hv₂, hv⟩ := h.resolve_left heq
    have hne : json₁ ≠ json₂ := fun e => heq (by rw [e])
    have hdropped : ∀ json v, serde.fromStr (.ofList json) = some v →
        (shouldInclude serde false maxJsonDepth json = false ↔
          NestsWithin maxJsonDepth json ∧ isThinkingBlock v = true) := by
      intro json v hjson
      rw [shouldInclude_false_iff, hjson]
      simp
    have hsame : shouldInclude serde false maxJsonDepth json₁ =
        shouldInclude serde false maxJsonDepth json₂ := by
      rw [Bool.eq_iff_iff, ← not_iff_not, Bool.not_eq_true, Bool.not_eq_true,
        hdropped json₁ v₁ hv₁, hdropped json₂ v₂ hv₂, nestsWithin_congr hout,
        hv.isThinkingBlock_eq]
    obtain ⟨hstate, hlen, hiff⟩ := agree_dataLine hne hout hsame ty
    refine ⟨hstate, hlen, hiff.trans ?_⟩
    rw [hdropped json₁ v₁ hv₁, or_iff_right heq]
    constructor
    · rintro ⟨hnests, hthinking⟩
      cases hv with
      | start ht hb hk _ => exact ⟨json₁, v₁, _, rfl, hnests, hv₁, ht, hb, hk⟩
      | delta ht hd hk hf =>
        rw [isThinkingBlock_delta ht hd, hk, beq_iff_eq, Option.some.injEq] at hthinking
        simp only [thinkingDeltas, hthinking, List.mem_cons, Prod.mk.injEq, List.not_mem_nil,
          or_false] at hf
        rcases hf with ⟨h, -⟩ | ⟨h, -⟩ <;> exact absurd h (by decide)
    · rintro ⟨json, v, b, hline, hnests, hjson, ht, hb, hk⟩
      obtain rfl : json₁ = json := List.append_cancel_left hline
      obtain rfl : v₁ = v := Option.some.inj (hv₁.symm.trans hjson)
      exact ⟨hnests, isThinkingBlock_start ht hb hk⟩

/-- The events of a chunk. -/
theorem processSseChunkLines_agree {serde : Serde} {maxJsonDepth : Nat} {c₁ c₂ : List Char}
    (h : List.Forall₂ (SameLine serde) (Text.lines c₁) (Text.lines c₂)) :
    (processSseChunkLines serde false maxJsonDepth c₁).length =
        (processSseChunkLines serde false maxJsonDepth c₂).length ∧
      (processSseChunkLines serde false maxJsonDepth c₁ =
          processSseChunkLines serde false maxJsonDepth c₂ ↔
        List.Forall₂ (fun line₁ line₂ => line₁ = line₂ ∨ HiddenStart serde maxJsonDepth line₁)
          (Text.lines c₁) (Text.lines c₂)) := by
  have hline : ∀ line₁ line₂ ty, SameLine serde line₁ line₂ →
      Agree (proxyLine serde false maxJsonDepth line₁) (proxyLine serde false maxJsonDepth line₂) ty
        (line₁ = line₂ ∨ HiddenStart serde maxJsonDepth line₁) := fun _ _ ty hl => hl.agree ty
  obtain ⟨-, hlen, hiff⟩ := Agree.forEach hline h "data".toList
  unfold processSseChunkLines
  simp only
  rw [← hiff]
  split
  · rename_i h₁
    rw [h₁] at hlen
    have h₂ := List.length_eq_zero_iff.mp hlen.symm
    rw [if_pos h₂, h₁, h₂]
    exact ⟨rfl, iff_of_true rfl rfl⟩
  · rename_i h₁
    rw [if_neg fun h₂ => h₁ (List.length_eq_zero_iff.mp (hlen.trans (congrArg List.length h₂)))]
    exact ⟨hlen, Iff.rfl⟩

/-- **Hidden thinking.** Two streams that differ only in the texts of their thinking blocks are
forwarded as the same events exactly if they differ only where thinking blocks start that are not
too deep. -/
theorem hidden_iff (serde : Serde) (maxJsonDepth : Nat) {chunks₁ chunks₂ : List (List Char)}
    (h : SameStream serde chunks₁ chunks₂) :
    chunks₁.flatMap (processSseChunkLines serde false maxJsonDepth) =
        chunks₂.flatMap (processSseChunkLines serde false maxJsonDepth) ↔
      DifferAtHiddenStarts serde maxJsonDepth chunks₁ chunks₂ :=
  flatMap_eq_iff (fun _ _ hc => processSseChunkLines_agree hc) h

/-- The JSON of an event of block 0, with the fields it has beside its index. -/
def blockJson (type fields : String) : List Char :=
  s!"\x7b\x22type\x22:\x22{type}\x22,\x22index\x22:0{fields}\x7d".toList

def thinkingStartJson : List Char :=
  blockJson "content_block_start"
    ",\x22content_block\x22:\x7b\x22type\x22:\x22thinking\x22,\x22thinking\x22:\x22\x22\x7d"

def thinkingDeltaJson (text : String) : List Char :=
  blockJson "content_block_delta"
    s!",\x22delta\x22:\x7b\x22type\x22:\x22thinking_delta\x22,\x22thinking\x22:\x22{text}\x22\x7d"

def blockStopJson : List Char := blockJson "content_block_stop" ""

/-- The value of an event of block 0. -/
def blockValue (type : String) (fields : List (String × Value)) : Value :=
  .object ([("type", .string type), ("index", .number (.posInt 0))] ++ fields)

def thinkingStartValue : Value :=
  blockValue "content_block_start"
    [("content_block", .object [("type", .string "thinking"), ("thinking", .string "")])]

def thinkingDeltaValue (text : String) : Value :=
  blockValue "content_block_delta"
    [("delta", .object [("type", .string "thinking_delta"), ("thinking", .string text)])]

def blockStopValue : Value := blockValue "content_block_stop" []

/-- `serde_json` on the events of two thinking blocks. -/
def thinkingSerde : Serde :=
  tableSerde [(.ofList thinkingStartJson, thinkingStartValue),
    (.ofList (thinkingDeltaJson "p"), thinkingDeltaValue "p"),
    (.ofList (thinkingDeltaJson "q"), thinkingDeltaValue "q"),
    (.ofList blockStopJson, blockStopValue)]

/-- A thinking block with one delta. -/
def thinkingChunk (text : String) : List Char :=
  joinLines [dataLine thinkingStartJson, dataLine (thinkingDeltaJson text), dataLine blockStopJson]

theorem lines_thinkingChunk : ∀ text ∈ ["p", "q"], Text.lines (thinkingChunk text) =
    [dataLine thinkingStartJson, dataLine (thinkingDeltaJson text), dataLine blockStopJson] := by
  decide +kernel

theorem sameStream_thinkingChunk :
    SameStream thinkingSerde [thinkingChunk "p"] [thinkingChunk "q"] := by
  have hdelta : SameButThinking (thinkingDeltaValue "p") (thinkingDeltaValue "q") :=
    @SameButThinking.delta (thinkingDeltaValue "p") _ _ "thinking" "q" rfl rfl rfl (by decide)
  unfold SameStream
  rw [List.forall₂_cons, lines_thinkingChunk "p" (by simp), lines_thinkingChunk "q" (by simp)]
  refine ⟨.cons (.inl rfl) (.cons (.inr ?_) (.cons (.inl rfl) .nil)), .nil⟩
  exact ⟨_, _, _, _, rfl, rfl, by decide +kernel, rfl, rfl, hdelta⟩

theorem hidden_iff_thinkingChunk :
    [thinkingChunk "p"].flatMap (processSseChunkLines thinkingSerde false 64) =
        [thinkingChunk "q"].flatMap (processSseChunkLines thinkingSerde false 64) ↔
      DifferAtHiddenStarts thinkingSerde 64 [thinkingChunk "p"] [thinkingChunk "q"] :=
  hidden_iff thinkingSerde 64 sameStream_thinkingChunk

/-- The text of a `thinking_delta` is forwarded. -/
theorem thinkingChunk_forwarded :
    SameStream thinkingSerde [thinkingChunk "p"] [thinkingChunk "q"] ∧
      [thinkingChunk "p"].flatMap (processSseChunkLines thinkingSerde false 64) ≠
        [thinkingChunk "q"].flatMap (processSseChunkLines thinkingSerde false 64) :=
  ⟨sameStream_thinkingChunk, by decide +kernel⟩

end ApertureRouter
