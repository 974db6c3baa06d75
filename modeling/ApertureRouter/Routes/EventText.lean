import ApertureRouter.Routes.Streaming

/-!
# The text of events

A line terminator in the text of an event does not reach the client as it is: `Event::event` of `axum`
panics on it, which aborts the router, and `Event::data` begins another data line. The lines that
`process_sse_chunk_lines` (`src/routes/streaming.rs`) and `process_sse_chunk_lines_anthropic`
(`src/routes/messages.rs`) read have no `\n`, and a `\r` in front of one is stripped. But a `\r` inside a
line stays where it is, and on `/v1/proxy` so does one at the end of the stream.

* `LineReader`: both functions as one, with what they do with the type of an event. `Safe`: no data
  that is forwarded has a `\r`, and no type that is in force there has one.
* `LineReader.fits_iff`: the lines are forwarded as events that fit on lines exactly if they are
  safe.
* `event_text_iff`: this for the streams of both paths.
-/

namespace ApertureRouter

open Emit Lines Sse Text

/-- How the lines of a batch are forwarded. -/
structure LineReader where
  /-- The type that an `event: ` line sets. -/
  name : List Char → List Char
  /-- The type that an event is sent with. -/
  sent : List Char → Option (List Char)
  /-- The data of a line is forwarded. -/
  forwarded : List Char → Bool
  /-- A type is for one event only. -/
  once : Bool
  name_noLf : ∀ t, '\n' ∉ t → '\n' ∉ name t
  sent_iff : ∀ t, (∀ u ∈ sent t, OneLine u) ↔ OneLine t

namespace LineReader

variable (r : LineReader)

/-- A line. The state is the type. -/
def line (line : List Char) : Prog (List Char) Event := fun eventType =>
  match stripPrefix "event: ".toList line with
  | some t => (r.name t, [])
  | none =>
    match stripPrefix "data: ".toList line with
    | some data =>
      if data = doneMarker then (eventType, [{ event := none, data := data }])
      else if r.forwarded data then
        (if r.once then [] else eventType, [{ event := r.sent eventType, data := data }])
      else (eventType, [])
    | none => (eventType, [])

/-- The data is forwarded with the type in force. -/
def Typed (data : List Char) : Prop := data ≠ doneMarker ∧ r.forwarded data = true

/-- The line ends the type before it. -/
def Resets (line : List Char) : Prop :=
  (∃ t, line = eventLine t) ∨ r.once = true ∧ ∃ d, line = dataLine d ∧ r.Typed d

/-- A type in front of the lines is in force at a line with the data `d`. -/
def Reaches (ls : List (List Char)) (d : List Char) : Prop :=
  ∃ mid post, ls = mid ++ dataLine d :: post ∧ ∀ l ∈ mid, ¬r.Resets l

/-- The type of an `event: t` line is in force at a line with the data `d`. -/
def Names (ls : List (List Char)) (t d : List Char) : Prop :=
  ∃ pre rest, ls = pre ++ eventLine t :: rest ∧ r.Reaches rest d

/-- No data that is forwarded has a `\r`, and no type in force there has one. -/
structure Safe (ls : List (List Char)) : Prop where
  data : ∀ d, dataLine d ∈ ls → r.Typed d → '\r' ∉ d
  name : ∀ t d, r.Names ls t d → r.Typed d → '\r' ∉ r.name t

variable {r} {l : List Char} {ls : List (List Char)} {t d : List Char}

theorem reaches_cons :
    r.Reaches (l :: ls) d ↔ l = dataLine d ∨ ¬r.Resets l ∧ r.Reaches ls d := by
  constructor
  · rintro ⟨mid, post, h, hmid⟩
    cases mid with
    | nil => exact .inl (List.cons.inj h).1
    | cons m mid =>
      obtain ⟨rfl, rfl⟩ := List.cons.inj h
      obtain ⟨hl, hmid⟩ := List.forall_mem_cons.mp hmid
      exact .inr ⟨hl, mid, post, rfl, hmid⟩
  · rintro (rfl | ⟨hl, mid, post, rfl, hmid⟩)
    · exact ⟨[], ls, rfl, by simp⟩
    · exact ⟨l :: mid, post, rfl, List.forall_mem_cons.mpr ⟨hl, hmid⟩⟩

theorem names_cons :
    r.Names (l :: ls) t d ↔ l = eventLine t ∧ r.Reaches ls d ∨ r.Names ls t d := by
  constructor
  · rintro ⟨pre, rest, h, hreach⟩
    cases pre with
    | nil =>
      obtain ⟨rfl, rfl⟩ := List.cons.inj h
      exact .inl ⟨rfl, hreach⟩
    | cons p pre =>
      obtain ⟨rfl, rfl⟩ := List.cons.inj h
      exact .inr ⟨pre, rest, rfl, hreach⟩
  · rintro (⟨rfl, hreach⟩ | ⟨pre, rest, rfl, hreach⟩)
    · exact ⟨[], ls, rfl, hreach⟩
    · exact ⟨l :: pre, rest, rfl, hreach⟩

theorem safe_nil : r.Safe [] where
  data _ h := absurd h List.not_mem_nil
  name _ _ h := by
    obtain ⟨pre, rest, h, -⟩ := h
    exact absurd h (by simp)

theorem safe_cons :
    r.Safe (l :: ls) ↔ (∀ d, l = dataLine d → r.Typed d → '\r' ∉ d) ∧
      (∀ t d, l = eventLine t → r.Reaches ls d → r.Typed d → '\r' ∉ r.name t) ∧ r.Safe ls := by
  constructor
  · intro h
    refine ⟨fun d hl => h.data d (hl ▸ List.mem_cons_self), fun t d hl hreach => ?_, ?_⟩
    · exact h.name t d (names_cons.mpr (.inl ⟨hl, hreach⟩))
    · exact ⟨fun d hd => h.data d (List.mem_cons_of_mem l hd),
        fun t d hn => h.name t d (names_cons.mpr (.inr hn))⟩
  · rintro ⟨hdata, hname, h⟩
    constructor
    · intro d hd
      rcases List.mem_cons.mp hd with hl | hd
      · exact hdata d hl.symm
      · exact h.data d hd
    · intro t d hn
      rcases names_cons.mp hn with ⟨hl, hreach⟩ | hn
      · exact hname t d hl hreach
      · exact h.name t d hn

@[simp] theorem line_eventLine (r : LineReader) (t ty : List Char) :
    r.line (eventLine t) ty = (r.name t, []) := by
  rw [line, stripPrefix_eventLine]

@[simp] theorem line_dataLine (r : LineReader) (d ty : List Char) :
    r.line (dataLine d) ty =
      if d = doneMarker then (ty, [{ event := none, data := d }])
      else if r.forwarded d then
        (if r.once then [] else ty, [{ event := r.sent ty, data := d }])
      else (ty, []) := by
  rw [line, stripPrefix_event_dataLine, stripPrefix_dataLine]

/-- What a line does: it sets the type, is forwarded with it, or leaves it as it is. -/
theorem line_cases (r : LineReader) (l ty : List Char) :
    (∃ t, l = eventLine t ∧ r.line l ty = (r.name t, [])) ∨
    (∃ d, l = dataLine d ∧ r.Typed d ∧
      r.line l ty = (if r.once then [] else ty, [{ event := r.sent ty, data := d }])) ∨
    ((∀ t, l ≠ eventLine t) ∧ (∀ d, l = dataLine d → ¬r.Typed d) ∧ (r.line l ty).1 = ty ∧
      ∀ e ∈ (r.line l ty).2, e.Fits) := by
  rcases eventLine_or_dataLine l with ⟨t, rfl⟩ | ⟨d, rfl⟩ | ⟨he, hd⟩
  · exact .inl ⟨t, rfl, r.line_eventLine t ty⟩
  · by_cases htyped : r.Typed d
    · refine .inr (.inl ⟨d, rfl, htyped, ?_⟩)
      rw [line_dataLine, if_neg htyped.1, if_pos htyped.2]
    · refine .inr (.inr ⟨fun t h => eventLine_ne_dataLine t d h.symm, fun d' hl => ?_, ?_⟩)
      · rw [← List.append_cancel_left hl]
        exact htyped
      · rw [line_dataLine]
        by_cases hdone : d = doneMarker
        · rw [if_pos hdone, hdone]
          refine ⟨rfl, ?_⟩
          show ∀ e ∈ [Event.mk none doneMarker], e.Fits
          decide +kernel
        · rw [if_neg hdone, if_neg fun hfwd => htyped ⟨hdone, hfwd⟩]
          exact ⟨rfl, by simp⟩
  · refine .inr (.inr ⟨?_, ?_, ?_⟩)
    · rintro t rfl
      rw [stripPrefix_eventLine] at he
      cases he
    · rintro d rfl
      rw [stripPrefix_dataLine] at hd
      cases hd
    · rw [line, he, hd]
      exact ⟨rfl, by simp⟩

/-- An event is sent on lines if neither its type nor its data has a `\r`. -/
theorem fits_sent_iff {ty : List Char} (hty : '\n' ∉ ty) (hd : '\n' ∉ d) :
    Event.Fits { event := r.sent ty, data := d } ↔ '\r' ∉ ty ∧ '\r' ∉ d := by
  have htype := r.sent_iff ty
  constructor
  · rintro ⟨hevent, hdata⟩
    exact ⟨(htype.mp hevent).noCr, hdata.noCr⟩
  · rintro ⟨hcr, hcr'⟩
    exact ⟨htype.mpr ⟨hty, hcr⟩, hd, hcr'⟩

theorem resets_eventLine (t : List Char) : r.Resets (eventLine t) := .inl ⟨t, rfl⟩

/-- The type at the start has no `\r`, or is in force at no data that is forwarded. -/
def Clean (r : LineReader) (ls : List (List Char)) (ty : List Char) : Prop :=
  ∀ d, r.Reaches ls d → r.Typed d → '\r' ∉ ty

theorem clean_eventLine (ty : List Char) : r.Clean (eventLine t :: ls) ty := by
  intro d hreach _
  rcases reaches_cons.mp hreach with h | ⟨h, -⟩
  · exact absurd h (eventLine_ne_dataLine t d)
  · exact absurd (resets_eventLine t) h

theorem safe_eventLine :
    r.Safe (eventLine t :: ls) ↔ r.Safe ls ∧ r.Clean ls (r.name t) := by
  rw [safe_cons]
  constructor
  · rintro ⟨-, hname, h⟩
    exact ⟨h, fun d hreach => hname t d rfl hreach⟩
  · rintro ⟨h, hclean⟩
    refine ⟨fun d hl => absurd hl (eventLine_ne_dataLine t d), fun t' d hl hreach => ?_, h⟩
    rw [← List.append_cancel_left hl]
    exact hclean d hreach

/-- Data that is forwarded with the type in force. -/
theorem clean_dataLine (htyped : r.Typed d) (ty : List Char) :
    r.Clean (dataLine d :: ls) ty ↔ '\r' ∉ ty := by
  constructor
  · intro h
    exact h d (reaches_cons.mpr (.inl rfl)) htyped
  · exact fun h _ _ _ => h

theorem safe_dataLine (htyped : r.Typed d) :
    r.Safe (dataLine d :: ls) ↔ '\r' ∉ d ∧ r.Safe ls := by
  rw [safe_cons]
  constructor
  · rintro ⟨hdata, -, h⟩
    exact ⟨hdata d rfl htyped, h⟩
  · rintro ⟨hd, h⟩
    refine ⟨fun d' hl _ => ?_, fun t d' hl => absurd hl.symm (eventLine_ne_dataLine t d), h⟩
    rw [← List.append_cancel_left hl]
    exact hd

/-- A line that neither sets the type nor is forwarded with it. -/
theorem safe_and_clean_cons (hevent : ∀ t, l ≠ eventLine t)
    (hdata : ∀ d, l = dataLine d → ¬r.Typed d) (ty : List Char) :
    r.Safe (l :: ls) ∧ r.Clean (l :: ls) ty ↔ r.Safe ls ∧ r.Clean ls ty := by
  have hresets : ¬r.Resets l := by
    rintro (⟨t, hl⟩ | ⟨-, d, hl, htyped⟩)
    · exact hevent t hl
    · exact hdata d hl htyped
  rw [safe_cons]
  constructor
  · rintro ⟨⟨-, -, h⟩, hclean⟩
    exact ⟨h, fun d hreach => hclean d (reaches_cons.mpr (.inr ⟨hresets, hreach⟩))⟩
  · rintro ⟨h, hclean⟩
    refine ⟨⟨fun d hl htyped => absurd htyped (hdata d hl), fun t d hl => absurd hl (hevent t), h⟩, ?_⟩
    intro d hreach htyped
    rcases reaches_cons.mp hreach with hl | ⟨-, hreach⟩
    · exact absurd htyped (hdata d hl)
    · exact hclean d hreach htyped

/-- **The lines of a batch.** By induction on the lines: the type at the start counts for the data
that it reaches. -/
theorem fits_iff (hlf : ∀ l ∈ ls, '\n' ∉ l) {ty : List Char} (hty : '\n' ∉ ty) :
    (∀ e ∈ (Prog.forEach r.line ls ty).2, e.Fits) ↔ r.Safe ls ∧ r.Clean ls ty := by
  induction ls generalizing ty with
  | nil => simp [safe_nil, Clean, Reaches]
  | cons l ls ih =>
    obtain ⟨hl, hls⟩ := List.forall_mem_cons.mp hlf
    rw [Prog.forEach_cons, Prog.andThen_apply, List.forall_mem_append]
    rcases r.line_cases l ty with ⟨t, rfl, h⟩ | ⟨d, rfl, htyped, h⟩ | ⟨hevent, hdata, hty', hfits⟩
    · have ht : '\n' ∉ r.name t := r.name_noLf t fun hmem => hl (List.mem_append_right _ hmem)
      rw [h, ih hls ht, safe_eventLine]
      exact ⟨fun hsafe => ⟨hsafe.2, clean_eventLine ty⟩, fun hsafe => ⟨by simp, hsafe.1⟩⟩
    · have hd : '\n' ∉ d := fun hmem => hl (List.mem_append_right _ hmem)
      rw [h, List.forall_mem_singleton, fits_sent_iff hty hd, safe_dataLine htyped,
        clean_dataLine htyped]
      cases honce : r.once with
      | true =>
        -- The type is gone.
        have hclean : r.Clean ls [] := fun _ _ _ => List.not_mem_nil
        rw [if_pos rfl, ih hls List.not_mem_nil]
        tauto
      | false =>
        have hclean : '\r' ∉ ty → r.Clean ls ty := fun hcr _ _ _ => hcr
        rw [if_neg Bool.false_ne_true, ih hls hty]
        tauto
    · rw [hty', ih hls hty, safe_and_clean_cons hevent hdata]
      exact and_iff_right hfits

end LineReader

/-! ## `/v1/proxy` -/

section

variable (serde : Serde) (includeThinking : Bool) (maxJsonDepth : Nat)

theorem sentType_oneLine_iff (t : List Char) : (∀ u ∈ sentType t, OneLine u) ↔ OneLine t := by
  unfold sentType
  split
  · rename_i h
    refine iff_of_true (by simp) ?_
    rcases h with rfl | rfl <;> decide +kernel
  · simp

/-- `process_sse_chunk_lines`. -/
def proxyReader : LineReader where
  name := trim
  sent := sentType
  forwarded := shouldInclude serde includeThinking maxJsonDepth
  once := false
  name_noLf _ h hmem := h (mem_of_mem_trim hmem)
  sent_iff := sentType_oneLine_iff

theorem proxyReader_line :
    (proxyReader serde includeThinking maxJsonDepth).line =
      proxyLine serde includeThinking maxJsonDepth := by
  funext l ty
  unfold LineReader.line proxyLine
  cases stripPrefix "event: ".toList l with
  | some t => rfl
  | none => cases stripPrefix "data: ".toList l <;> rfl

variable {serde includeThinking maxJsonDepth}

theorem fits_processSseChunkLines {chunk : List Char} :
    (∀ e ∈ processSseChunkLines serde includeThinking maxJsonDepth chunk, e.Fits) ↔
      (proxyReader serde includeThinking maxJsonDepth).Safe (Text.lines chunk) := by
  have hrun := LineReader.fits_iff (r := proxyReader serde includeThinking maxJsonDepth)
    (lines_notMem chunk) (show '\n' ∉ "data".toList by decide +kernel)
  have hclean : (proxyReader serde includeThinking maxJsonDepth).Clean (Text.lines chunk)
      "data".toList := fun _ _ _ => by decide +kernel
  rw [proxyReader_line, and_iff_left hclean] at hrun
  rw [← hrun]
  unfold processSseChunkLines
  simp only
  split
  · rename_i h
    rw [h]
    exact iff_of_true (by decide +kernel) (by simp)
  · rfl

/-- The lines that a push completes are read as they are. -/
theorem lines_joinLines_completed (b : SseLineBuffer) (chunk : List Char)
    (hne : b.completed chunk ≠ []) :
    Text.lines (joinLines (b.completed chunk)) = b.completed chunk := by
  refine lines_joinLines hne (nonblank_notMem (split_notMem _)) fun l hl => ?_
  obtain ⟨m, -, rfl, -⟩ := mem_nonblank.mp hl
  exact stripSuffix_trimEndMatches '\r' m

variable (serde includeThinking maxJsonDepth)

/-- The lines of an item are safe. -/
def ItemSafe : Except String (List Char) → Prop
  | .ok data => (proxyReader serde includeThinking maxJsonDepth).Safe (Text.lines data)
  | .error _ => True

variable {serde includeThinking maxJsonDepth}

theorem fits_proxyEvents {response : List (Except String (List Char))} :
    (∀ e ∈ proxyEvents serde includeThinking maxJsonDepth response, e.Fits) ↔
      ∀ item ∈ bufferedLines response, ItemSafe serde includeThinking maxJsonDepth item := by
  rw [proxyEvents, List.forall_mem_flatMap]
  refine forall₂_congr fun item _ => ?_
  cases item with
  | ok data => exact fits_processSseChunkLines
  | error e =>
    refine iff_of_true ?_ trivial
    show ∀ e ∈ [Event.mk none streamProcessingError], e.Fits
    decide +kernel

/-- A chunk is passed on as the lines that it completes. -/
theorem itemSafe_bufferItem (b : SseLineBuffer) (item : Except String (List Char)) :
    (∀ item' ∈ (bufferItem item b).2, ItemSafe serde includeThinking maxJsonDepth item') ↔
      ∀ chunk, item = .ok chunk →
        (proxyReader serde includeThinking maxJsonDepth).Safe (b.completed chunk) := by
  cases item with
  | error e =>
    refine iff_of_true ?_ fun _ h => by cases h
    exact List.forall_mem_singleton.mpr trivial
  | ok chunk =>
    have hlines : (SseLineBuffer.push chunk b).2 = b.completed chunk := by
      rw [SseLineBuffer.push_eq]
    simp only [bufferItem, hlines, Except.ok.injEq, forall_eq']
    split
    · rename_i h
      rw [h]
      exact iff_of_true (by simp) LineReader.safe_nil
    · rename_i h
      rw [List.forall_mem_singleton, ItemSafe, lines_joinLines_completed b chunk h]

/-- What is left at the end is passed on as it is. -/
theorem itemSafe_takeRemainder (b : SseLineBuffer) :
    (∀ item ∈ (b.takeRemainder.map Except.ok).toList,
        ItemSafe serde includeThinking maxJsonDepth item) ↔
      (proxyReader serde includeThinking maxJsonDepth).Safe (Text.lines b.buf) := by
  unfold SseLineBuffer.takeRemainder
  split
  · rename_i h
    rw [h]
    exact iff_of_true (by simp) LineReader.safe_nil
  · rw [Option.map_some, Option.toList_some, List.forall_mem_singleton]
    rfl

end

/-! ## Anthropic-direct -/

/-- `process_sse_chunk_lines_anthropic`. -/
def anthropicReader : LineReader where
  name := id
  sent t := if t = [] then none else some t
  forwarded _ := true
  once := true
  name_noLf _ h := h
  sent_iff t := by
    split
    · rename_i h
      rw [h]
      exact iff_of_true (by simp) (by decide)
    · simp

theorem anthropicReader_line : anthropicReader.line = anthropicLine := by
  funext l ty
  unfold LineReader.line anthropicLine
  cases stripPrefix "event: ".toList l with
  | some t => rfl
  | none => cases stripPrefix "data: ".toList l <;> rfl

theorem fits_processSseChunkLinesAnthropic {chunk : List Char} :
    (∀ e ∈ processSseChunkLinesAnthropic chunk, e.Fits) ↔ anthropicReader.Safe (content chunk) := by
  have hlf : ∀ l ∈ content chunk, '\n' ∉ l := nonblank_notMem (pieces_notMem chunk)
  have hclean : anthropicReader.Clean (content chunk) [] := fun _ _ _ => List.not_mem_nil
  rw [processSseChunkLinesAnthropic_eq, ← anthropicReader_line,
    LineReader.fits_iff hlf List.not_mem_nil, and_iff_left hclean]

theorem fits_anthropicDirectEvents {rawStream : List (Except String (List Char))} :
    (∀ e ∈ anthropicDirectEvents rawStream, e.Fits) ↔
      ∀ chunk, .ok chunk ∈ rawStream → anthropicReader.Safe (content chunk) := by
  rw [anthropicDirectEvents, List.forall_mem_flatMap]
  constructor
  · intro h chunk hchunk
    exact fits_processSseChunkLinesAnthropic.mp (h _ hchunk)
  · intro h item hitem
    cases item with
    | ok chunk => exact fits_processSseChunkLinesAnthropic.mpr (h chunk hitem)
    | error e =>
      show ∀ e ∈ [Event.mk none directInterrupted], e.Fits
      decide +kernel

/-! ## Both paths -/

/-- For every stream of either path, all texts of its events are on one line exactly if no data that
is forwarded has a `\r` inside its line, and no type in force there has one. On `/v1/proxy` the lines
are those that each push completes, and those that are left at the end. -/
theorem event_text_iff (serde : Serde) (includeThinking : Bool) (maxJsonDepth : Nat)
    (stream : List (Except String (List Char))) :
    ((∀ e ∈ proxyEvents serde includeThinking maxJsonDepth stream, e.Fits) ↔
      Along (fun b item => ∀ chunk, item = .ok chunk →
          (proxyReader serde includeThinking maxJsonDepth).Safe (b.completed chunk))
        bufferItem .new stream ∧
      (proxyReader serde includeThinking maxJsonDepth).Safe
        (Text.lines (Prog.forEach bufferItem stream .new).1.buf)) ∧
    ((∀ e ∈ anthropicDirectEvents stream, e.Fits) ↔
      ∀ chunk, .ok chunk ∈ stream → anthropicReader.Safe (content chunk)) := by
  refine ⟨?_, fits_anthropicDirectEvents⟩
  rw [fits_proxyEvents, bufferedLines, List.forall_mem_append,
    Along.forall_mem_forEach itemSafe_bufferItem, itemSafe_takeRemainder]

/-- A data line with a `\r` inside. -/
def loneCr : List Char := "data: a\rb\n".toList

/-- And an event line, before one without. -/
def loneCrEvent : List Char := "event: a\rb\ndata: c\n".toList

theorem loneCr_breaks_events :
    ((¬∀ e ∈ proxyEvents (tableSerde []) true 64 [.ok loneCr], e.Fits) ∧
      ¬∀ e ∈ anthropicDirectEvents [.ok loneCr], e.Fits) ∧
    (¬∀ e ∈ proxyEvents (tableSerde []) true 64 [.ok loneCrEvent], e.Fits) ∧
      ¬∀ e ∈ anthropicDirectEvents [.ok loneCrEvent], e.Fits := by
  decide +kernel

/-- At the end of the stream, `/v1/proxy` does not strip a `\r`. -/
example :
    (¬∀ e ∈ proxyEvents (tableSerde []) true 64 [.ok "data: a\r".toList], e.Fits) ∧
      ∀ e ∈ anthropicDirectEvents [.ok "data: a\r".toList], e.Fits := by
  decide +kernel

end ApertureRouter
