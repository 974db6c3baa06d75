import ApertureRouter.Proxy.ReadBody
import ApertureRouter.Routes.Streaming

/-!
# The data that `/v1/proxy` forwards

Where a body is cut can change the types of the events that `handle_proxy_stream`
(`src/routes/streaming.rs`) forwards, and how many empty ones it adds. It cannot change their data.

* `forwardedData`: the data that a line forwards, whatever the type before it is.
* `proxy_data_exact`: the data that is forwarded for the bytes of a body, in whatever chunks they come,
  is that of its events, in order, without the thinking blocks that are left out.
-/

namespace ApertureRouter

open Emit Sse Text Utf8

section

variable (serde : Serde) (includeThinking : Bool) (maxJsonDepth : Nat)

/-- The data is forwarded. -/
def forwards (data : List Char) : Bool :=
  data = doneMarker || shouldInclude serde includeThinking maxJsonDepth data

/-- The data that a line forwards. -/
def forwardedData (line : List Char) : List (List Char) :=
  match stripPrefix "event: ".toList line, stripPrefix "data: ".toList line with
  | none, some data => if forwards serde includeThinking maxJsonDepth data then [data] else []
  | _, _ => []

/-- The data of events, without the empty ones. -/
def dataOf (es : List Event) : List (List Char) := (es.map (·.data)).filter (· ≠ [])

theorem dataOf_append (es es' : List Event) : dataOf (es ++ es') = dataOf es ++ dataOf es' := by
  rw [dataOf, List.map_append, List.filter_append]
  rfl

theorem dataOf_flatMap {α : Type} (f : α → List Event) (l : List α) :
    dataOf (l.flatMap f) = l.flatMap fun a => dataOf (f a) := by
  induction l with
  | nil => rfl
  | cons a l ih => rw [List.flatMap_cons, dataOf_append, ih, List.flatMap_cons]

/-! ## Lines -/

/-- The type before a line has no part in its data. -/
theorem proxyLine_forwardedData (line ty : List Char) :
    (proxyLine serde includeThinking maxJsonDepth line ty).2.map (·.data) =
      forwardedData serde includeThinking maxJsonDepth line := by
  rcases eventLine_or_dataLine line with ⟨t, rfl⟩ | ⟨d, rfl⟩ | ⟨he, hd⟩
  · rw [proxyLine_eventLine, forwardedData, stripPrefix_eventLine]
    rfl
  · rw [proxyLine, forwardedData, stripPrefix_event_dataLine, stripPrefix_dataLine]
    by_cases hdone : d = doneMarker
    · simp [forwards, hdone]
    · cases hinclude : shouldInclude serde includeThinking maxJsonDepth d <;>
        simp [forwards, hdone, hinclude]
  · rw [proxyLine, forwardedData, he, hd]
    rfl

theorem proxyLines_forwardedData (ls : List (List Char)) (ty : List Char) :
    (Prog.forEach (proxyLine serde includeThinking maxJsonDepth) ls ty).2.map (·.data) =
      ls.flatMap (forwardedData serde includeThinking maxJsonDepth) := by
  induction ls generalizing ty with
  | nil => rfl
  | cons l ls ih =>
    rw [Prog.forEach_cons, Prog.andThen_apply, List.map_append, proxyLine_forwardedData, ih,
      List.flatMap_cons]

/-- The event that stands for none has no data. -/
theorem processSseChunkLines_data (chunk : List Char) :
    dataOf (processSseChunkLines serde includeThinking maxJsonDepth chunk) =
      ((Text.lines chunk).flatMap
        (forwardedData serde includeThinking maxJsonDepth)).filter (· ≠ []) := by
  rw [← proxyLines_forwardedData serde includeThinking maxJsonDepth _ "data".toList]
  unfold processSseChunkLines
  simp only
  split
  · rename_i h
    rw [h]
    rfl
  · rfl

@[simp] theorem forwardedData_nil : forwardedData serde includeThinking maxJsonDepth [] = [] := rfl

/-- Blank lines have no data. -/
theorem nonblank_data {ls : List (List Char)} (h : ∀ l ∈ ls, OneLine l) :
    (nonblank ls).flatMap (forwardedData serde includeThinking maxJsonDepth) =
      ls.flatMap (forwardedData serde includeThinking maxJsonDepth) := by
  rw [← proxyLines_forwardedData serde includeThinking maxJsonDepth _ [],
    ← proxyLines_nonblank serde maxJsonDepth includeThinking h, proxyLines_forwardedData]

/-! ## Events -/

theorem event_data (e : Event) : e.lines.flatMap (forwardedData serde includeThinking maxJsonDepth) =
    if forwards serde includeThinking maxJsonDepth e.data then [e.data] else [] := by
  have hdata : forwardedData serde includeThinking maxJsonDepth (dataLine e.data) =
      if forwards serde includeThinking maxJsonDepth e.data then [e.data] else [] := by
    rw [forwardedData, stripPrefix_event_dataLine, stripPrefix_dataLine]
  have hevent : ∀ t, forwardedData serde includeThinking maxJsonDepth (eventLine t) = [] := fun t => by
    rw [forwardedData, stripPrefix_eventLine]
  rw [Event.lines]
  cases e.event with
  | none => rw [List.flatMap_singleton, hdata]
  | some t => rw [List.flatMap_cons, List.flatMap_singleton, hevent, hdata, List.nil_append]

theorem events_data (es : List Event) :
    ((es.flatMap Event.lines).flatMap
        (forwardedData serde includeThinking maxJsonDepth)).filter (· ≠ []) =
      dataOf (es.filter fun e => forwards serde includeThinking maxJsonDepth e.data) := by
  induction es with
  | nil => rfl
  | cons e es ih =>
    rw [List.flatMap_cons, List.flatMap_append, List.filter_append, ih, event_data, List.filter_cons]
    split
    · exact (dataOf_append [e] _).symm
    · rfl

/-! ## Bodies -/

/-- The data that is forwarded for chunks of text. -/
theorem proxyEvents_data {eol : LineEnd} {es : List Event} (hes : ∀ e ∈ es, e.Fits)
    {chunks : List (List Char)} (h : chunks.flatten = body eol es) :
    dataOf (proxyEvents serde includeThinking maxJsonDepth (chunks.map .ok)) =
      dataOf (es.filter fun e => forwards serde includeThinking maxJsonDepth e.data) := by
  obtain ⟨hflat, hflush⟩ := allBatches_lines hes h
  have hone : ∀ b ∈ allBatches chunks, ∀ l ∈ b, OneLine l := fun b hb l hl =>
    oneLine_flatMap_lines hes l (hflat ▸ List.mem_flatten.mpr ⟨b, hb, hl⟩)
  have hbatch : ∀ b ∈ SseLineBuffer.batches .new chunks,
      dataOf (processSseChunkLines serde includeThinking maxJsonDepth (joinLines b)) =
        (b.flatMap (forwardedData serde includeThinking maxJsonDepth)).filter (· ≠ []) := by
    intro b hb
    have hlines := hone b (List.mem_append_left _ hb)
    rw [processSseChunkLines_data, lines_joinLines (SseLineBuffer.batches_ne_nil hb)
      (fun l hl => (hlines l hl).noLf) fun l hl => stripSuffix_of_notMem (hlines l hl).noCr]
  rw [← events_data, ← hflat, proxyEvents, bufferedLines_eq, List.flatMap_map, dataOf_flatMap,
    List.flatMap_append, List.flatMap_map, allBatches, List.flatten_append, List.flatMap_append,
    List.filter_append, List.flatMap_congr hbatch]
  congr 1
  · rw [← List.flatMap_id, List.flatMap_assoc, List.filter_flatMap]
    rfl
  · by_cases hb : (Prog.forEach SseLineBuffer.push chunks .new).1.buf = []
    · simp [SseLineBuffer.takeRemainder, hb]
    · simp only [SseLineBuffer.takeRemainder, if_neg hb, Option.toList_some, List.flatMap_singleton,
        List.flatten_singleton]
      rw [processSseChunkLines_data, ← nonblank_lines, nonblank_data _ _ _ hflush]

/-- **The data of `/v1/proxy`.** The data that is forwarded for the bytes of a body, in whatever chunks
they come, is that of its events, in order, without what is left out as thinking. -/
theorem proxy_data_exact (maxSize : Nat) (eol : LineEnd) {es : List Event} (hes : ∀ e ∈ es, e.Fits)
    {chunks : List (List UInt8)} (hbody : chunks.flatten = encode (body eol es))
    (hsize : chunks.flatten.length ≤ maxSize) :
    dataOf (proxyEvents serde includeThinking maxJsonDepth (makeUtf8Stream maxSize (chunks.map .ok))) =
      dataOf (es.filter fun e => forwards serde includeThinking maxJsonDepth e.data) := by
  have hclean : Clean ({} : Utf8State).leftover chunks.flatten (body eol es) := hbody ▸ Clean.init _
  have htotal : ({} : Utf8State).totalBytes + chunks.flatten.length ≤ maxSize := by
    rw [show ({} : Utf8State).totalBytes = 0 from rfl, Nat.zero_add]
    exact hsize
  obtain ⟨texts, hitems, hflat⟩ := hclean.items htotal
  rw [makeUtf8Stream, hitems]
  exact proxyEvents_data serde includeThinking maxJsonDepth hes hflat

end

/-- A thinking block and `é`, cut inside their lines. -/
def thinkingThenText : List Event :=
  [{ event := some "content_block_start".toList, data := "t".toList }, { event := none, data := ['é'] }]

/-- The parser of the data: `t` is a thinking block. -/
def thinkingTextSerde : Serde := tableSerde [("t", .object [("type", .string "content_block_start"),
  ("content_block", .object [("type", .string "thinking")])])]

theorem proxy_data_exact_thinkingThenText :
    let bytes := encode (body .crlf thinkingThenText)
    dataOf (proxyEvents thinkingTextSerde false 64
        (makeUtf8Stream 100 ([bytes.take 30, bytes.drop 30].map .ok))) =
      dataOf (thinkingThenText.filter fun e => forwards thinkingTextSerde false 64 e.data) :=
  proxy_data_exact thinkingTextSerde false 64 100 .crlf (by decide +kernel) (by decide +kernel)
    (by decide +kernel)

/-- The thinking block is left out, and the text is forwarded. -/
example : dataOf (thinkingThenText.filter fun e => forwards thinkingTextSerde false 64 e.data) =
    [['é']] := by
  decide +kernel

end ApertureRouter
