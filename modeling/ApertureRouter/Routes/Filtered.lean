import ApertureRouter.Lib.Blocks
import ApertureRouter.Routes.Thinking

/-!
# Blocks of a filtered stream

The blocks of an Anthropic stream that `process_sse_chunk_lines` is given, and of what it forwards
with `include_thinking = false`.

* `filtered_wellFormed_iff`: a well-formed stream stays well formed exactly if no start is dropped
  of a block that something else is forwarded of.
-/

namespace ApertureRouter

open Blocks Emit Sse Text

section

variable (serde : Serde) (maxJsonDepth : Nat)

/-- The event of a block that JSON data describes. A client does not dispatch an event without
data. -/
def blockEvent (data : List Char) : Option (BlockEvent (Option UInt64)) :=
  if data = [] then none
  else (serde.fromStr (.ofList data)).bind fun v =>
    let index := (v.get "index").bind (·.asU64)
    match typeOf v with
    | some "content_block_start" => some (.start index)
    | some "content_block_delta" => some (.delta index)
    | some "content_block_stop" => some (.stop index)
    | _ => none

/-- The data of a data line. -/
def lineData (line : List Char) : Option (List Char) :=
  match stripPrefix "event: ".toList line with
  | some _ => none
  | none => stripPrefix "data: ".toList line

/-- The data of a chunk. -/
def chunkData (chunk : List Char) : List (List Char) := (Text.lines chunk).filterMap lineData

/-- The data is forwarded although thinking is not. -/
def isForwarded (data : List Char) : Bool :=
  data = doneMarker || shouldInclude serde false maxJsonDepth data

/-- The events of the blocks of a stream, and whether they are forwarded. -/
def streamBlocks (chunks : List (List Char)) : List (BlockEvent (Option UInt64) × Bool) :=
  (chunks.flatMap chunkData).filterMap fun data =>
    (blockEvent serde data).map (·, isForwarded serde maxJsonDepth data)

/-- The events of the blocks of what is forwarded. -/
def forwardedBlocks (chunks : List (List Char)) : List (BlockEvent (Option UInt64)) :=
  (chunks.flatMap (processSseChunkLines serde false maxJsonDepth)).filterMap fun e =>
    blockEvent serde e.data

/-- A line forwards its data. -/
theorem proxyLine_data (line ty : List Char) :
    (proxyLine serde false maxJsonDepth line ty).2.map Event.data =
      (lineData line).toList.filter (isForwarded serde maxJsonDepth) := by
  rcases eventLine_or_dataLine line with ⟨t, rfl⟩ | ⟨d, rfl⟩ | ⟨he, hd⟩
  · rw [proxyLine_eventLine, lineData, stripPrefix_eventLine]
    rfl
  · rw [proxyLine, lineData, stripPrefix_event_dataLine, stripPrefix_dataLine]
    by_cases hd : d = doneMarker
    · simp [hd, isForwarded]
    · cases hi : shouldInclude serde false maxJsonDepth d <;> simp [hd, hi, isForwarded]
  · rw [proxyLine, lineData, he, hd]
    rfl

theorem proxyLines_data (ls : List (List Char)) (ty : List Char) :
    (Prog.forEach (proxyLine serde false maxJsonDepth) ls ty).2.map Event.data =
      (ls.filterMap lineData).filter (isForwarded serde maxJsonDepth) := by
  induction ls generalizing ty with
  | nil => rfl
  | cons line ls ih =>
    rw [Prog.forEach_cons, Prog.andThen_apply, List.map_append, ih, proxyLine_data,
      ← List.filter_append]
    cases h : lineData line <;> simp [h]

/-- An empty event stands for a chunk that forwards nothing. -/
theorem processSseChunkLines_blocks (chunk : List Char) :
    (processSseChunkLines serde false maxJsonDepth chunk).filterMap
        (fun e => blockEvent serde e.data) =
      ((chunkData chunk).filter (isForwarded serde maxJsonDepth)).filterMap (blockEvent serde) := by
  rw [chunkData, ← proxyLines_data serde maxJsonDepth _ "data".toList, List.filterMap_map]
  unfold processSseChunkLines
  simp only
  split
  · rename_i h
    rw [h]
    rfl
  · rfl

/-- What is forwarded of the blocks. -/
theorem forwardedBlocks_eq (chunks : List (List Char)) :
    forwardedBlocks serde maxJsonDepth chunks =
      forwarded (streamBlocks serde maxJsonDepth chunks) := by
  unfold forwardedBlocks streamBlocks
  induction chunks with
  | nil => rfl
  | cons c chunks ih =>
    rw [List.flatMap_cons, List.flatMap_cons, List.filterMap_append, List.filterMap_append,
      forwarded_append, ih, processSseChunkLines_blocks]
    congr 1
    induction chunkData c with
    | nil => rfl
    | cons data ds ihd =>
      cases hf : isForwarded serde maxJsonDepth data <;>
        cases hb : blockEvent serde data <;>
          simp [hf, hb, ihd]

/-- **Filtered blocks.** With thinking excluded, a well-formed stream is forwarded as a well-formed
one exactly if, whenever the start of a block is dropped that is not open, nothing else of the block
is forwarded before another start of it. -/
theorem filtered_wellFormed_iff (chunks : List (List Char))
    (h : WellFormed ((streamBlocks serde maxJsonDepth chunks).map Prod.fst)) :
    WellFormed (forwardedBlocks serde maxJsonDepth chunks) ↔
      NoOrphans (streamBlocks serde maxJsonDepth chunks) := by
  rw [forwardedBlocks_eq]
  exact wellFormed_forwarded_iff h

end

theorem streamBlocks_thinkingChunk :
    streamBlocks thinkingSerde 64 [thinkingChunk "p"] =
      [(.start (some 0), false), (.delta (some 0), true), (.stop (some 0), true)] := by
  decide +kernel

theorem filtered_wellFormed_iff_thinkingChunk :
    WellFormed (forwardedBlocks thinkingSerde 64 [thinkingChunk "p"]) ↔
      NoOrphans (streamBlocks thinkingSerde 64 [thinkingChunk "p"]) :=
  filtered_wellFormed_iff thinkingSerde 64 [thinkingChunk "p"] (by
    rw [streamBlocks_thinkingChunk]
    exact wellFormed_block (some 0))

/-- The delta and the stop of a thinking block are forwarded without its start. -/
theorem thinkingChunk_orphaned :
    WellFormed ((streamBlocks thinkingSerde 64 [thinkingChunk "p"]).map Prod.fst) ∧
      ¬WellFormed (forwardedBlocks thinkingSerde 64 [thinkingChunk "p"]) := by
  have hblocks : forwardedBlocks thinkingSerde 64 [thinkingChunk "p"] =
      [.delta (some 0), .stop (some 0)] := by
    rw [forwardedBlocks_eq, streamBlocks_thinkingChunk]
    rfl
  rw [streamBlocks_thinkingChunk, hblocks]
  exact ⟨wellFormed_block (some 0), fun h => not_isOpen_nil (h [] _ _ rfl (some 0) rfl)⟩

end ApertureRouter
