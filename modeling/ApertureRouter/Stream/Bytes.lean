import ApertureRouter.Lib.Offsets
import ApertureRouter.Proxy.ReadBody
import ApertureRouter.Routes.Messages
import ApertureRouter.Stream.Agreement

/-!
# From the bytes of the upstream to the client

`forward_request_stream` gives `build_anthropic_sse` what `make_utf8_stream` makes of the bytes that
the network delivers. Here the two are put together.

* `Readable`: the bytes are UTF-8 within the limit of the stream, and a line and a chunk together are
  within the limit of the line buffer.
* `sse_of_bytes`: then the client gets what the lines of the text say, whatever the cuts are.
-/

namespace ApertureRouter

open Emit Text Utf8

/-! ## Lines and chunks that fit the line buffer -/

/-- Every line of the text has at most `n` bytes. -/
def LinesWithin (n : Nat) (text : List Char) : Prop :=
  ∀ l ∈ Lines.pieces '\n' text, utf8Len l ≤ n

instance (n : Nat) (text : List Char) : Decidable (LinesWithin n text) :=
  inferInstanceAs (Decidable (∀ l ∈ _, _))

/-- An unfinished line is a part of a line. -/
theorem LinesWithin.buffer {n : Nat} {buffer rest : List Char} (h : LinesWithin n (buffer ++ rest))
    (hbuffer : '\n' ∉ buffer) : utf8Len buffer ≤ n := by
  obtain ⟨init, f, g, -, -, hpieces⟩ := Lines.pieces_append '\n' buffer rest
  rw [Lines.split_of_notMem hbuffer] at hpieces
  have hle := h (buffer ++ f) (by rw [hpieces]; simp)
  rw [utf8Len_append] at hle
  omega

/-- What is behind the finished lines has no other lines. -/
theorem LinesWithin.rest {n : Nat} {a b : List Char} (h : LinesWithin n (a ++ b)) :
    LinesWithin n ((Lines.split '\n' a).2 ++ b) := by
  intro l hl
  refine h l ?_
  rw [Lines.pieces, Lines.split_append]
  rcases List.mem_append.mp hl with hl | hl
  · exact List.mem_append_left _ (List.mem_append_right _ hl)
  · exact List.mem_append_right _ hl

variable {order : IterOrder Nat ToolBlockState} {serde : Serde}

/-- Lines and chunks that are together within the limit never make the buffer overflow. -/
theorem fitsBuffer_of_lines {n m : Nat} (hlimit : n + m ≤ maxLineBuffer)
    {c : OpenAIToAnthropicStreamConverter} (hc : '\n' ∉ c.lineBuffer) {rawChunks : List (List Char)}
    (hlines : LinesWithin n (c.lineBuffer ++ rawChunks.flatten))
    (hchunks : ∀ raw ∈ rawChunks, utf8Len raw ≤ m) : FitsBuffer order serde c rawChunks := by
  induction rawChunks generalizing c with
  | nil => trivial
  | cons raw rest ih =>
    obtain ⟨hraw, hrest⟩ := List.forall_mem_cons.mp hchunks
    rw [List.flatten_cons] at hlines
    have hfit : utf8Len (c.lineBuffer ++ raw) ≤ maxLineBuffer := by
      have hbuffer := hlines.buffer hc
      rw [utf8Len_append]
      omega
    have hnext : (convertChunk order serde raw c).1.lineBuffer =
        (Lines.split '\n' (c.lineBuffer ++ raw)).2 := by
      rw [convertChunk_eq, readChunk_of_fits serde hfit]
    refine ⟨hfit, ih ?_ ?_ hrest⟩
    · rw [hnext]
      exact Lines.split_rest_notMem _
    · rw [← List.append_assoc] at hlines
      rw [hnext]
      exact hlines.rest

/-- A text that fits is read in one chunk as it is read line by line. -/
theorem inputsOf_singleton {text : List Char} (h : utf8Len text ≤ maxLineBuffer) :
    inputsOf serde [text] = readLines serde text := by
  have hread : readChunk serde text [] = ((Lines.split '\n' text).2, readLines serde text) :=
    readChunk_of_fits serde h
  rw [inputsOf, readChunks, Prog.forEach_cons, Prog.andThen_apply, hread]
  simp

/-! ## Chunks of bytes -/

/-- The chunks are UTF-8 within `maxSize`, and a line, a chunk and a part of a character are together
within the limit of the line buffer. -/
structure Readable (maxSize : Nat) (chunks : List (List UInt8)) (text : List Char) : Prop where
  utf8 : chunks.flatten = encode text
  size : chunks.flatten.length ≤ maxSize
  room : ∃ n m, LinesWithin n text ∧ (∀ chunk ∈ chunks, chunk.length ≤ m) ∧ n + (m + 3) ≤ maxLineBuffer

/-- A chunk is decoded to a text that is no longer, but for the part of a character before it. -/
theorem Clean.items_le {maxSize m : Nat} {state : Utf8State} {s : List Char}
    {chunks : List (List UInt8)} (h : Clean state.leftover chunks.flatten s)
    (hmax : state.totalBytes + chunks.flatten.length ≤ maxSize)
    (hchunks : ∀ chunk ∈ chunks, chunk.length ≤ m) :
    ∃ texts : List (List Char), utf8Items maxSize state (chunks.map .ok) = texts.map .ok ∧
      texts.flatten = s ∧ ∀ text ∈ texts, utf8Len text ≤ m + 3 := by
  induction chunks generalizing state s with
  | nil => exact ⟨[], rfl, h.finish.2.symm, fun text ht => absurd ht List.not_mem_nil⟩
  | cons chunk chunks ih =>
    obtain ⟨hchunk, hrest⟩ := List.forall_mem_cons.mp hchunks
    rw [List.flatten_cons, List.length_append] at hmax
    rw [List.flatten_cons] at h
    have hpart := h.begins.length_le
    obtain ⟨t, s', leftover, rfl, hcut, hre, hclean⟩ := h.step
    have hnext : Clean (Utf8State.mk (state.totalBytes + chunk.length) leftover).leftover
        chunks.flatten s' := hclean
    obtain ⟨texts, hitems, hflat, hle⟩ := ih hnext (by dsimp only; omega) hrest
    have hlen := congrArg List.length hcut
    rw [List.length_append, List.length_append, length_encode] at hlen
    refine ⟨t :: texts, ?_, by rw [List.flatten_cons, hflat], ?_⟩
    · rw [List.map_cons, utf8Items, utf8Step_ok (by omega), hre, hitems, List.map_cons]
    · exact List.forall_mem_cons.mpr ⟨by omega, hle⟩

/-- The items of a readable stream are texts that fit the line buffer of a new converter. -/
theorem Readable.items {maxSize : Nat} {chunks : List (List UInt8)} {text : List Char}
    (h : Readable maxSize chunks text) (uuid model : String) :
    ∃ texts : List (List Char), makeUtf8Stream maxSize (chunks.map .ok) = texts.map .ok ∧
      texts.flatten = text ∧ FitsBuffer order serde (.new uuid model) texts := by
  obtain ⟨n, m, hlines, hchunks, hlimit⟩ := h.room
  have hclean : Clean ({} : Utf8State).leftover chunks.flatten text := h.utf8 ▸ Clean.init text
  have hsize : ({} : Utf8State).totalBytes + chunks.flatten.length ≤ maxSize := by
    rw [show ({} : Utf8State).totalBytes = 0 from rfl, Nat.zero_add]
    exact h.size
  obtain ⟨texts, hitems, rfl, hle⟩ := hclean.items_le hsize hchunks
  exact ⟨texts, hitems, rfl, fitsBuffer_of_lines hlimit List.not_mem_nil hlines hle⟩

/-- **From bytes to events.** The client gets what the lines of the text say. -/
theorem sse_of_bytes {maxSize : Nat} {chunks : List (List UInt8)} {text : List Char}
    (h : Readable maxSize chunks text) (uuid model : String) :
    buildAnthropicSse order serde uuid model (makeUtf8Stream maxSize (chunks.map .ok)) =
      (convertInputs order (readLines serde text) (.new uuid model)).2.map .event := by
  obtain ⟨texts, hitems, rfl, hfits⟩ := @Readable.items order serde _ _ _ h uuid model
  have hread := readChunks_eq order List.not_mem_nil hfits
  have hlines : (readChunks serde texts []).2 = readLines serde texts.flatten := congrArg Prod.snd hread
  rw [hitems, buildAnthropicSse_ok, convertedEvents_eq, inputsOf, hlines]

end ApertureRouter
