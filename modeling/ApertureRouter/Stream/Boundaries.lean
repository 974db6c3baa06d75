import ApertureRouter.Stream.Upstream

/-!
# Chunk boundaries

Where the upstream text is cut into chunks does not matter, as long as the buffer holds what it
has to (`FitsBuffer`): the converter reads the lines of the text (`readChunks_eq`), so two ways to
cut one text lead to the same events and the same state (`convertChunks_cut`).
-/

namespace ApertureRouter

open Emit

variable (order : IterOrder Nat ToolBlockState) (serde : Serde)

/-- No chunk of a run from `c` makes the buffer overflow. -/
def FitsBuffer (c : OpenAIToAnthropicStreamConverter) (rawChunks : List (List Char)) : Prop :=
  Along (fun c rawChunk => Text.utf8Len (c.lineBuffer ++ rawChunk) ≤ maxLineBuffer)
    (convertChunk order serde) c rawChunks

instance (c : OpenAIToAnthropicStreamConverter) (rawChunks : List (List Char)) :
    Decidable (FitsBuffer order serde c rawChunks) :=
  inferInstanceAs (Decidable (Along _ _ _ _))

/-- What the lines of a text say. -/
def readLines (text : List Char) : List Upstream :=
  (Lines.split '\n' text).1.filterMap (readLine serde)

theorem readLines_append (a b : List Char) :
    readLines serde (a ++ b) = readLines serde a ++ readLines serde ((Lines.split '\n' a).2 ++ b) := by
  rw [readLines, Lines.split_append, List.filterMap_append]
  rfl

/-- A chunk that fits is its lines, behind the buffer. -/
theorem readChunk_of_fits {rawChunk buffer : List Char}
    (h : Text.utf8Len (buffer ++ rawChunk) ≤ maxLineBuffer) :
    readChunk serde rawChunk buffer =
      ((Lines.split '\n' (buffer ++ rawChunk)).2, readLines serde (buffer ++ rawChunk)) := by
  rw [readChunk, if_neg (Nat.not_lt.mpr h)]
  rfl

variable {serde}

/-- The chunks of a text are the lines of the text. -/
theorem readChunks_eq {c : OpenAIToAnthropicStreamConverter} {rawChunks : List (List Char)}
    (hc : '\n' ∉ c.lineBuffer) (h : FitsBuffer order serde c rawChunks) :
    readChunks serde rawChunks c.lineBuffer =
      ((Lines.split '\n' (c.lineBuffer ++ rawChunks.flatten)).2,
        readLines serde (c.lineBuffer ++ rawChunks.flatten)) := by
  induction rawChunks generalizing c with
  | nil => simp [readChunks, readLines, Lines.split_of_notMem hc]
  | cons raw rest ih =>
    obtain ⟨hfit, hrest⟩ := h
    have hread := readChunk_of_fits serde hfit
    have hbuf : (convertChunk order serde raw c).1.lineBuffer =
        (Lines.split '\n' (c.lineBuffer ++ raw)).2 := by
      rw [convertChunk_eq, hread]
    have ih := ih (by rw [hbuf]; exact Lines.split_rest_notMem _) hrest
    rw [hbuf, readChunks] at ih
    rw [readChunks, Prog.forEach_cons, Prog.andThen_apply, hread, List.flatten_cons,
      ← List.append_assoc, Lines.split_append (c.lineBuffer ++ raw),
      readLines_append serde (c.lineBuffer ++ raw)]
    simp only [ih]

/-- **Chunk boundaries.** Two ways to cut a text lead to the same state, the same rest in the
buffer and the same events. -/
theorem convertChunks_cut {uuid model : String} {a b : List (List Char)}
    (ha : FitsBuffer order serde (.new uuid model) a) (hb : FitsBuffer order serde (.new uuid model) b)
    (h : a.flatten = b.flatten) :
    convertChunks order serde a (.new uuid model) = convertChunks order serde b (.new uuid model) := by
  rw [convertChunks_eq, convertChunks_eq, readChunks_eq order List.not_mem_nil ha,
    readChunks_eq order List.not_mem_nil hb, h]

/-- A cut between `data:` and the payload, and one between CR and LF. -/
theorem convertChunks_cut_done :
    convertChunks .entries ⟨fun _ => none, fun _ => "null"⟩
        ["data:".toList, " [DONE]\r".toList, "\n".toList] (.new "0" "m") =
      convertChunks .entries ⟨fun _ => none, fun _ => "null"⟩ ["data: [DONE]\r\n".toList]
        (.new "0" "m") :=
  convertChunks_cut .entries (by decide +kernel) (by decide +kernel) rfl

/-! ## Payloads -/

/-- A text that a `data:` line can carry. -/
def IsPayload (p : String) : Prop := '\n' ∉ p.toList ∧ '\r' ∉ p.toList

instance (p : String) : Decidable (IsPayload p) := by unfold IsPayload; infer_instance

variable (serde) in
/-- What a payload says. -/
def readPayload (p : String) : Option Upstream :=
  if Text.trim p.toList = "[DONE]".toList then some .done else (serde.fromStr p).map .chunk

theorem readLine_payload {p : String} (h : '\r' ∉ p.toList) :
    readLine serde ("data: ".toList ++ p.toList) = readPayload serde p := by
  have hr : '\r' ∉ "data: ".toList ++ p.toList := by
    rw [List.mem_append, not_or]
    exact ⟨by decide, h⟩
  have hevent : Text.stripPrefix "event: ".toList ("data: ".toList ++ p.toList) = none := rfl
  rw [readLine, Text.trimEndMatches_of_notMem hr]
  simp only [hevent, Option.isSome_none, Bool.false_eq_true, if_false, Text.stripPrefix_append,
    String.ofList_toList]
  rfl

/-- SSE text says what its payloads say. -/
theorem inputsOf_sseText {ps : List String} (hp : ∀ p ∈ ps, IsPayload p)
    (hfits : Text.utf8Len (sseText ps) ≤ maxLineBuffer) :
    inputsOf serde [sseText ps] = ps.filterMap (readPayload serde) := by
  have htext : sseText ps =
      (ps.map fun p => "data: ".toList ++ p.toList).flatMap (· ++ ['\n']) ++ [] := by
    simp only [sseText, List.flatMap_map, List.append_nil, String.toList_append]
    rfl
  have hlines : ∀ l ∈ ps.map (fun p => "data: ".toList ++ p.toList), '\n' ∉ l := by
    intro l hl
    obtain ⟨p, hp', rfl⟩ := List.mem_map.mp hl
    rw [List.mem_append, not_or]
    exact ⟨by decide, (hp p hp').1⟩
  have hread : readChunk serde (sseText ps) [] = _ := readChunk_of_fits serde hfits
  rw [inputsOf, readChunks, Prog.forEach_cons, Prog.andThen_apply, hread]
  rw [List.nil_append, readLines, htext, Lines.split_flatMap hlines]
  simp only [Lines.split_nil, List.append_nil, Prog.forEach_nil, Prog.skip_apply,
    List.filterMap_map]
  exact List.filterMap_congr fun p hp' => readLine_payload (hp p hp').2

/-- A stream of payloads that `serde_json` reads as `values`. -/
theorem inputsOf_payloads {texts : List String} {values : List Value}
    (hv : texts.filterMap serde.fromStr = values)
    (hp : ∀ p ∈ texts, IsPayload p ∧ Text.trim p.toList ≠ "[DONE]".toList)
    (hfits : Text.utf8Len (sseText (texts ++ ["[DONE]"])) ≤ maxLineBuffer) :
    inputsOf serde [sseText (texts ++ ["[DONE]"])] = values.map .chunk ++ [.done] := by
  rw [inputsOf_sseText ?_ hfits, List.filterMap_append]
  · congr 1
    have hread : ∀ p ∈ texts, readPayload serde p = (serde.fromStr p).map .chunk := by
      intro p hp'
      rw [readPayload, if_neg (hp p hp').2]
    rw [List.filterMap_congr hread, ← List.map_filterMap, hv]
  · intro p hp'
    rcases List.mem_append.mp hp' with hp' | hp'
    · exact (hp p hp').1
    · rw [List.mem_singleton.mp hp']
      decide

/-- Each text of a table reads as its value. -/
theorem tableSerde_fromStr {texts : List String} {values : List Value} (hn : texts.Nodup)
    (hl : texts.length = values.length) (more : List (String × Value)) :
    texts.filterMap (tableSerde (texts.zip values ++ more)).fromStr = values := by
  induction texts generalizing values with
  | nil => exact (List.length_eq_zero_iff.mp hl.symm).symm
  | cons t texts ih =>
    obtain ⟨v, values, rfl⟩ := List.exists_cons_of_length_pos (by rw [← hl]; simp)
    obtain ⟨ht, hn⟩ := List.nodup_cons.mp hn
    have hrest : ∀ s ∈ texts, (tableSerde ((t :: texts).zip (v :: values) ++ more)).fromStr s =
        (tableSerde (texts.zip values ++ more)).fromStr s := by
      intro s hs
      show List.lookup s ((t, v) :: (texts.zip values ++ more)) = _
      rw [Value.lookup_field, if_neg (by rintro rfl; exact ht hs)]
      rfl
    rw [List.filterMap_cons_some (b := v), List.filterMap_congr hrest,
      ih hn (by simpa using hl)]
    show List.lookup t ((t, v) :: (texts.zip values ++ more)) = some v
    rw [Value.lookup_field, if_pos rfl]

end ApertureRouter
