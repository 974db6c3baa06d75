import ApertureRouter.Lib.Emit
import ApertureRouter.Lib.Sse

/-!
# The line buffer of `/v1/proxy`

`SseLineBuffer` (`src/routes/streaming.rs`) puts the lines together that the network has cut, and
`buffered_lines` passes on, for each chunk, the lines that it completes.

* `SseLineBuffer.push_split`: the lines that a push returns are the next ones of the text, whatever
  comes behind it. `pushes_split`: so are those of a run.
* `completed`: what a push returns, read off the text: the lines that end in the first MiB of what
  is buffered.
* `bufferedLines_eq`: the batches of `buffered_lines` are those lines, and what remains at the end.
-/

namespace ApertureRouter

open Emit Lines Sse Text

/-- `SseLineBuffer`. -/
structure SseLineBuffer where
  buf : List Char
  deriving DecidableEq, Repr

namespace SseLineBuffer

def new : SseLineBuffer := ⟨[]⟩

/-- `MAX_LINE_BUFFER`: 1 MiB. -/
def maxLineBuffer : Nat := 1024 * 1024

/-- The loop of `push` that takes the lines off the buffer. -/
def takeLines : Prog SseLineBuffer (List Char) := fun b =>
  (⟨(split '\n' b.buf).2⟩, nonblank (split '\n' b.buf).1)

/-- `SseLineBuffer::push`. The head that it pushes again is within the cap. -/
def push (chunk : List Char) : Prog SseLineBuffer (List Char) := fun b =>
  let buf := b.buf ++ chunk
  if maxLineBuffer < utf8Len buf then
    let (head, overflow) := splitAtBoundary maxLineBuffer buf
    let (b', lines) := takeLines ⟨head⟩
    (⟨b'.buf ++ overflow⟩, lines)
  else takeLines ⟨buf⟩

/-- `SseLineBuffer::take_remainder`. -/
def takeRemainder (b : SseLineBuffer) : Option (List Char) :=
  if b.buf = [] then none else some b.buf

/-- The lines that end in the first MiB of the buffer and the chunk. -/
def completed (b : SseLineBuffer) (chunk : List Char) : List (List Char) :=
  nonblank (split '\n' (splitAtBoundary maxLineBuffer (b.buf ++ chunk)).1).1

/-- What a push does, whether the buffer overflows or not. -/
theorem push_eq (b : SseLineBuffer) (chunk : List Char) :
    push chunk b =
      (⟨(split '\n' (splitAtBoundary maxLineBuffer (b.buf ++ chunk)).1).2 ++
        (splitAtBoundary maxLineBuffer (b.buf ++ chunk)).2⟩, completed b chunk) := by
  unfold push completed
  by_cases h : maxLineBuffer < utf8Len (b.buf ++ chunk)
  · simp only [if_pos h]
    rfl
  · simp only [if_neg h, splitAtBoundary_of_le (Nat.le_of_not_lt h), List.append_nil]
    rfl

/-- **A push.** It takes the next lines of the text, whatever comes behind it. -/
theorem push_split (b : SseLineBuffer) (chunk : List Char) :
    ∃ raw, (push chunk b).2 = nonblank raw ∧ ∀ rest,
      split '\n' (b.buf ++ chunk ++ rest) =
        (raw ++ (split '\n' ((push chunk b).1.buf ++ rest)).1,
          (split '\n' ((push chunk b).1.buf ++ rest)).2) := by
  rw [push_eq]
  refine ⟨(split '\n' (splitAtBoundary maxLineBuffer (b.buf ++ chunk)).1).1, rfl, fun rest => ?_⟩
  have := splitAtBoundary_append maxLineBuffer (b.buf ++ chunk)
  conv_lhs => rw [← this, List.append_assoc, split_append]
  rw [List.append_assoc]

/-- The lines that the pushes of the chunks return, without the pushes that return none. -/
def batches (b : SseLineBuffer) (chunks : List (List Char)) : List (List (List Char)) :=
  gather (fun b chunk => if completed b chunk = [] then [] else [completed b chunk]) push b chunks

theorem batches_cons (b : SseLineBuffer) (chunk : List Char) (chunks : List (List Char)) :
    batches b (chunk :: chunks) =
      (if completed b chunk = [] then [] else [completed b chunk]) ++
        batches (push chunk b).1 chunks := rfl

/-- **A run of pushes.** It takes the next lines of the text. -/
theorem pushes_split (b : SseLineBuffer) (chunks : List (List Char)) :
    ∃ raw, (batches b chunks).flatten = nonblank raw ∧
      split '\n' (b.buf ++ chunks.flatten) =
        (raw ++ (split '\n' (Prog.forEach push chunks b).1.buf).1,
          (split '\n' (Prog.forEach push chunks b).1.buf).2) := by
  induction chunks generalizing b with
  | nil => exact ⟨[], rfl, by simp⟩
  | cons chunk chunks ih =>
    obtain ⟨raw, hraw, hsplit⟩ := push_split b chunk
    obtain ⟨raw', hraw', hsplit'⟩ := ih (push chunk b).1
    refine ⟨raw ++ raw', ?_, ?_⟩
    · rw [push_eq] at hraw
      have hone : (if completed b chunk = [] then [] else [completed b chunk]).flatten =
          completed b chunk := by
        split <;> simp [*]
      rw [batches_cons, List.flatten_append, hone, nonblank_append, ← hraw, ← hraw']
    · rw [List.flatten_cons, ← List.append_assoc, hsplit, hsplit', List.append_assoc]
      rfl

theorem batches_ne_nil {b : SseLineBuffer} {chunks : List (List Char)} {batch : List (List Char)}
    (h : batch ∈ batches b chunks) : batch ≠ [] := by
  induction chunks generalizing b with
  | nil => simp [batches, gather] at h
  | cons chunk chunks ih =>
    rw [batches_cons] at h
    rcases List.mem_append.mp h with h | h
    · split at h
      · simp at h
      · rename_i hne
        rw [List.mem_singleton.mp h]
        exact hne
    · exact ih h

/-- A property of the batches is a guard of the pushes. -/
theorem forall_batches_iff {P : List (List Char) → Prop} (hnil : P []) {b : SseLineBuffer}
    {chunks : List (List Char)} :
    (∀ batch ∈ batches b chunks, P batch) ↔ Along (fun b chunk => P (completed b chunk)) push b chunks := by
  induction chunks generalizing b with
  | nil => simp [batches, gather, Along]
  | cons chunk chunks ih =>
    rw [batches_cons, Along, ← ih, List.forall_mem_append]
    refine and_congr ?_ Iff.rfl
    split
    · rename_i h
      simp [h, hnil]
    · simp

end SseLineBuffer

/-! ## `buffered_lines` -/

/-- The text of a batch. -/
def joinLines (lines : List (List Char)) : List Char := List.intercalate ['\n'] lines ++ ['\n']

/-- One item of the upstream stream: a chunk of text or a transport error. -/
def bufferItem : Except String (List Char) → Prog SseLineBuffer (Except String (List Char))
  | .ok data => fun buffer =>
    let complete := (SseLineBuffer.push data buffer).2
    ((SseLineBuffer.push data buffer).1, if complete = [] then [] else [.ok (joinLines complete)])
  | .error e => Prog.emit fun _ => [.error e]

/-- `buffered_lines`. -/
def bufferedLines (stream : List (Except String (List Char))) : List (Except String (List Char)) :=
  let buffer := (Prog.forEach bufferItem stream .new).1
  (Prog.forEach bufferItem stream .new).2 ++ (buffer.takeRemainder.map .ok).toList

/-- The batches of a stream without transport errors. -/
theorem bufferedLines_eq (chunks : List (List Char)) :
    bufferedLines (chunks.map .ok) =
      (((SseLineBuffer.batches .new chunks).map joinLines) ++
        ((Prog.forEach SseLineBuffer.push chunks .new).1.takeRemainder).toList).map .ok := by
  have hrun : ∀ b, Prog.forEach bufferItem (chunks.map .ok) b =
      ((Prog.forEach SseLineBuffer.push chunks b).1,
        ((SseLineBuffer.batches b chunks).map joinLines).map .ok) := by
    induction chunks with
    | nil => intro b; rfl
    | cons chunk chunks ih =>
      intro b
      have hlines : (SseLineBuffer.push chunk b).2 = b.completed chunk := by
        rw [SseLineBuffer.push_eq]
      have hitem : (bufferItem (.ok chunk) b).2 =
          ((if b.completed chunk = [] then [] else [b.completed chunk]).map joinLines).map .ok := by
        simp only [bufferItem, hlines]
        split <;> rfl
      rw [List.map_cons, Prog.forEach_cons, Prog.andThen_apply, ih, hitem, Prog.forEach_cons,
        Prog.andThen_apply, SseLineBuffer.batches_cons, List.map_append, List.map_append]
      rfl
  rw [bufferedLines, hrun, List.map_append]
  congr 1
  cases (Prog.forEach SseLineBuffer.push chunks .new).1.takeRemainder <;> rfl

end ApertureRouter
