import Mathlib.Data.List.Induction
import ApertureRouter.Lib.Offsets
import ApertureRouter.Stream.Boundaries
import ApertureRouter.Stream.Termination

/-!
# When the line buffer overflows

`convert_chunk` looks at the partial line with the whole new chunk behind it, before it takes the
complete lines off. So it can give up on a chunk of short lines.

* `mem_error_iff`: the overflow is reported exactly if some chunk does not fit (`FitsBuffer`), and
  `fitsBuffer_iff` says this of the text alone.
* `overflow_iff`: so only an oversize line makes the converter give up if and only if there is one,
  or every chunk fits.
-/

namespace ApertureRouter

open Emit

/-- Every chunk fits behind the line that the chunks before it have left open. -/
def ChunksFit (rawChunks : List (List Char)) : Prop :=
  ∀ pre rawChunk post, rawChunks = pre ++ rawChunk :: post →
    Text.utf8Len ((Lines.split '\n' pre.flatten).2 ++ rawChunk) ≤ maxLineBuffer

/-- Some line of the text, without its end, is longer than the buffer. -/
def OversizeLine (text : List Char) : Prop :=
  ∃ line ∈ Lines.pieces '\n' text, maxLineBuffer < Text.utf8Len (Text.trimEndMatches '\r' line)

/-- The converter gives up only on an oversize line: without one it reports no overflow, and its
events are those for the lines of the text. -/
def GivesUpOnlyOnOversize (order : IterOrder Nat ToolBlockState) (serde : Serde)
    (uuid model : String) (rawChunks : List (List Char)) : Prop :=
  (.error "Stream buffer overflow" ∈ convertedEvents order serde uuid model rawChunks →
    OversizeLine rawChunks.flatten) ∧
  (¬OversizeLine rawChunks.flatten → convertedEvents order serde uuid model rawChunks =
    (convertInputs order (readLines serde rawChunks.flatten) (.new uuid model)).2)

variable (order : IterOrder Nat ToolBlockState) (serde : Serde)

/-! ## What fits -/

/-- The open line after chunks that fit. -/
theorem lineBuffer_of_fits {uuid model : String} {rawChunks : List (List Char)}
    (h : FitsBuffer order serde (.new uuid model) rawChunks) :
    (convertChunks order serde rawChunks (.new uuid model)).1.lineBuffer =
      (Lines.split '\n' rawChunks.flatten).2 := by
  rw [convertChunks_eq, readChunks_eq order List.not_mem_nil h]
  rfl

/-- Whether the chunks fit does not depend on what they say. -/
theorem fitsBuffer_iff (uuid model : String) (rawChunks : List (List Char)) :
    FitsBuffer order serde (.new uuid model) rawChunks ↔ ChunksFit rawChunks := by
  constructor
  · rintro h pre rawChunk post rfl
    obtain ⟨hpre, hchunk, -⟩ := Along.append.mp h
    have hbuf := lineBuffer_of_fits order serde hpre
    rw [← hbuf]
    exact hchunk
  · intro h
    -- From the first chunk on, as long as the chunks before it fit.
    have hprefix : ∀ pre post, rawChunks = pre ++ post →
        FitsBuffer order serde (.new uuid model) pre := by
      intro pre
      induction pre using List.reverseRecOn with
      | nil => exact fun _ _ => trivial
      | append_singleton pre rawChunk ih =>
        intro post e
        rw [List.append_assoc] at e
        have hpre := ih _ e
        refine Along.append.mpr ⟨hpre, ?_, trivial⟩
        have hfit := h pre rawChunk post e
        rw [← lineBuffer_of_fits order serde hpre] at hfit
        exact hfit
    exact hprefix rawChunks [] (List.append_nil _).symm

/-! ## The error event -/

/-- Only an overflow is reported as an error. -/
theorem convertInput_error {u : Upstream} (hu : u ≠ .overflow) (msg : String) :
    Emits (fun _ => True) (· ≠ .error msg) (convertInput order u) := by
  have hclose : ∀ reason, Emits (fun _ => True) (· ≠ .error msg) (closeWithStopReason reason) := by
    refine fun reason c _ => ⟨trivial, fun e he => ?_⟩
    rintro rfl
    cases hc : c.messageEnded with
    | true =>
      rw [closeWithStopReason, Prog.cond_neg (by simp [hc])] at he
      cases he
    | false => exact (closeWithStopReason_isClosing hc reason).error_notMem msg he
  cases u with
  | overflow => exact absurd rfl hu
  | done => exact .cond (hclose _)
  | chunk value =>
    rw [convertInput_chunk]
    refine .andThen (fun c _ => ⟨trivial, fun e he => ?_⟩) (.ifSome hclose _)
    rintro rfl
    exact chunkBody_inner order value c _ he

theorem mem_error_convertInputs {inputs : List Upstream} {c : StreamState} :
    .error "Stream buffer overflow" ∈ (convertInputs order inputs c).2 ↔ .overflow ∈ inputs := by
  constructor
  · intro h
    by_contra hov
    have hne : ∀ u ∈ inputs, u ≠ .overflow := by
      rintro u hu rfl
      exact hov hu
    exact (Emits.forEach (fun u hu => convertInput_error order (hne u hu) _) c trivial).2 _ h rfl
  · intro h
    induction inputs generalizing c with
    | nil => cases h
    | cons u inputs ih =>
      rcases List.mem_cons.mp h with rfl | h
      · exact List.mem_append_left _ List.mem_cons_self
      · exact List.mem_append_right _ (ih h)

theorem overflow_notMem_readLines (text : List Char) : .overflow ∉ readLines serde text := by
  rw [readLines, List.mem_filterMap]
  rintro ⟨line, -, h⟩
  unfold readLine at h
  simp only at h
  split at h
  · cases h
  · split at h
    · cases h
    · split at h
      · cases h
      · rw [Option.map_eq_some_iff] at h
        obtain ⟨_, -, h⟩ := h
        cases h

/-- **When the overflow is reported.** -/
theorem mem_error_iff (uuid model : String) (rawChunks : List (List Char)) :
    .error "Stream buffer overflow" ∈ convertedEvents order serde uuid model rawChunks ↔
      ¬ChunksFit rawChunks := by
  rw [convertedEvents_eq, mem_error_convertInputs, ← fitsBuffer_iff order serde uuid model]
  have hread : ∀ c, .overflow ∈ (readChunks serde rawChunks c.lineBuffer).2 ↔
      ¬FitsBuffer order serde c rawChunks := by
    induction rawChunks with
    | nil => exact fun c => iff_of_false List.not_mem_nil fun h => h trivial
    | cons raw rest ih =>
      intro c
      have hbuf : (convertChunk order serde raw c).1.lineBuffer =
          (readChunk serde raw c.lineBuffer).1 := by rw [convertChunk_eq]
      have hrest := ih (convertChunk order serde raw c).1
      rw [hbuf] at hrest
      rw [readChunks, Prog.forEach_cons, Prog.andThen_apply, List.mem_append, FitsBuffer, Along,
        not_and_or]
      refine or_congr ?_ hrest
      by_cases hfit : Text.utf8Len (c.lineBuffer ++ raw) ≤ maxLineBuffer
      · rw [readChunk_of_fits serde hfit]
        exact iff_of_false (overflow_notMem_readLines serde _) (not_not_intro hfit)
      · rw [readChunk, if_pos (Nat.lt_of_not_le hfit)]
        exact iff_of_true List.mem_cons_self hfit
  exact hread (.new uuid model)

/-- **When the converter gives up only on an oversize line.** -/
theorem overflow_iff (uuid model : String) (rawChunks : List (List Char)) :
    GivesUpOnlyOnOversize order serde uuid model rawChunks ↔
      ChunksFit rawChunks ∨ OversizeLine rawChunks.flatten := by
  unfold GivesUpOnlyOnOversize
  rw [mem_error_iff]
  constructor
  · rintro ⟨h, -⟩
    exact (em (ChunksFit rawChunks)).imp_right h
  · rintro (hfit | hover)
    · refine ⟨absurd hfit, fun _ => ?_⟩
      have hread := readChunks_eq order (c := .new uuid model) List.not_mem_nil
        ((fitsBuffer_iff order serde uuid model rawChunks).mpr hfit)
      rw [convertedEvents_eq, inputsOf]
      exact congrArg (fun p => (convertInputs order p.2 (.new uuid model)).2) hread
    · exact ⟨fun _ => hover, absurd hover⟩

/-- One chunk of more than a MiB, made of short lines that end. -/
theorem overflow_on_short_lines :
    ¬∀ rawChunks, GivesUpOnlyOnOversize .entries ⟨fun _ => none, fun _ => "null"⟩ "0" "m" rawChunks := by
  intro h
  obtain ⟨ls, hls, hlong⟩ : ∃ ls : List (List Char), (∀ l ∈ ls, l = "data: 1".toList) ∧
      maxLineBuffer < Text.utf8Len (ls.flatMap (· ++ ['\n'])) := by
    have hlen : ∀ n, Text.utf8Len ((List.replicate n "data: 1".toList).flatMap (· ++ ['\n'])) =
        n * 8 := by
      intro n
      induction n with
      | zero => rfl
      | succ n ih =>
        have hline : Text.utf8Len ("data: 1".toList ++ ['\n']) = 8 := rfl
        rw [List.replicate_succ, List.flatMap_cons, Text.utf8Len_append, ih, hline]
        omega
    refine ⟨List.replicate maxLineBuffer "data: 1".toList, fun l => List.eq_of_mem_replicate, ?_⟩
    rw [hlen, maxLineBuffer]
    omega
  have hpieces : Lines.pieces '\n' (ls.flatMap (· ++ ['\n'])) = ls ++ [[]] := by
    have hsep : ∀ l ∈ ls, '\n' ∉ l := by
      intro l hl
      rw [hls l hl]
      decide
    have := Lines.split_flatMap hsep []
    rw [List.append_nil, Lines.split_nil, List.append_nil] at this
    rw [Lines.pieces, this]
  have hshort : ¬OversizeLine [ls.flatMap (· ++ ['\n'])].flatten := by
    rintro ⟨line, hline, hover⟩
    rw [List.flatten_singleton, hpieces, List.mem_append, List.mem_singleton] at hline
    rcases hline with hline | rfl
    · rw [hls line hline] at hover
      exact absurd hover (by decide)
    · exact absurd hover (by decide)
  rcases (overflow_iff .entries _ "0" "m" [ls.flatMap (· ++ ['\n'])]).mp (h _) with hfit | hover
  · have := hfit [] _ [] rfl
    rw [List.flatten_nil, Lines.split_nil, List.nil_append] at this
    exact absurd hlong (Nat.not_lt.mpr this)
  · exact hshort hover

end ApertureRouter
