import Mathlib.Data.List.Induction
import ApertureRouter.Lib.Emit
import ApertureRouter.Lib.Sse

/-!
# Anthropic-direct passthrough

`process_sse_chunk_lines_anthropic` (`src/routes/messages.rs`) reads each chunk of the upstream
stream on its own: neither an unfinished line nor the type of an event whose data is still to come
is kept for the next chunk.

* `anthropicDirectEvents`: the events that `handle_anthropic_direct_streaming` forwards.
* `passthrough_exact_iff`: they are the events of the body exactly if every cut between two chunks
  is between two events, no `event: ` line is empty and no typed event has the data `[DONE]`.

The argument is a potential: a line of the body accounts for its length less one, a chunk forwards
at most what its lines account for, and a cut inside an event loses some of it.
-/

namespace ApertureRouter

open Emit Sse Text

/-! ## The code -/

/-- The data of the last event of an upstream stream. -/
def doneMarker : List Char := "[DONE]".toList

/-- A line of `process_sse_chunk_lines_anthropic` that is not blank. The state is `event_type`. -/
def anthropicLine (line : List Char) : Prog (List Char) Event := fun eventType =>
  match stripPrefix "event: ".toList line with
  | some et => (et, [])
  | none =>
    match stripPrefix "data: ".toList line with
    | some data =>
      if data = doneMarker then
        (eventType, [{ event := none, data := data }])
      else
        ([], [{ event := if eventType = [] then none else some eventType, data := data }])
    | none => (eventType, [])

/-- The loop of `process_sse_chunk_lines_anthropic`. -/
def anthropicLines (ls : List (List Char)) : Prog (List Char) Event :=
  Prog.forEach (fun line =>
    if trimEndMatches '\r' line = [] then Prog.skip
    else anthropicLine (trimEndMatches '\r' line)) ls

/-- `process_sse_chunk_lines_anthropic`. -/
def processSseChunkLinesAnthropic (chunk : List Char) : List Event :=
  (anthropicLines (Text.lines chunk) []).2

/-- The data sent after a transport error: `serde_json` writes the fields in the order of their
names. -/
def directInterrupted : List Char :=
  "\x7b\"error\":\x7b\"message\":\"Stream interrupted\",\"type\":\"api_error\"\x7d,\"type\":\"error\"\x7d".toList

/-- `sse_stream` of `handle_anthropic_direct_streaming`: the events for the items of `raw_stream`. -/
def anthropicDirectEvents (rawStream : List (Except String (List Char))) : List Event :=
  rawStream.flatMap fun
    | .ok data => processSseChunkLinesAnthropic data
    | .error _ => [{ event := none, data := directInterrupted }]

theorem anthropicDirectEvents_ok (chunks : List (List Char)) :
    anthropicDirectEvents (chunks.map .ok) = chunks.flatMap processSseChunkLinesAnthropic := by
  rw [anthropicDirectEvents, List.flatMap_map]

/-! ## What one chunk forwards -/

/-- Blank lines and the `\r` at the ends of lines do not matter. -/
theorem anthropicLines_eq (ls : List (List Char)) :
    anthropicLines ls = Prog.forEach anthropicLine (nonblank ls) := by
  unfold anthropicLines
  induction ls with
  | nil => rfl
  | cons l ls ih =>
    rw [Prog.forEach_cons, ih, nonblank_cons, Prog.forEach_append, nonblank_singleton]
    by_cases h : trimEndMatches '\r' l = []
    · simp only [if_pos h, Prog.forEach_nil]
    · funext t
      simp only [if_neg h, Prog.forEach_cons, Prog.forEach_nil, Prog.andThen_apply, Prog.skip_apply,
        List.append_nil]

theorem processSseChunkLinesAnthropic_eq (chunk : List Char) :
    processSseChunkLinesAnthropic chunk = (Prog.forEach anthropicLine (content chunk) []).2 := by
  rw [processSseChunkLinesAnthropic, anthropicLines_eq, nonblank_lines]

@[simp] theorem anthropicLine_eventLine (et t : List Char) :
    anthropicLine (eventLine et) t = (et, []) := by
  rw [anthropicLine, stripPrefix_eventLine]

@[simp] theorem anthropicLine_dataLine (d t : List Char) :
    anthropicLine (dataLine d) t =
      if d = doneMarker then (t, [{ event := none, data := d }])
      else ([], [{ event := if t = [] then none else some t, data := d }]) := by
  rw [anthropicLine, stripPrefix_event_dataLine, stripPrefix_dataLine]

/-- What a line does: it sets the type, is data, or is skipped. -/
theorem anthropicLine_cases (line t : List Char) :
    (∃ et, line = eventLine et ∧ anthropicLine line t = (et, [])) ∨
    (line = dataLine doneMarker ∧
      anthropicLine line t = (t, [{ event := none, data := doneMarker }])) ∨
    (∃ d, line = dataLine d ∧ d ≠ doneMarker ∧
      anthropicLine line t = ([], [{ event := if t = [] then none else some t, data := d }])) ∨
    anthropicLine line t = (t, []) := by
  rcases eventLine_or_dataLine line with ⟨et, rfl⟩ | ⟨d, rfl⟩ | ⟨he, hd⟩
  · exact .inl ⟨et, rfl, anthropicLine_eventLine et t⟩
  · rw [anthropicLine_dataLine]
    by_cases hdone : d = doneMarker
    · subst hdone
      exact .inr (.inl ⟨rfl, if_pos rfl⟩)
    · exact .inr (.inr (.inl ⟨d, rfl, hdone, if_neg hdone⟩))
  · exact .inr (.inr (.inr (by rw [anthropicLine, he, hd])))

/-- The event can keep its type: it has none, or one with a name and data other than `[DONE]`. -/
def KeepsType (e : Event) : Prop := ∀ t ∈ e.event, t ≠ [] ∧ e.data ≠ doneMarker

theorem anthropicLine_keepsType (line : List Char) :
    Emits (fun _ => True) KeepsType (anthropicLine line) := by
  intro t _
  refine ⟨trivial, ?_⟩
  rcases anthropicLine_cases line t with ⟨et, -, h⟩ | ⟨-, h⟩ | ⟨d, -, hd, h⟩ | h
  all_goals
    rw [h]
    simp only [List.not_mem_nil, List.mem_singleton, forall_eq, false_implies, implies_true]
  · simp [KeepsType]
  · intro u hu
    by_cases ht : t = []
    · simp [ht] at hu
    · simp only [if_neg ht, Option.mem_some_iff] at hu
      exact ⟨hu ▸ ht, hd⟩

/-- Every forwarded event keeps its type. -/
theorem keepsType_of_forwarded {chunks : List (List Char)} {e : Event}
    (h : e ∈ chunks.flatMap processSseChunkLinesAnthropic) : KeepsType e := by
  obtain ⟨chunk, -, he⟩ := List.mem_flatMap.mp h
  rw [processSseChunkLinesAnthropic_eq] at he
  exact ((Emits.forEach fun l _ => anthropicLine_keepsType l) [] trivial).2 e he

/-- Whole events are forwarded as they are. -/
theorem anthropicLine_events {es : List Event} (h : ∀ e ∈ es, KeepsType e) :
    Prog.forEach anthropicLine (es.flatMap Event.lines) [] = ([], es) := by
  induction es with
  | nil => rfl
  | cons e es ih =>
    have he : Prog.forEach anthropicLine e.lines [] = ([], [e]) := by
      obtain ⟨ty, d⟩ := e
      cases ty with
      | none =>
        by_cases hd : d = doneMarker <;> simp [Event.lines, hd]
      | some t =>
        obtain ⟨ht, hd⟩ := h ⟨some t, d⟩ (by simp) t rfl
        simp only at hd
        simp [Event.lines, ht, hd]
    rw [List.flatMap_cons, Prog.forEach_append, Prog.andThen_apply, he,
      ih fun f hf => h f (by simp [hf])]
    rfl

/-! ## What a cut loses -/

/-- What a type accounts for that is still to be forwarded. -/
def pending (eventType : List Char) : Nat :=
  if eventType = [] then 0 else weight [eventLine eventType]

/-- What a list of events accounts for. -/
def eventsWeight (es : List Event) : Nat := weight (es.flatMap Event.lines)

@[simp] theorem eventsWeight_append (a b : List Event) :
    eventsWeight (a ++ b) = eventsWeight a + eventsWeight b := by
  simp [eventsWeight]

/-- A line forwards at most what it and the type in front of it account for. -/
theorem anthropicLine_weight (line t : List Char) :
    eventsWeight (anthropicLine line t).2 + pending (anthropicLine line t).1 ≤
      pending t + weight [line] := by
  rcases anthropicLine_cases line t with ⟨et, hl, h⟩ | ⟨hl, h⟩ | ⟨d, hl, -, h⟩ | h
  all_goals rw [h]
  · -- A type in front of this one is lost.
    subst hl
    simp only [pending, eventsWeight, List.flatMap_nil, weight_nil]
    split <;> split <;> omega
  · subst hl
    have : eventsWeight [{ event := none, data := doneMarker }] = weight [dataLine doneMarker] := rfl
    simp only [this]
    omega
  · subst hl
    by_cases ht : t = []
    · simp [pending, eventsWeight, Event.lines, ht]
    · simp [pending, eventsWeight, Event.lines, ht]
  · simp [eventsWeight]

theorem anthropicLines_weight (ls : List (List Char)) (t : List Char) :
    eventsWeight (Prog.forEach anthropicLine ls t).2 + pending (Prog.forEach anthropicLine ls t).1 ≤
      pending t + weight ls := by
  induction ls generalizing t with
  | nil => simp [eventsWeight]
  | cons l ls ih =>
    have hline := anthropicLine_weight l t
    have hrest := ih (anthropicLine l t).1
    simp only [Prog.forEach_cons, Prog.andThen_apply, eventsWeight_append, weight_cons, weight_nil]
      at hline hrest ⊢
    omega

/-- A chunk forwards at most what its lines account for, less the type it ends with. -/
theorem chunk_weight (chunk : List Char) :
    eventsWeight (processSseChunkLinesAnthropic chunk) +
        pending (Prog.forEach anthropicLine (content chunk) []).1 ≤ weight (content chunk) := by
  rw [processSseChunkLinesAnthropic_eq]
  have := anthropicLines_weight (content chunk) []
  simpa [pending] using this

/-- Chunks forward at most what the lines of their text account for. -/
theorem chunks_weight (chunks : List (List Char)) :
    eventsWeight (chunks.flatMap processSseChunkLinesAnthropic) ≤ weight (content chunks.flatten) := by
  induction chunks with
  | nil => simp [eventsWeight]
  | cons c chunks ih =>
    have hc := chunk_weight c
    rw [List.flatMap_cons, List.flatten_cons, eventsWeight_append]
    rcases content_append c chunks.flatten with h | h
    · rw [h, weight_append]
      omega
    · omega

/-- Chunks whose text ends with the type of an event lose it. -/
theorem chunks_weight_lt {chunks : List (List Char)} {ls : List (List Char)} {t : List Char}
    (ht : t ≠ []) (h : content chunks.flatten = ls ++ [eventLine t]) :
    eventsWeight (chunks.flatMap processSseChunkLinesAnthropic) < weight (content chunks.flatten) := by
  induction chunks using List.reverseRecOn generalizing ls with
  | nil => simp [content, Lines.pieces, nonblank_singleton, trimEndMatches] at h
  | append_singleton chunks c ih =>
    have hchunks := chunks_weight chunks
    have hc := chunk_weight c
    rw [List.flatMap_append, eventsWeight_append, List.flatMap_singleton]
    rw [List.flatten_append, List.flatten_singleton] at h ⊢
    rcases content_append chunks.flatten c with happ | hlight
    · rw [happ] at h ⊢
      rw [weight_append]
      rcases List.eq_nil_or_concat (content c) with hnil | ⟨l, last, hlast⟩
      · -- The type is in the chunks before.
        rw [hnil, List.append_nil] at h
        have := ih h
        omega
      · rw [hlast, List.concat_eq_append, ← List.append_assoc] at h
        obtain ⟨-, rfl⟩ := List.append_inj' h rfl |>.imp id List.singleton_inj.mp
        have hend : (Prog.forEach anthropicLine (content c) []).1 = t := by
          rw [hlast, List.concat_eq_append, Prog.forEach_append]
          simp
        have hpos : 0 < pending t := by
          rw [pending, if_neg ht, weight_cons, length_eventLine]
          omega
        rw [hend] at hc
        omega
    · omega

/-! ## Exactly between events -/

/-- A body that is cut between events is forwarded as it is. -/
theorem forwarded_of_between {eol : LineEnd} {es : List Event} (hes : ∀ e ∈ es, e.Fits)
    (hkeep : ∀ e ∈ es, KeepsType e) {chunks : List (List Char)}
    (hcuts : ∀ a b, chunks = a ++ b → Between eol es a.flatten) {pre post : List Event}
    {tail : List Char} (he : es = pre ++ post) (ht : tail <:+ eol.text ++ eol.text)
    (h : chunks.flatten ++ tail = body eol pre) :
    chunks.flatMap processSseChunkLinesAnthropic = pre := by
  induction chunks using List.reverseRecOn generalizing pre post tail with
  | nil =>
    have hnil : pre = [] := eq_nil_of_terminators (fun e hp => hes e (by simp [he, hp]))
      (h ▸ terminators_of_suffix ht : Terminators (body eol pre))
    rw [hnil]
    rfl
  | append_singleton chunks c ih =>
    obtain ⟨pre₀, post₀, tail₀, he₀, ht₀, h₀⟩ := hcuts chunks [c] rfl
    rw [List.flatten_append, List.flatten_singleton] at h
    obtain ⟨mid, rfl, hmid⟩ := between_append hes he₀ he ht₀ ht h₀ h
    have hc : processSseChunkLinesAnthropic c = mid := by
      rw [processSseChunkLinesAnthropic_eq, hmid,
        anthropicLine_events fun e hm => hkeep e (by simp [he, hm])]
    have hchunks := ih (fun a b hab => hcuts a (b ++ [c]) (by rw [hab, List.append_assoc])) he₀ ht₀ h₀
    rw [List.flatMap_append, List.flatMap_singleton, hchunks, hc]

/-- **Passthrough.** The events of a body are forwarded as they are exactly if every cut between
two chunks is between two events and every event keeps its type. -/
theorem passthrough_exact_iff (eol : LineEnd) {es : List Event} (hes : ∀ e ∈ es, e.Fits)
    {chunks : List (List Char)} (h : chunks.flatten = body eol es) :
    anthropicDirectEvents (chunks.map .ok) = es ↔
      (∀ e ∈ es, KeepsType e) ∧ ∀ a b, chunks = a ++ b → Between eol es a.flatten := by
  rw [anthropicDirectEvents_ok]
  constructor
  · intro hfwd
    have hkeep : ∀ e ∈ es, KeepsType e := fun e he => keepsType_of_forwarded (hfwd.symm ▸ he)
    refine ⟨hkeep, ?_⟩
    rintro a b rfl
    rw [List.flatten_append] at h
    rw [List.flatMap_append] at hfwd
    have hsum : eventsWeight (a.flatMap processSseChunkLinesAnthropic) +
        eventsWeight (b.flatMap processSseChunkLinesAnthropic) = eventsWeight es := by
      rw [← eventsWeight_append, hfwd]
    have ha := chunks_weight a
    have hb := chunks_weight b
    rcases cut_cases hes h with hbetween | hlight | ⟨pre, e, post, t, rfl, het, hcontent⟩
    · exact hbetween
    · exact absurd hsum (by unfold eventsWeight at *; omega)
    · obtain ⟨ht, -⟩ := hkeep e (by simp) t het
      have hlt := chunks_weight_lt ht hcontent
      have hle : weight (content a.flatten) + weight (content b.flatten) ≤
          weight ((pre ++ e :: post).flatMap Event.lines) := by
        rw [← content_body eol hes, ← h]
        rcases content_append a.flatten b.flatten with happ | hlight
        · rw [happ, weight_append]
        · exact hlight.le
      exact absurd hsum (by unfold eventsWeight at *; omega)
  · rintro ⟨hkeep, hcuts⟩
    exact forwarded_of_between hes hkeep hcuts (List.append_nil es).symm List.nil_suffix
      (by rw [List.append_nil, h])

def pingEvent : Event := { event := some "ping".toList, data := "\x7b\x7d".toList }

/-- A chunk ends behind the `event: ` line. -/
def cutPing : List (List Char) := ["event: ping\n".toList, "data: \x7b\x7d\n\n".toList]

theorem passthrough_exact_iff_cutPing :
    anthropicDirectEvents (cutPing.map .ok) = [pingEvent] ↔
      (∀ e ∈ [pingEvent], KeepsType e) ∧
        ∀ a b, cutPing = a ++ b → Between .lf [pingEvent] a.flatten :=
  passthrough_exact_iff .lf (by decide +kernel) (by decide +kernel)

/-- The event is forwarded without its type. -/
theorem cutPing_loses_type :
    (∀ e ∈ [pingEvent], e.Fits) ∧ cutPing.flatten = body .lf [pingEvent] ∧
      anthropicDirectEvents (cutPing.map .ok) = [{ event := none, data := "\x7b\x7d".toList }] ∧
      anthropicDirectEvents (cutPing.map .ok) ≠ [pingEvent] := by
  decide +kernel

end ApertureRouter
