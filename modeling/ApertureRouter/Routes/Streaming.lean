import ApertureRouter.Json
import ApertureRouter.Routes.LineBuffer
import ApertureRouter.Routes.Passthrough

/-!
# `/v1/proxy` passthrough

`process_sse_chunk_lines` (`src/routes/streaming.rs`) makes events of a batch of `buffered_lines`.
It starts each batch without an event type, and keeps a type for all events of the batch that
follow it.

* `proxyEvents`: the events that `handle_proxy_stream` forwards.
* `proxy_exact_iff`: they are the events of the body exactly if the name of every event is one that
  can be forwarded and every batch is made of whole events, those without a type first.
-/

namespace ApertureRouter

open Emit Lines Sse Text

/-! ## The depth check -/

/-- An error of `parse_json_with_depth_limit`: one that it makes itself, or one of the parser. -/
inductive JsonError where
  | io (message : String)
  | parse
  deriving DecidableEq, Repr

/-- The state of the scan: `depth`, `in_string` and `escaped`. -/
structure DepthScan where
  depth : Nat := 0
  inString : Bool := false
  escaped : Bool := false
  deriving DecidableEq, Repr

/-- One character of the scan. -/
def DepthScan.step (maxDepth : Nat) (s : DepthScan) (ch : Char) : Except JsonError DepthScan :=
  if s.inString then
    if s.escaped then .ok { s with escaped := false }
    else if ch = '\x5c' then .ok { s with escaped := true }
    else if ch = '\x22' then .ok { s with inString := false }
    else .ok s
  else if ch = '\x22' then .ok { s with inString := true }
  else if ch = '\x7b' ∨ ch = '[' then
    if maxDepth < s.depth + 1 then .error (.io "JSON depth limit exceeded")
    else .ok { s with depth := s.depth + 1 }
  else if ch = '\x7d' ∨ ch = ']' then
    if s.depth = 0 then .error (.io "Unmatched closing bracket")
    else .ok { s with depth := s.depth - 1 }
  else .ok s

/-- `parse_json_with_depth_limit`. -/
def parseJsonWithDepthLimit (serde : Serde) (json : List Char) (maxDepth : Nat) :
    Except JsonError Value :=
  match json.foldlM (DepthScan.step maxDepth) {} with
  | .error e => .error e
  | .ok _ =>
    match serde.fromStr (String.ofList json) with
    | some value => .ok value
    | none => .error .parse

/-! ## `process_sse_chunk_lines` -/

/-- `is_thinking_block`. -/
def isThinkingBlock (value : Value) : Bool :=
  let ofType (v : Value) (type : String) : Bool := (v.get "type").bind (·.asStr) == some type
  match (if ofType value "content_block_start" then value.get "content_block" else none) with
  | some contentBlock => ofType contentBlock "thinking"
  | none =>
    match (if ofType value "content_block_delta" then value.get "delta" else none) with
    | some delta => ofType delta "thinking"
    | none =>
      match (value.get "content").bind (·.asArray) with
      | some arr => arr.any fun item => ofType item "thinking"
      | none => false

/-- A data line is forwarded: it is no thinking block, or those are included. -/
def shouldInclude (serde : Serde) (includeThinking : Bool) (maxJsonDepth : Nat)
    (jsonData : List Char) : Bool :=
  match parseJsonWithDepthLimit serde jsonData maxJsonDepth with
  | .ok value => if isThinkingBlock value then includeThinking else true
  | .error _ => true

/-- The type that an event is sent with: `data` stands for none. -/
def sentType (eventType : List Char) : Option (List Char) :=
  if eventType = "data".toList ∨ eventType = [] then none else some eventType

section

variable (serde : Serde) (includeThinking : Bool) (maxJsonDepth : Nat)

/-- A line of `process_sse_chunk_lines`. The state is `event_type`. -/
def proxyLine (line : List Char) : Prog (List Char) Event := fun eventType =>
  match stripPrefix "event: ".toList line with
  | some rest => (trim rest, [])
  | none =>
    match stripPrefix "data: ".toList line with
    | some jsonData =>
      if jsonData = doneMarker then
        (eventType, [{ event := none, data := jsonData }])
      else if shouldInclude serde includeThinking maxJsonDepth jsonData then
        (eventType, [{ event := sentType eventType, data := jsonData }])
      else (eventType, [])
    | none => (eventType, [])

/-- `process_sse_chunk_lines`. -/
def processSseChunkLines (chunk : List Char) : List Event :=
  let events := (Prog.forEach (proxyLine serde includeThinking maxJsonDepth) (Text.lines chunk)
    "data".toList).2
  if events = [] then [{ event := none, data := [] }] else events

/-- The data sent after a transport error. -/
def streamProcessingError : List Char := "\x7b\"error\": \"Stream processing error\"\x7d".toList

/-- `sse_stream` of `handle_proxy_stream`: the events for the items of the upstream stream. -/
def proxyEvents (response : List (Except String (List Char))) : List Event :=
  (bufferedLines response).flatMap fun
    | .ok data => processSseChunkLines serde includeThinking maxJsonDepth data
    | .error _ => [{ event := none, data := streamProcessingError }]

end

/-! ## What a batch forwards, thinking blocks included -/

section

variable (serde : Serde) (maxJsonDepth : Nat)

/-- The events of a batch of lines. -/
def batchEvents (ls : List (List Char)) : List Event :=
  let events := (Prog.forEach (proxyLine serde true maxJsonDepth) ls "data".toList).2
  if events = [] then [{ event := none, data := [] }] else events

theorem shouldInclude_true (jsonData : List Char) :
    shouldInclude serde true maxJsonDepth jsonData = true := by
  unfold shouldInclude
  cases parseJsonWithDepthLimit serde jsonData maxJsonDepth with
  | error e => rfl
  | ok value => exact ite_self _

@[simp] theorem proxyLine_nil (includeThinking : Bool) (ty : List Char) :
    proxyLine serde includeThinking maxJsonDepth [] ty = (ty, []) := rfl

@[simp] theorem proxyLine_eventLine (includeThinking : Bool) (t ty : List Char) :
    proxyLine serde includeThinking maxJsonDepth (eventLine t) ty = (trim t, []) := by
  rw [proxyLine, stripPrefix_eventLine]

@[simp] theorem proxyLine_dataLine (d ty : List Char) :
    proxyLine serde true maxJsonDepth (dataLine d) ty =
      (ty, [{ event := if d = doneMarker then none else sentType ty, data := d }]) := by
  rw [proxyLine, stripPrefix_event_dataLine, stripPrefix_dataLine]
  simp only [shouldInclude_true, if_true]
  split <;> rfl

/-- The line is forwarded. -/
def isDataLine (line : List Char) : Bool :=
  (stripPrefix "event: ".toList line).isNone && (stripPrefix "data: ".toList line).isSome

@[simp] theorem isDataLine_eventLine (t : List Char) : isDataLine (eventLine t) = false := by
  rw [isDataLine, stripPrefix_eventLine]
  rfl

@[simp] theorem isDataLine_dataLine (d : List Char) : isDataLine (dataLine d) = true := rfl

/-- One event for each data line. -/
theorem proxyLine_length (line ty : List Char) :
    (proxyLine serde true maxJsonDepth line ty).2.length = (isDataLine line).toNat := by
  rcases eventLine_or_dataLine line with ⟨t, rfl⟩ | ⟨d, rfl⟩ | ⟨he, hd⟩
  · rw [proxyLine_eventLine, isDataLine_eventLine]
    rfl
  · rw [proxyLine_dataLine, isDataLine_dataLine]
    rfl
  · rw [proxyLine, isDataLine, he, hd]
    rfl

theorem proxyLines_length (ls : List (List Char)) (ty : List Char) :
    (Prog.forEach (proxyLine serde true maxJsonDepth) ls ty).2.length = ls.countP isDataLine := by
  induction ls generalizing ty with
  | nil => rfl
  | cons l ls ih =>
    rw [Prog.forEach_cons, Prog.andThen_apply, List.length_append, proxyLine_length, ih,
      List.countP_cons]
    cases isDataLine l <;> simp [Nat.add_comm]

/-- An empty batch is not forwarded as such. -/
theorem batchEvents_length (ls : List (List Char)) :
    (batchEvents serde maxJsonDepth ls).length = max 1 (ls.countP isDataLine) := by
  have hlen := proxyLines_length serde maxJsonDepth ls "data".toList
  unfold batchEvents
  simp only
  split
  · rename_i h
    rw [h] at hlen
    rw [← hlen]
    rfl
  · rename_i h
    have hpos := List.length_pos_iff.mpr h
    rw [hlen] at hpos ⊢
    exact (max_eq_right hpos).symm

theorem countP_isDataLine_lines (es : List Event) :
    (es.flatMap Event.lines).countP isDataLine = es.length := by
  induction es with
  | nil => rfl
  | cons e es ih =>
    rw [List.flatMap_cons, List.countP_append, ih, List.length_cons, Event.lines]
    cases e.event <;> simp [Nat.add_comm]

/-- Blank lines do not matter. -/
theorem proxyLines_nonblank (includeThinking : Bool) {ls : List (List Char)}
    (h : ∀ l ∈ ls, OneLine l) :
    Prog.forEach (proxyLine serde includeThinking maxJsonDepth) ls =
      Prog.forEach (proxyLine serde includeThinking maxJsonDepth) (nonblank ls) := by
  induction ls with
  | nil => rfl
  | cons l ls ih =>
    have htrim : trimEndMatches '\r' l = l := trimEndMatches_of_notMem (h l (by simp)).noCr
    rw [Prog.forEach_cons, ih fun m hm => h m (by simp [hm]), nonblank_cons, Prog.forEach_append,
      nonblank_singleton, htrim]
    by_cases hl : l = []
    · subst hl
      funext ty
      simp
    · funext ty
      simp [hl]

/-! ## Batches of whole events -/

/-- The name of the event can be forwarded. -/
def KeepsName (e : Event) : Prop :=
  ∀ t ∈ e.event, trim t = t ∧ t ≠ [] ∧ t ≠ "data".toList ∧ e.data ≠ doneMarker

/-- No event without a type, other than `[DONE]`, is behind one with a type. -/
def UntypedFirst (es : List Event) : Prop :=
  es.Pairwise fun a b => a.event ≠ none → b.event ≠ none ∨ b.data = doneMarker

/-- The lines are those of whole events, the ones without a type first. -/
def WholeEvents (ls : List (List Char)) : Prop :=
  ∃ es : List Event, ls = es.flatMap Event.lines ∧ UntypedFirst es

theorem sentType_eq_some {ty t : List Char} :
    sentType ty = some t ↔ ty = t ∧ t ≠ [] ∧ t ≠ "data".toList := by
  unfold sentType
  constructor
  · intro h
    split at h
    · cases h
    · rename_i hne
      rw [← Option.some.inj h]
      exact ⟨rfl, fun he => hne (.inr he), fun he => hne (.inl he)⟩
  · rintro ⟨rfl, hne, hdata⟩
    rw [if_neg (not_or.mpr ⟨hdata, hne⟩)]

/-- Whole events behind the type `ty` are forwarded as they are exactly if their names can be, and
those without a type come before any type. -/
theorem events_kept_iff (es : List Event) (ty : List Char) :
    (Prog.forEach (proxyLine serde true maxJsonDepth) (es.flatMap Event.lines) ty).2 = es ↔
      (∀ e ∈ es, KeepsName e) ∧ UntypedFirst es ∧
        (sentType ty = none ∨ ∀ e ∈ es, e.event ≠ none ∨ e.data = doneMarker) := by
  induction es generalizing ty with
  | nil => simp [UntypedFirst]
  | cons e es ih =>
    obtain ⟨t, d⟩ := e
    rw [List.flatMap_cons, Prog.forEach_append, Prog.andThen_apply, List.forall_mem_cons,
      List.forall_mem_cons, UntypedFirst, List.pairwise_cons]
    cases t with
    | none =>
      have hrun : Prog.forEach (proxyLine serde true maxJsonDepth) (Event.lines ⟨none, d⟩) ty =
          (ty, [{ event := if d = doneMarker then none else sentType ty, data := d }]) := by
        simp [Event.lines]
      have hkeeps : KeepsName ⟨none, d⟩ := by simp [KeepsName]
      rw [hrun, List.singleton_append, List.cons.injEq, ih]
      simp only [Event.mk.injEq, and_true, hkeeps, true_and, ne_eq, not_true_eq_false, false_or,
        false_implies, implies_true, UntypedFirst]
      by_cases hd : d = doneMarker
      · simp [hd]
      · simp only [hd, if_false, false_and, or_false]
        tauto
    | some t =>
      have hrun : Prog.forEach (proxyLine serde true maxJsonDepth) (Event.lines ⟨some t, d⟩) ty =
          (trim t, [{ event := if d = doneMarker then none else sentType (trim t), data := d }]) := by
        simp [Event.lines]
      have hkeeps : KeepsName ⟨some t, d⟩ ↔ d ≠ doneMarker ∧ sentType (trim t) = some t := by
        rw [sentType_eq_some]
        simp only [KeepsName, Option.mem_some_iff, forall_eq']
        tauto
      rw [hrun, List.singleton_append, List.cons.injEq, ih, hkeeps]
      simp only [Event.mk.injEq, and_true, ne_eq, reduceCtorEq, not_false_eq_true, true_or, true_and,
        true_implies, UntypedFirst]
      by_cases hd : d = doneMarker
      · simp [hd]
      · simp only [hd, if_false, not_false_eq_true, true_and]
        constructor
        · rintro ⟨hsent, hk, hu, hn | hall⟩
          · rw [hsent] at hn
            cases hn
          · exact ⟨⟨hsent, hk⟩, ⟨hall, hu⟩, .inr hall⟩
        · rintro ⟨⟨hsent, hk⟩, ⟨hall, hu⟩, -⟩
          exact ⟨hsent, hk, hu, .inr hall⟩

/-- Whole events are forwarded as they are exactly if their names can be, and those without a type
come first. -/
theorem batchEvents_eq_iff {es : List Event} (hne : es ≠ []) :
    batchEvents serde maxJsonDepth (es.flatMap Event.lines) = es ↔
      (∀ e ∈ es, KeepsName e) ∧ UntypedFirst es := by
  have hrun := events_kept_iff serde maxJsonDepth es "data".toList
  have hdata : sentType "data".toList = none := rfl
  rw [hdata] at hrun
  simp only [true_or, and_true] at hrun
  rw [← hrun]
  have hlen := proxyLines_length serde maxJsonDepth (es.flatMap Event.lines) "data".toList
  rw [countP_isDataLine_lines] at hlen
  unfold batchEvents
  simp only
  rw [if_neg]
  intro h
  rw [h] at hlen
  exact hne (List.length_eq_zero_iff.mp hlen.symm)

/-- Batches that forward no more events than they have data lines all have one. -/
theorem countP_pos_of_length_le {bs : List (List (List Char))}
    (h : (bs.flatMap (batchEvents serde maxJsonDepth)).length ≤ bs.flatten.countP isDataLine) :
    ∀ b ∈ bs, 0 < b.countP isDataLine := by
  have hle : ∀ bs : List (List (List Char)), bs.flatten.countP isDataLine ≤
      (bs.flatMap (batchEvents serde maxJsonDepth)).length := fun bs => by
    induction bs with
    | nil => exact Nat.le_refl _
    | cons b bs ih =>
      rw [List.flatten_cons, List.countP_append, List.flatMap_cons, List.length_append,
        batchEvents_length]
      omega
  induction bs with
  | nil => simp
  | cons b bs ih =>
    have hrest := hle bs
    rw [List.flatten_cons, List.countP_append, List.flatMap_cons, List.length_append,
      batchEvents_length] at h
    rw [List.forall_mem_cons]
    exact ⟨by omega, ih (by omega)⟩

/-- A batch that begins with data forwards it without a type. -/
theorem batchEvents_dataLine (d : List Char) (ls : List (List Char)) :
    ∃ rest, batchEvents serde maxJsonDepth (dataLine d :: ls) = { event := none, data := d } :: rest := by
  have hdata : sentType "data".toList = none := rfl
  unfold batchEvents
  simp only [Prog.forEach_cons, Prog.andThen_apply, proxyLine_dataLine, hdata, ite_self]
  exact ⟨_, rfl⟩

/-- Batches that forward the events of their lines are made of whole events. -/
theorem wholeEvents_of_forwarded {es : List Event} {bs : List (List (List Char))}
    (hpos : ∀ b ∈ bs, 0 < b.countP isDataLine) (hflat : bs.flatten = es.flatMap Event.lines)
    (h : bs.flatMap (batchEvents serde maxJsonDepth) = es) :
    (∀ e ∈ es, KeepsName e) ∧ ∀ b ∈ bs, WholeEvents b := by
  induction bs generalizing es with
  | nil =>
    obtain rfl : es = [] := h.symm
    simp
  | cons b bs ih =>
    obtain ⟨hb, hbs⟩ := List.forall_mem_cons.mp hpos
    rw [List.flatten_cons] at hflat
    rw [List.flatMap_cons] at h
    have hlen := batchEvents_length serde maxJsonDepth b
    rw [max_eq_right hb] at hlen
    rcases flatMap_lines_prefix hflat with ⟨pre, post, rfl, rfl, hpost⟩ | ⟨pre, e, post, t, rfl, het, rfl, hr⟩
    · rw [countP_isDataLine_lines] at hlen hb
      obtain ⟨hpre, hrest⟩ := List.append_inj h hlen
      obtain ⟨hnames, hfirst⟩ :=
        (batchEvents_eq_iff serde maxJsonDepth (List.length_pos_iff.mp hb)).mp hpre
      obtain ⟨hnames', hwhole⟩ := ih hbs hpost hrest
      refine ⟨fun e he => (List.mem_append.mp he).elim (hnames e) (hnames' e), ?_⟩
      exact List.forall_mem_cons.mpr ⟨⟨pre, rfl, hfirst⟩, hwhole⟩
    · -- The data of `e` begins the next batch, and `e` has lost its type.
      have hcount : (pre.flatMap Event.lines ++ [eventLine t]).countP isDataLine = pre.length := by
        rw [List.countP_append, countP_isDataLine_lines]
        simp
      rw [hcount] at hlen
      obtain ⟨-, hrest⟩ := List.append_inj h hlen
      cases bs with
      | nil => cases hr
      | cons b' bs =>
        obtain ⟨d, ls, rfl⟩ : ∃ d ls, b' = d :: ls :=
          List.exists_cons_of_ne_nil (by rintro rfl; exact absurd (hbs [] (by simp)) (by simp))
        simp only [List.flatten_cons, List.cons_append, List.cons.injEq] at hr
        obtain ⟨rfl, -⟩ := hr
        obtain ⟨rest, hfirst⟩ := batchEvents_dataLine serde maxJsonDepth e.data ls
        rw [List.flatMap_cons, hfirst, List.cons_append, List.cons.injEq] at hrest
        rw [← hrest.1] at het
        cases het

/-- Batches of whole events forward them. -/
theorem forwarded_of_wholeEvents {es : List Event} {bs : List (List (List Char))}
    (hflat : bs.flatten = es.flatMap Event.lines) (hkeeps : ∀ e ∈ es, KeepsName e)
    (hne : ∀ b ∈ bs, b ≠ []) (hwhole : ∀ b ∈ bs, WholeEvents b) :
    bs.flatMap (batchEvents serde maxJsonDepth) = es := by
  induction bs generalizing es with
  | nil =>
    have hlen := congrArg (List.countP isDataLine) hflat
    rw [countP_isDataLine_lines] at hlen
    exact (List.length_eq_zero_iff.mp hlen.symm).symm
  | cons b bs ih =>
    obtain ⟨pre, rfl, hfirst⟩ := hwhole b (by simp)
    rw [List.flatten_cons] at hflat
    obtain ⟨post, rfl, hpost⟩ := flatMap_lines_append hflat
    have hpre : pre ≠ [] := fun h => hne _ (List.mem_cons_self ..) (by rw [h]; rfl)
    have hbatch := (batchEvents_eq_iff serde maxJsonDepth hpre).mpr
      ⟨fun e he => hkeeps e (by simp [he]), hfirst⟩
    rw [List.flatMap_cons, hbatch, ih hpost (fun e he => hkeeps e (by simp [he]))
      (fun c hc => hne c (by simp [hc])) fun c hc => hwhole c (by simp [hc])]

/-- The batches of a body forward its events exactly if all names can be forwarded and every batch
has whole events. -/
theorem batches_kept_iff {es : List Event} {bs : List (List (List Char))}
    (hflat : bs.flatten = es.flatMap Event.lines) :
    bs.flatMap (batchEvents serde maxJsonDepth) = es ↔
      (∀ e ∈ es, KeepsName e) ∧ ∀ b ∈ bs, b ≠ [] ∧ WholeEvents b := by
  constructor
  · intro h
    have hpos : ∀ b ∈ bs, 0 < b.countP isDataLine := by
      apply countP_pos_of_length_le serde maxJsonDepth
      rw [h, hflat, countP_isDataLine_lines]
    obtain ⟨hkeeps, hwhole⟩ := wholeEvents_of_forwarded serde maxJsonDepth hpos hflat h
    refine ⟨hkeeps, fun b hb => ⟨?_, hwhole b hb⟩⟩
    rintro rfl
    exact absurd (hpos [] hb) (by simp)
  · rintro ⟨hkeeps, h⟩
    exact forwarded_of_wholeEvents serde maxJsonDepth hflat hkeeps (fun b hb => (h b hb).1)
      fun b hb => (h b hb).2

/-! ## The batches of a body -/

/-- The batches of `buffered_lines`, with what is flushed at the end. -/
def allBatches (chunks : List (List Char)) : List (List (List Char)) :=
  let buffer := (Prog.forEach SseLineBuffer.push chunks .new).1.buf
  SseLineBuffer.batches .new chunks ++ if buffer = [] then [] else [content buffer]

/-- The batches have the lines of the body, and the lines that are flushed end as those of the
body do. -/
theorem allBatches_lines {eol : LineEnd} {es : List Event} (hes : ∀ e ∈ es, e.Fits)
    {chunks : List (List Char)} (h : chunks.flatten = body eol es) :
    (allBatches chunks).flatten = es.flatMap Event.lines ∧
      ∀ l ∈ Text.lines (Prog.forEach SseLineBuffer.push chunks .new).1.buf, OneLine l := by
  obtain ⟨raw, hraw, hsplit⟩ := SseLineBuffer.pushes_split .new chunks
  have hnew : SseLineBuffer.new.buf ++ chunks.flatten = body eol es := h
  rw [hnew, split_body eol hes, Prod.mk.injEq] at hsplit
  unfold allBatches
  generalize (Prog.forEach SseLineBuffer.push chunks .new).1.buf = buffer at hsplit ⊢
  obtain ⟨hlines, hrest⟩ := hsplit
  have hcontent : content buffer = nonblank (split '\n' buffer).1 := by
    rw [content, pieces, ← hrest, nonblank_append]
    exact List.append_nil _
  have hif : (if buffer = [] then [] else [content buffer]).flatten = content buffer := by
    by_cases hb : buffer = []
    · rw [hb]
      rfl
    · simp [hb]
  constructor
  · have hbody := content_body eol hes
    rw [content, pieces, split_body eol hes, nonblank_append] at hbody
    rw [← hbody, hlines, nonblank_append, List.flatten_append, hraw, hif, hcontent]
    exact (List.append_nil _).symm
  · intro l hl
    rw [Text.lines, if_pos hrest.symm, List.append_nil] at hl
    obtain ⟨line, hline, rfl⟩ := List.mem_map.mp hl
    exact oneLine_stripSuffix hes line (hlines ▸ List.mem_append_right raw hline)

theorem joinLines_eq_flatMap {ls : List (List Char)} (hne : ls ≠ []) :
    joinLines ls = ls.flatMap (· ++ ['\n']) := by
  unfold joinLines
  induction ls with
  | nil => exact absurd rfl hne
  | cons l ls ih =>
    cases ls with
    | nil => simp [List.intercalate]
    | cons m ls =>
      rw [List.intercalate_cons_cons, List.append_assoc, List.append_assoc, ih (by simp)]
      simp

/-- The lines of a batch are its lines. -/
theorem lines_joinLines {ls : List (List Char)} (hne : ls ≠ []) (hlf : ∀ l ∈ ls, '\n' ∉ l)
    (hcr : ∀ l ∈ ls, stripSuffix '\r' l = l) : Text.lines (joinLines ls) = ls := by
  have hsplit := split_flatMap hlf []
  rw [List.append_nil, split_nil, List.append_nil, ← joinLines_eq_flatMap hne] at hsplit
  have hmap : ls.map (stripSuffix '\r') = ls.map id := List.map_congr_left hcr
  rw [Text.lines, hsplit, if_pos rfl, List.append_nil, hmap, List.map_id]

/-- A batch is read as its lines. -/
theorem processSseChunkLines_joinLines {ls : List (List Char)} (hne : ls ≠ [])
    (h : ∀ l ∈ ls, OneLine l) :
    processSseChunkLines serde true maxJsonDepth (joinLines ls) = batchEvents serde maxJsonDepth ls := by
  unfold processSseChunkLines
  rw [lines_joinLines hne (fun l hl => (h l hl).noLf) fun l hl => stripSuffix_of_notMem (h l hl).noCr]
  rfl

/-- What is flushed is read as its lines that are not blank. -/
theorem processSseChunkLines_flushed {buffer : List Char}
    (h : ∀ l ∈ Text.lines buffer, OneLine l) :
    processSseChunkLines serde true maxJsonDepth buffer =
      batchEvents serde maxJsonDepth (content buffer) := by
  unfold processSseChunkLines
  rw [proxyLines_nonblank serde maxJsonDepth true h, nonblank_lines]
  rfl

/-- The events forwarded for a body are those of its batches. -/
theorem proxyEvents_eq {eol : LineEnd} {es : List Event} (hes : ∀ e ∈ es, e.Fits)
    {chunks : List (List Char)} (h : chunks.flatten = body eol es) :
    proxyEvents serde true maxJsonDepth (chunks.map .ok) =
      (allBatches chunks).flatMap (batchEvents serde maxJsonDepth) := by
  obtain ⟨hflat, hflush⟩ := allBatches_lines hes h
  have hone : ∀ b ∈ allBatches chunks, ∀ l ∈ b, OneLine l := fun b hb l hl =>
    oneLine_flatMap_lines hes l (hflat ▸ List.mem_flatten.mpr ⟨b, hb, hl⟩)
  unfold proxyEvents
  rw [bufferedLines_eq, List.flatMap_map, List.flatMap_append, List.flatMap_map]
  unfold allBatches at hone ⊢
  simp only [List.mem_append] at hone
  rw [List.flatMap_append]
  congr 1
  · refine List.flatMap_congr fun b hb => ?_
    exact processSseChunkLines_joinLines serde maxJsonDepth (SseLineBuffer.batches_ne_nil hb)
      (hone b (.inl hb))
  · unfold SseLineBuffer.takeRemainder
    by_cases hb : (Prog.forEach SseLineBuffer.push chunks .new).1.buf = []
    · simp [hb]
    · simp only [if_neg hb, Option.toList_some, List.flatMap_singleton]
      exact processSseChunkLines_flushed serde maxJsonDepth hflush

/-- What the buffer holds at the end is nothing, or whole events. -/
def FlushesWholeEvents (b : SseLineBuffer) : Prop :=
  b.buf ≠ [] → content b.buf ≠ [] ∧ WholeEvents (content b.buf)

/-- **`/v1/proxy`.** The events of a body are forwarded as they are exactly if all their names can
be forwarded, every push completes whole events, and whole events are left at the end. -/
theorem proxy_exact_iff (eol : LineEnd) {es : List Event} (hes : ∀ e ∈ es, e.Fits)
    {chunks : List (List Char)} (h : chunks.flatten = body eol es) :
    proxyEvents serde true maxJsonDepth (chunks.map .ok) = es ↔
      (∀ e ∈ es, KeepsName e) ∧
        Along (fun b chunk => WholeEvents (b.completed chunk)) SseLineBuffer.push .new chunks ∧
        FlushesWholeEvents (Prog.forEach SseLineBuffer.push chunks .new).1 := by
  rw [proxyEvents_eq serde maxJsonDepth hes h,
    batches_kept_iff serde maxJsonDepth (allBatches_lines hes h).1,
    ← SseLineBuffer.forall_batches_iff ⟨[], rfl, .nil⟩]
  refine and_congr_right fun _ => ?_
  unfold allBatches FlushesWholeEvents
  rw [List.forall_mem_append]
  refine and_congr ?_ ?_
  · exact ⟨fun h b hb => (h b hb).2, fun h b hb => ⟨SseLineBuffer.batches_ne_nil hb, h b hb⟩⟩
  · by_cases hb : (Prog.forEach SseLineBuffer.push chunks .new).1.buf = []
    · simp [hb]
    · simp [hb]

end

/-- A typed event and one without a type. -/
def typedThenUntyped : List Event :=
  [pingEvent, { event := none, data := "\x7b\x7d".toList }]

theorem proxy_exact_iff_typedThenUntyped :
    proxyEvents (tableSerde []) true 64 ([body .lf typedThenUntyped].map .ok) = typedThenUntyped ↔
      (∀ e ∈ typedThenUntyped, KeepsName e) ∧
        Along (fun b chunk => WholeEvents (b.completed chunk)) SseLineBuffer.push .new
          [body .lf typedThenUntyped] ∧
        FlushesWholeEvents
          (Prog.forEach SseLineBuffer.push [body .lf typedThenUntyped] .new).1 :=
  proxy_exact_iff (tableSerde []) 64 .lf (by decide +kernel) (List.append_nil _)

/-- In one chunk, the second event is forwarded with the type of the first. -/
theorem typedThenUntyped_keeps_type :
    (∀ e ∈ typedThenUntyped, e.Fits) ∧
      proxyEvents (tableSerde []) true 64 ([body .lf typedThenUntyped].map .ok) =
        [pingEvent, pingEvent] ∧
      proxyEvents (tableSerde []) true 64 ([body .lf typedThenUntyped].map .ok) ≠
        typedThenUntyped := by
  decide +kernel

end ApertureRouter
