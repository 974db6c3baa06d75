import ApertureRouter.Lib.Utf8

/-!
# The stream of texts from an upstream

`make_utf8_stream` (`src/proxy/client.rs`) turns the chunks of a body, cut anywhere, into texts. It
counts the bytes against the limit, keeps what is no character yet in `leftover`, and decodes
lossily what cannot become one.

* `reassemble`: one decoding of the buffer.
* `utf8Items`: the items of the stream. Bytes that are left over at the end are dropped.
* `Clean`: the bytes left over are a part of the next character. `Clean.step`: a chunk keeps this.
* `reassembly_exact`: a body that is UTF-8 comes out as it is.
-/

namespace ApertureRouter

open Utf8

/-! ## The stream -/

/-- The bytes cannot become a character: `buf.len() > 4 + needed`. -/
def lossyDue (buf : List UInt8) (e : Utf8.Error) : Bool :=
  e.validUpTo == 0 && buf.length > 4 + e.errorLen.getD 1

/-- The text of the buffer, and what stays in it. -/
def reassemble (buf : List UInt8) : List Char × List UInt8 :=
  match fromUtf8 buf with
  | .ok s => (s, [])
  | .error e =>
    if lossyDue buf e then (lossy buf, [])
    else if e.validUpTo = 0 then ([], buf)
    else ((fromUtf8 (buf.take e.validUpTo)).toOption.getD [], buf.drop e.validUpTo)

/-- `total_bytes` and `leftover`. -/
structure Utf8State where
  totalBytes : Nat := 0
  leftover : List UInt8 := []

def sizeLimitExceeded (maxSize current : Nat) : String :=
  "Streaming response size limit exceeded (max " ++ toString (maxSize / 1024 / 1024) ++
    " MB, current " ++ toString (current / 1024 / 1024) ++ ")"

/-- One chunk of the body, or an error of the transport. -/
def utf8Step (maxSize : Nat) (state : Utf8State) :
    Except String (List UInt8) → Except String (List Char) × Utf8State
  | .error e => (.error ("Stream error: " ++ e), state)
  | .ok bytes =>
    if state.totalBytes + bytes.length > maxSize then
      (.error (sizeLimitExceeded maxSize state.totalBytes), state)
    else
      let decoded := reassemble (state.leftover ++ bytes)
      (.ok decoded.1, ⟨state.totalBytes + bytes.length, decoded.2⟩)

def utf8Items (maxSize : Nat) : Utf8State → List (Except String (List UInt8)) →
    List (Except String (List Char))
  | _, [] => []
  | state, chunk :: chunks =>
    (utf8Step maxSize state chunk).1 :: utf8Items maxSize (utf8Step maxSize state chunk).2 chunks

/-- `make_utf8_stream`: its items. -/
def makeUtf8Stream (maxSize : Nat) (chunks : List (Except String (List UInt8))) :
    List (Except String (List Char)) :=
  utf8Items maxSize {} chunks

/-- The state after the chunks. -/
def utf8After (maxSize : Nat) (chunks : List (Except String (List UInt8))) : Utf8State :=
  chunks.foldl (fun state chunk => (utf8Step maxSize state chunk).2) {}

/-- The text that the items deliver. -/
def delivered (items : List (Except String (List Char))) : List Char :=
  items.flatMap fun item => item.toOption.getD []

@[simp] theorem delivered_ok (s : List Char) (items : List (Except String (List Char))) :
    delivered (.ok s :: items) = s ++ delivered items := rfl

@[simp] theorem delivered_error (e : String) (items : List (Except String (List Char))) :
    delivered (.error e :: items) = delivered items := rfl

theorem delivered_append (items items' : List (Except String (List Char))) :
    delivered (items ++ items') = delivered items ++ delivered items' := List.flatMap_append

/-! ## One decoding -/

section

variable {rest : List UInt8} {e : Option Nat}

/-- Bytes behind a text stay in the buffer. -/
theorem reassemble_append {s : List Char} (hs : s ≠ []) (h : head rest = .error e) :
    reassemble (encode s ++ rest) = (s, rest) := by
  have hlen : (encode s).length ≠ 0 := fun h0 =>
    hs (encode_eq_nil_iff.mp (List.length_eq_zero_iff.mp h0))
  rw [reassemble, fromUtf8_append s h]
  by_cases hrest : rest = []
  · rw [if_pos hrest, hrest]
  · rw [if_neg hrest]
    simp only [lossyDue, hlen, Bool.false_eq_true, if_false, Bool.false_and,
      beq_eq_false_iff_ne.mpr hlen, List.take_left, List.drop_left, fromUtf8_encode]
    rfl

/-- Bytes that begin no character. -/
theorem reassemble_of_error (h : head rest = .error e) :
    reassemble rest = if 4 + e.getD 1 < rest.length then (lossy rest, []) else ([], rest) := by
  have hfrom : fromUtf8 rest = if rest = [] then .ok [] else .error ⟨0, e⟩ := fromUtf8_append [] h
  rw [reassemble, hfrom]
  by_cases hrest : rest = []
  · subst hrest
    rw [if_pos rfl, if_neg (by simp)]
  · rw [if_neg hrest]
    by_cases hlen : 4 + e.getD 1 < rest.length
    · simp [lossyDue, hlen]
    · simp [lossyDue, hlen]

end

/-! ## Bodies that are UTF-8 -/

/-- The bytes left over are a part of the next character of the text to come. -/
structure Clean (leftover rest : List UInt8) (s : List Char) : Prop where
  bytes : leftover ++ rest = encode s
  begins : Begins leftover s

theorem Clean.init (s : List Char) : Clean [] (encode s) s := ⟨rfl, .inl rfl⟩

/-- A chunk completes characters, and the bytes behind them are a part of the next one. -/
theorem Clean.step {leftover chunk rest : List UInt8} {s : List Char}
    (h : Clean leftover (chunk ++ rest) s) : ∃ t s' leftover', s = t ++ s' ∧
      leftover ++ chunk = encode t ++ leftover' ∧
      reassemble (leftover ++ chunk) = (t, leftover') ∧ Clean leftover' rest s' := by
  have hbytes := h.bytes
  rw [← List.append_assoc] at hbytes
  obtain ⟨t, s', part, rfl, hcut, hrest, hpart⟩ := exists_cut hbytes
  refine ⟨t, s', part, rfl, hcut, ?_, hrest, hpart⟩
  rw [hcut]
  by_cases ht : t = []
  · have hlen := hpart.length_le
    subst ht
    rw [encode_nil, List.nil_append, reassemble_of_error hpart.head_eq, if_neg (by simp; omega)]
  · exact reassemble_append ht hpart.head_eq

/-- At the end of the body nothing is left over. -/
theorem Clean.finish {leftover : List UInt8} {s : List Char} (h : Clean leftover [] s) :
    leftover = [] ∧ s = [] := by
  have hbytes := h.bytes
  rw [List.append_nil] at hbytes
  rcases h.begins with rfl | ⟨c, s', more, rfl, -, hmore, hc⟩
  · exact ⟨rfl, encode_eq_nil_iff.mp hbytes.symm⟩
  · rw [encode_cons, hc, List.append_assoc] at hbytes
    exact absurd (List.append_eq_nil_iff.mp (List.self_eq_append_right.mp hbytes)).1 hmore

/-- What a character lacks is waited for. -/
theorem Clean.lossyDue_eq {leftover chunk rest : List UInt8} {s : List Char}
    (h : Clean leftover (chunk ++ rest) s) {e : Utf8.Error}
    (he : fromUtf8 (leftover ++ chunk) = .error e) : lossyDue (leftover ++ chunk) e = false := by
  obtain ⟨t, s', part, -, hcut, -, hclean⟩ := h.step
  have hlen := hclean.begins.length_le
  rw [hcut, fromUtf8_append t hclean.begins.head_eq] at he
  split at he
  · cases he
  · obtain rfl := Except.error.inj he
    rw [hcut, lossyDue, List.length_append]
    by_cases ht : (encode t).length = 0
    · have hdec : ¬ 0 + part.length > 4 + (none : Option Nat).getD 1 := by
        show ¬ 0 + part.length > 5
        omega
      rw [ht, decide_eq_false hdec, Bool.and_false]
    · rw [beq_eq_false_iff_ne.mpr ht, Bool.false_and]

section

variable {maxSize : Nat} {state : Utf8State} {s : List Char}

/-- A chunk within the limit is decoded. -/
theorem utf8Step_ok {chunk : List UInt8} (h : state.totalBytes + chunk.length ≤ maxSize) :
    utf8Step maxSize state (.ok chunk) = (.ok (reassemble (state.leftover ++ chunk)).1,
      ⟨state.totalBytes + chunk.length, (reassemble (state.leftover ++ chunk)).2⟩) := by
  rw [utf8Step, if_neg (by omega)]

theorem utf8Step_over {chunk : List UInt8} (h : maxSize < state.totalBytes + chunk.length) :
    utf8Step maxSize state (.ok chunk) =
      (.error (sizeLimitExceeded maxSize state.totalBytes), state) := by
  rw [utf8Step, if_pos h]

/-- Within the limit the rest of a body comes out as it is. -/
theorem Clean.items {chunks : List (List UInt8)} (h : Clean state.leftover chunks.flatten s)
    (hmax : state.totalBytes + chunks.flatten.length ≤ maxSize) :
    ∃ texts : List (List Char),
      utf8Items maxSize state (chunks.map .ok) = texts.map .ok ∧ texts.flatten = s := by
  induction chunks generalizing state s with
  | nil =>
    exact ⟨[], rfl, h.finish.2.symm⟩
  | cons chunk chunks ih =>
    rw [List.flatten_cons, List.length_append] at hmax
    rw [List.flatten_cons] at h
    obtain ⟨t, s', leftover, rfl, -, hre, hclean⟩ := h.step
    have hnext : Clean (Utf8State.mk (state.totalBytes + chunk.length) leftover).leftover
        chunks.flatten s' := hclean
    obtain ⟨texts, hitems, hflat⟩ := ih hnext (by dsimp only; omega)
    refine ⟨t :: texts, ?_, by rw [List.flatten_cons, hflat]⟩
    rw [List.map_cons, utf8Items, utf8Step_ok (by omega), hre, hitems, List.map_cons]

/-- What is left over stays a part of the next character. -/
theorem Clean.foldl {before after : List (List UInt8)}
    (h : Clean state.leftover (before ++ after).flatten s)
    (hmax : state.totalBytes + (before ++ after).flatten.length ≤ maxSize) :
    ∃ s', Clean ((before.map .ok).foldl (fun st chunk => (utf8Step maxSize st chunk).2)
      state).leftover after.flatten s' := by
  induction before generalizing state s with
  | nil => exact ⟨s, h⟩
  | cons chunk before ih =>
    rw [List.cons_append, List.flatten_cons, List.length_append] at hmax
    rw [List.cons_append, List.flatten_cons] at h
    obtain ⟨t, s', leftover, -, -, hre, hclean⟩ := h.step
    rw [List.map_cons, List.foldl_cons, utf8Step_ok (by omega), hre]
    have hnext : Clean (Utf8State.mk (state.totalBytes + chunk.length) leftover).leftover
        (before ++ after).flatten s' := hclean
    exact ih hnext (by dsimp only; omega)

end

/-- The bytes left over after the chunks. -/
def leftoverAfter (maxSize : Nat) (chunks : List (List UInt8)) : List UInt8 :=
  (utf8After maxSize (chunks.map .ok)).leftover

/-- UTF-8 within the limit, cut anywhere, comes out as the text that it is. The lossy decoding is
never due, and what is left over after a chunk is less than a character. -/
theorem reassembly_exact (text : List Char) (maxSize : Nat) (chunks : List (List UInt8))
    (hbody : chunks.flatten = encode text) (hmax : chunks.flatten.length ≤ maxSize) :
    (∃ texts : List (List Char),
        makeUtf8Stream maxSize (chunks.map .ok) = texts.map .ok ∧ texts.flatten = text) ∧
      (∀ before chunk after, chunks = before ++ chunk :: after →
        ∀ e, fromUtf8 (leftoverAfter maxSize before ++ chunk) = .error e →
          lossyDue (leftoverAfter maxSize before ++ chunk) e = false) ∧
      (∀ before after, chunks = before ++ after → (leftoverAfter maxSize before).length ≤ 3) ∧
      leftoverAfter maxSize chunks = [] := by
  have hinit : Clean ({} : Utf8State).leftover chunks.flatten text := hbody ▸ Clean.init text
  have hsize : ({} : Utf8State).totalBytes + chunks.flatten.length ≤ maxSize := by
    rw [show ({} : Utf8State).totalBytes = 0 from rfl]
    omega
  refine ⟨hinit.items hsize, ?_, ?_, ?_⟩
  · rintro before chunk after rfl e he
    obtain ⟨s', hclean⟩ := hinit.foldl hsize
    rw [List.flatten_cons] at hclean
    exact hclean.lossyDue_eq he
  · rintro before after rfl
    obtain ⟨s', hclean⟩ := hinit.foldl hsize
    exact hclean.begins.length_le
  · rw [← List.append_nil chunks] at hinit hsize
    obtain ⟨s', hclean⟩ := hinit.foldl hsize
    exact hclean.finish.1

/-- `hé€😀`, cut inside its characters. -/
def cutInside : List (List UInt8) :=
  [[0x68, 0xC3], [], [0xA9, 0xE2], [0x82], [0xAC, 0xF0, 0x9F], [0x98, 0x80]]

theorem reassembly_exact_cutInside :
    (∃ texts : List (List Char), makeUtf8Stream 10 (cutInside.map .ok) = texts.map .ok ∧
      texts.flatten = ['h', 'é', '€', '😀']) ∧ leftoverAfter 10 cutInside = [] :=
  have h := reassembly_exact ['h', 'é', '€', '😀'] 10 cutInside (by decide) (by decide)
  ⟨h.1, h.2.2.2⟩

end ApertureRouter
