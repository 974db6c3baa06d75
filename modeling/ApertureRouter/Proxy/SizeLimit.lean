import ApertureRouter.Proxy.Utf8Stream

/-!
# The size limit of a stream

A chunk that does not fit is an error item, and the stream goes on: a later chunk that fits is
decoded behind what was left over before the error. So a stream may have a hole. It has none if the
later chunks that fit complete no character and do not make the lossy decoding due
(`StopsAtLimit`).

`truncated_iff`: for a body that is UTF-8, this is exactly when the stream delivers a prefix of the
text, within the limit, and nothing behind an error.
-/

namespace ApertureRouter

open Utf8

/-- What the buffer holds begins no character, and is not too long to wait. -/
def Waits (buf : List UInt8) : Prop := ∃ e, head buf = .error e ∧ buf.length ≤ 4 + e.getD 1

/-- The chunks that fit leave the decoder waiting. -/
def Silent (maxSize : Nat) : Nat → List UInt8 → List (List UInt8) → Prop
  | _, _, [] => True
  | total, held, chunk :: chunks =>
    if total + chunk.length ≤ maxSize then
      Waits (held ++ chunk) ∧ Silent maxSize (total + chunk.length) (held ++ chunk) chunks
    else Silent maxSize total held chunks

/-- The chunks behind the first one that does not fit are silent. `total` counts the bytes before
them, and `held` is their incomplete end. -/
def StopsAtLimit (maxSize : Nat) : Nat → List UInt8 → List (List UInt8) → Prop
  | _, _, [] => True
  | total, held, chunk :: chunks =>
    if total + chunk.length ≤ maxSize then
      StopsAtLimit maxSize (total + chunk.length) (validPrefix (held ++ chunk)).2 chunks
    else Silent maxSize total held chunks

/-- Nothing is delivered behind an error. -/
def EndsAtError (items : List (Except String (List Char))) : Prop :=
  ∀ before e after, items = before ++ .error e :: after → delivered after = []

/-- At every moment a prefix of the text is delivered, within the limit, and nothing behind an
error. -/
structure Truncated (maxSize : Nat) (text : List Char) (items : List (Except String (List Char))) :
    Prop where
  isPrefix : ∀ n, delivered (items.take n) <+: text
  capped : ∀ n, Text.utf8Len (delivered (items.take n)) ≤ maxSize
  endsAtError : EndsAtError items

/-! ## Behind the error -/

theorem lossy_ne_nil {bytes : List UInt8} (h : bytes ≠ []) : lossy bytes ≠ [] := by
  obtain ⟨b, bytes, rfl⟩ := List.exists_cons_of_ne_nil h
  rw [lossy, lossyFrom]
  split <;> exact List.cons_ne_nil _ _

theorem Waits.reassemble_eq {buf : List UInt8} (h : Waits buf) : reassemble buf = ([], buf) := by
  obtain ⟨e, he, hlen⟩ := h
  rw [reassemble_of_error he, if_neg (by omega)]

theorem reassemble_fst_eq_nil_iff {buf : List UInt8} : (reassemble buf).1 = [] ↔ Waits buf := by
  constructor
  · intro h
    obtain ⟨s, rest, e, rfl, he⟩ := exists_valid buf
    by_cases hs : s = []
    · subst hs
      rw [encode_nil, List.nil_append] at h ⊢
      refine ⟨e, he, ?_⟩
      by_contra hlen
      rw [reassemble_of_error he, if_pos (by omega)] at h
      exact lossy_ne_nil (List.length_pos_iff.mp (by omega)) h
    · rw [reassemble_append hs he] at h
      exact absurd h hs
  · intro h
    rw [h.reassemble_eq]

theorem delivered_eq_nil_iff_silent {maxSize : Nat} {chunks : List (List UInt8)} :
    ∀ {state : Utf8State}, delivered (utf8Items maxSize state (chunks.map .ok)) = [] ↔
      Silent maxSize state.totalBytes state.leftover chunks := by
  induction chunks with
  | nil => exact ⟨fun _ => trivial, fun _ => rfl⟩
  | cons chunk chunks ih =>
    intro state
    rw [List.map_cons, utf8Items, Silent]
    by_cases hfits : state.totalBytes + chunk.length ≤ maxSize
    · rw [utf8Step_ok hfits, if_pos hfits, delivered_ok, List.append_eq_nil_iff,
        reassemble_fst_eq_nil_iff]
      refine and_congr_right fun hwaits => ?_
      rw [ih, hwaits.reassemble_eq]
    · rw [utf8Step_over (by omega), if_neg hfits, delivered_error, ih]

/-! ## Items -/

theorem endsAtError_nil : EndsAtError [] := by
  intro before e after h
  cases before <;> cases h

theorem endsAtError_ok {s : List Char} {items : List (Except String (List Char))} :
    EndsAtError (.ok s :: items) ↔ EndsAtError items := by
  constructor
  · rintro h before e after rfl
    exact h (.ok s :: before) e after rfl
  · intro h before e after heq
    cases before with
    | nil => cases heq
    | cons item before => exact h before e after (List.cons.inj heq).2

theorem endsAtError_error {e : String} {items : List (Except String (List Char))} :
    EndsAtError (.error e :: items) ↔ delivered items = [] := by
  constructor
  · intro h
    exact h [] e items rfl
  · intro h before e' after heq
    cases before with
    | nil => rwa [← (List.cons.inj heq).2]
    | cons item before =>
      have hitems : items = before ++ .error e' :: after := (List.cons.inj heq).2
      rw [hitems, delivered_append] at h
      exact (List.append_eq_nil_iff.mp h).2

/-- A part of nothing is nothing. -/
theorem delivered_take_eq_nil {items : List (Except String (List Char))} (h : delivered items = [])
    (n : Nat) : delivered (items.take n) = [] := by
  rw [← List.take_append_drop n items, delivered_append] at h
  exact (List.append_eq_nil_iff.mp h).1

/-! ## The limit -/

section

variable {maxSize : Nat} {chunks : List (List UInt8)}

theorem Clean.endsAtError_iff {state : Utf8State} {s : List Char}
    (h : Clean state.leftover chunks.flatten s) :
    EndsAtError (utf8Items maxSize state (chunks.map .ok)) ↔
      StopsAtLimit maxSize state.totalBytes state.leftover chunks := by
  induction chunks generalizing state s with
  | nil => exact ⟨fun _ => trivial, fun _ => endsAtError_nil⟩
  | cons chunk chunks ih =>
    rw [List.flatten_cons] at h
    rw [List.map_cons, utf8Items, StopsAtLimit]
    by_cases hfits : state.totalBytes + chunk.length ≤ maxSize
    · obtain ⟨t, s', leftover, -, hcut, hre, hclean⟩ := h.step
      rw [utf8Step_ok hfits, if_pos hfits, endsAtError_ok, hre, hcut,
        validPrefix_encode t hclean.begins.head_eq]
      exact ih hclean
    · rw [utf8Step_over (by omega), if_neg hfits, endsAtError_error]
      exact delivered_eq_nil_iff_silent

theorem Clean.take_isPrefix {state : Utf8State} {s : List Char}
    (h : Clean state.leftover chunks.flatten s)
    (hends : EndsAtError (utf8Items maxSize state (chunks.map .ok))) (n : Nat) :
    delivered ((utf8Items maxSize state (chunks.map .ok)).take n) <+: s := by
  induction chunks generalizing state s n with
  | nil =>
    rw [List.map_nil, utf8Items, List.take_nil]
    exact List.nil_prefix
  | cons chunk chunks ih =>
    rw [List.flatten_cons] at h
    rw [List.map_cons, utf8Items] at hends ⊢
    cases n with
    | zero => exact List.nil_prefix
    | succ n =>
      by_cases hfits : state.totalBytes + chunk.length ≤ maxSize
      · obtain ⟨t, s', leftover, rfl, -, hre, hclean⟩ := h.step
        rw [utf8Step_ok hfits, hre] at hends ⊢
        rw [List.take_succ_cons, delivered_ok, List.prefix_append_right_inj]
        exact ih hclean (endsAtError_ok.mp hends) n
      · rw [utf8Step_over (by omega)] at hends ⊢
        rw [List.take_succ_cons, delivered_error,
          delivered_take_eq_nil (endsAtError_error.mp hends) n]
        exact List.nil_prefix

/-- What is delivered and what is left over are the bytes that were counted. -/
theorem Clean.take_capped {state : Utf8State} {s : List Char}
    (h : Clean state.leftover chunks.flatten s) (htotal : state.totalBytes ≤ maxSize)
    (hends : EndsAtError (utf8Items maxSize state (chunks.map .ok))) (n : Nat) :
    Text.utf8Len (delivered ((utf8Items maxSize state (chunks.map .ok)).take n)) +
      state.totalBytes ≤ maxSize + state.leftover.length := by
  induction chunks generalizing state s n with
  | nil =>
    rw [List.map_nil, utf8Items, List.take_nil]
    show 0 + state.totalBytes ≤ _
    omega
  | cons chunk chunks ih =>
    rw [List.flatten_cons] at h
    rw [List.map_cons, utf8Items] at hends ⊢
    cases n with
    | zero =>
      show 0 + state.totalBytes ≤ _
      omega
    | succ n =>
      by_cases hfits : state.totalBytes + chunk.length ≤ maxSize
      · obtain ⟨t, s', leftover, rfl, hcut, hre, hclean⟩ := h.step
        rw [utf8Step_ok hfits, hre] at hends ⊢
        have hnext : Clean (Utf8State.mk (state.totalBytes + chunk.length) leftover).leftover
            chunks.flatten s' := hclean
        have hrest := ih hnext hfits (endsAtError_ok.mp hends) n
        dsimp only
        have hlen := congrArg List.length hcut
        rw [List.length_append, List.length_append, length_encode] at hlen
        rw [List.take_succ_cons, delivered_ok, ← length_encode, encode_append, List.length_append,
          length_encode, length_encode]
        dsimp only at hrest
        omega
      · rw [utf8Step_over (by omega)] at hends ⊢
        rw [List.take_succ_cons, delivered_error,
          delivered_take_eq_nil (endsAtError_error.mp hends) n]
        show 0 + state.totalBytes ≤ _
        omega

/-- A body that is UTF-8 is truncated at the limit exactly if the chunks behind the first one that
does not fit are silent. -/
theorem truncated_iff (text : List Char) (maxSize : Nat) (chunks : List (List UInt8))
    (hbody : chunks.flatten = encode text) :
    Truncated maxSize text (makeUtf8Stream maxSize (chunks.map .ok)) ↔
      StopsAtLimit maxSize 0 [] chunks := by
  have hinit : Clean ({} : Utf8State).leftover chunks.flatten text := hbody ▸ Clean.init text
  constructor
  · intro h
    exact hinit.endsAtError_iff.mp h.endsAtError
  · intro h
    have hends : EndsAtError (makeUtf8Stream maxSize (chunks.map .ok)) :=
      hinit.endsAtError_iff.mpr h
    refine ⟨hinit.take_isPrefix hends, fun n => ?_, hends⟩
    exact hinit.take_capped (Nat.zero_le maxSize) hends n

end

/-- `hell`: the second chunk does not fit within two bytes. -/
def overLimit : List (List UInt8) := [[0x68], [0x65, 0x6C, 0x6C]]

theorem truncated_iff_overLimit :
    Truncated 2 ['h', 'e', 'l', 'l'] (makeUtf8Stream 2 (overLimit.map .ok)) :=
  (truncated_iff ['h', 'e', 'l', 'l'] 2 overLimit (by decide)).mpr trivial

/-- `hello`: the second chunk does not fit within two bytes, and the third one does. -/
def holeInside : List (List UInt8) := [[0x68], [0x65, 0x6C, 0x6C], [0x6F]]

theorem holeInside_not_truncated :
    holeInside.flatten = encode ['h', 'e', 'l', 'l', 'o'] ∧
      delivered (makeUtf8Stream 2 (holeInside.map .ok)) = ['h', 'o'] ∧
      ¬ Truncated 2 ['h', 'e', 'l', 'l', 'o'] (makeUtf8Stream 2 (holeInside.map .ok)) := by
  refine ⟨by decide, by decide, fun h => ?_⟩
  have hprefix := h.isPrefix 3
  revert hprefix
  decide

end ApertureRouter
