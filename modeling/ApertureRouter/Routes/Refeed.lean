import ApertureRouter.Lib.Offsets
import ApertureRouter.Routes.LineBuffer

/-!
# The push that feeds its own head again

`SseLineBuffer::push` calls itself when the buffer is over the cap, and works with byte offsets
that panic off a character boundary. `pushFuel` follows it call by call, `none` for a panic or for
fuel that ran out; `pushFuel_eq` shows that it is `push`.

* `pushes_lossless`: the lines of all pushes and the rest are the lines of the whole text.
* `retained`: what the buffer holds, byte for byte. `pushes_bounded_iff`: when it is bounded. A
  text without a line end stays in it whole (`push_of_notMem`).
-/

namespace ApertureRouter

open Emit Lines Sse Text

namespace SseLineBuffer

/-- The loop of `push`: `while let Some(pos) = self.buf.find('\n')`. -/
def takeLinesFuel : Nat → List Char → List (List Char) → Option (SseLineBuffer × List (List Char))
  | 0, _, _ => none
  | fuel + 1, buf, lines =>
    match Text.find '\n' buf with
    | none => some (⟨buf⟩, lines)
    | some pos => do
      let (before, _) ← splitOff buf pos
      let line := trimEndMatches '\r' before
      let (_, rest) ← splitOff buf (pos + 1)
      takeLinesFuel fuel rest (if line = [] then lines else lines ++ [line])

/-- `SseLineBuffer::push`, with fuel for its calls of itself and for its loop. -/
def pushFuel : Nat → List Char → SseLineBuffer → Option (SseLineBuffer × List (List Char))
  | 0, _, _ => none
  | fuel + 1, chunk, b =>
    let buf := b.buf ++ chunk
    if maxLineBuffer < utf8Len buf then do
      let (head, overflow) ← splitOff buf (floorBoundary buf maxLineBuffer)
      let (b, lines) ← pushFuel fuel head ⟨[]⟩
      return (⟨b.buf ++ overflow⟩, lines)
    else takeLinesFuel fuel buf []

/-- One push after the other: the lines that they return, and the buffer after them. -/
def pushAllFuel (fuel : Nat) :
    List (List Char) → SseLineBuffer → Option (SseLineBuffer × List (List Char))
  | [], b => some (b, [])
  | chunk :: chunks, b => do
    let (b, lines) ← pushFuel fuel chunk b
    let (b, rest) ← pushAllFuel fuel chunks b
    return (b, lines ++ rest)

/-- With fuel for every character, the loop takes the lines off. -/
theorem takeLinesFuel_eq {fuel : Nat} {buf : List Char} (h : buf.length < fuel)
    (lines : List (List Char)) :
    takeLinesFuel fuel buf lines = some (⟨(split '\n' buf).2⟩, lines ++ nonblank (split '\n' buf).1) := by
  induction fuel generalizing buf lines with
  | zero => omega
  | succ fuel ih =>
    by_cases hmem : '\n' ∈ buf
    · obtain ⟨l, r, rfl, hl⟩ := List.eq_append_cons_of_mem hmem
      have hlen : r.length < fuel := by
        rw [List.length_append, List.length_cons] at h
        omega
      have hfirst := splitOff_utf8Len l ('\n' :: r)
      have hrest : splitOff (l ++ '\n' :: r) (utf8Len l + 1) = some (l ++ ['\n'], r) := by
        have := splitOff_utf8Len (l ++ ['\n']) r
        rwa [List.append_assoc, utf8Len_append] at this
      simp only [takeLinesFuel, find_append_cons hl, hfirst, hrest, Option.bind_eq_bind,
        Option.bind_some, ih hlen, split_cons hl]
      rw [nonblank_cons l, nonblank_singleton]
      split <;> simp
    · rw [takeLinesFuel, find_eq_none_iff.mpr hmem, split_of_notMem hmem]
      simp

/-- **The push of the source.** With fuel for every character and for the call of itself it ends,
does not panic, and is `push`. -/
theorem pushFuel_eq {fuel : Nat} {chunk : List Char} {b : SseLineBuffer}
    (h : b.buf.length + chunk.length + 2 ≤ fuel) : pushFuel fuel chunk b = some (push chunk b) := by
  have hfits : ∀ {fuel buf}, utf8Len buf ≤ maxLineBuffer → buf.length + 1 < fuel →
      pushFuel fuel buf ⟨[]⟩ = some (takeLines ⟨buf⟩) := by
    intro fuel buf hcap hfuel
    obtain ⟨n, rfl⟩ : ∃ n, fuel = n + 1 := ⟨fuel - 1, by omega⟩
    simp only [pushFuel, List.nil_append, if_neg (Nat.not_lt.mpr hcap)]
    rw [takeLinesFuel_eq (by omega), List.nil_append]
    rfl
  by_cases hcap : maxLineBuffer < utf8Len (b.buf ++ chunk)
  · obtain ⟨n, rfl⟩ : ∃ n, fuel = n + 1 := ⟨fuel - 1, by omega⟩
    have hhead := utf8Len_splitAtBoundary_le maxLineBuffer (b.buf ++ chunk)
    have hlt := length_splitAtBoundary_lt hcap
    rw [List.length_append] at hlt
    have hcall := @hfits n _ hhead (by omega)
    simp only [pushFuel, push, if_pos hcap, splitOff_floorBoundary, Option.bind_eq_bind,
      Option.bind_some, hcall]
    rfl
  · obtain ⟨n, rfl⟩ : ∃ n, fuel = n + 1 := ⟨fuel - 1, by omega⟩
    simp only [pushFuel, push, if_neg hcap]
    rw [takeLinesFuel_eq (by rw [List.length_append]; omega), List.nil_append]
    rfl

/-- What a push takes, with the line ends, and what it keeps are what it had. -/
theorem push_join (chunk : List Char) (b : SseLineBuffer) :
    (split '\n' (splitAtBoundary maxLineBuffer (b.buf ++ chunk)).1).1.flatMap (· ++ ['\n']) ++
      (push chunk b).1.buf = b.buf ++ chunk := by
  rw [push_eq, ← List.append_assoc, join_split, splitAtBoundary_append]

/-- **The pushes of the source.** So does a run of pushes. -/
theorem pushAllFuel_eq {fuel : Nat} {chunks : List (List Char)} {b : SseLineBuffer}
    (h : b.buf.length + chunks.flatten.length + 2 ≤ fuel) :
    pushAllFuel fuel chunks b = some (Prog.forEach push chunks b) := by
  induction chunks generalizing b with
  | nil => rfl
  | cons chunk chunks ih =>
    rw [List.flatten_cons, List.length_append] at h
    have hkept := congrArg List.length (push_join chunk b)
    rw [List.length_append, List.length_append] at hkept
    simp only [pushAllFuel, @pushFuel_eq fuel chunk b (by omega),
      Option.bind_eq_bind, Option.bind_some, ih (b := (push chunk b).1) (by omega)]
    rfl

/-- The lines of the pushes, one push after the other. -/
theorem forEach_push (chunks : List (List Char)) (b : SseLineBuffer) :
    (Prog.forEach push chunks b).2 = (batches b chunks).flatten := by
  induction chunks generalizing b with
  | nil => rfl
  | cons chunk chunks ih =>
    have hlines : (push chunk b).2 = b.completed chunk := by rw [push_eq]
    rw [Prog.forEach_cons, Prog.andThen_apply, ih, batches_cons, List.flatten_append, hlines]
    split <;> simp [*]

/-- **Nothing is lost or reordered.** Every push ends without a panic, and the lines of all pushes
and of the rest are the lines of the text. -/
theorem pushes_lossless (chunks : List (List Char)) :
    ∃ enough, ∀ fuel, enough ≤ fuel → ∃ b lines, pushAllFuel fuel chunks .new = some (b, lines) ∧
      lines ++ nonblank (b.takeRemainder.elim [] (pieces '\n')) = content chunks.flatten := by
  refine ⟨chunks.flatten.length + 2, fun fuel hfuel => ?_⟩
  obtain ⟨raw, hraw, hsplit⟩ := pushes_split .new chunks
  refine ⟨_, _, pushAllFuel_eq (by simpa [new] using hfuel), ?_⟩
  have hrest : ∀ b : SseLineBuffer,
      nonblank (b.takeRemainder.elim [] (pieces '\n')) = content b.buf := by
    intro b
    unfold takeRemainder
    split
    · rename_i h
      rw [h]
      rfl
    · rfl
  have hpieces : pieces '\n' chunks.flatten =
      raw ++ pieces '\n' (Prog.forEach push chunks .new).1.buf := by
    rw [show chunks.flatten = new.buf ++ chunks.flatten from rfl, pieces, hsplit, pieces,
      List.append_assoc]
  rw [forEach_push, hraw, hrest, content, content, hpieces, nonblank_append]

/-! ## What the buffer holds -/

/-- The bytes of the lines, with their ends, that end in the first `n` bytes of a text. -/
def endedWithin (n : Nat) (s : List Char) : Nat :=
  utf8Len ((split '\n' (splitAtBoundary n s).1).1.flatMap (· ++ ['\n']))

/-- What a push keeps, in bytes. -/
theorem retained (chunk : List Char) (b : SseLineBuffer) :
    endedWithin maxLineBuffer (b.buf ++ chunk) + utf8Len (push chunk b).1.buf =
      utf8Len b.buf + utf8Len chunk := by
  have := congrArg utf8Len (push_join chunk b)
  rwa [utf8Len_append, utf8Len_append] at this

/-- The buffer holds no more than the cap and the lines that end below the cap. -/
def Room (b : SseLineBuffer) : Prop := utf8Len b.buf ≤ maxLineBuffer + endedWithin maxLineBuffer b.buf

instance (b : SseLineBuffer) : Decidable b.Room := by unfold Room; infer_instance

/-- A push is bounded exactly if the buffer had room before it. -/
theorem push_bounded_iff (chunk : List Char) (b : SseLineBuffer) :
    utf8Len (push chunk b).1.buf ≤ maxLineBuffer + utf8Len chunk ↔ b.Room := by
  have hkept := retained chunk b
  unfold Room
  by_cases hcap : utf8Len b.buf ≤ maxLineBuffer
  · exact iff_of_true (by omega) (by omega)
  · -- past the cap the chunk is not looked at
    have hsame : endedWithin maxLineBuffer (b.buf ++ chunk) = endedWithin maxLineBuffer b.buf := by
      rw [endedWithin, splitAtBoundary_append_left (Nat.lt_of_not_le hcap), endedWithin]
    rw [hsame] at hkept
    omega

/-- **When the buffer is bounded.** In a run of pushes it is so after every push exactly if it has
room before every push. -/
theorem pushes_bounded_iff (chunks : List (List Char)) :
    (∀ pre chunk post, chunks = pre ++ chunk :: post →
        utf8Len (Prog.forEach push (pre ++ [chunk]) .new).1.buf ≤ maxLineBuffer + utf8Len chunk) ↔
      ∀ pre chunk post, chunks = pre ++ chunk :: post → (Prog.forEach push pre .new).1.Room := by
  have hlast : ∀ pre chunk, (Prog.forEach push (pre ++ [chunk]) .new).1 =
      (push chunk (Prog.forEach push pre .new).1).1 := by
    intro pre chunk
    rw [Prog.forEach_append]
    rfl
  constructor
  · intro h pre chunk post e
    have := h pre chunk post e
    rwa [hlast, push_bounded_iff] at this
  · intro h pre chunk post e
    rw [hlast, push_bounded_iff]
    exact h pre chunk post e

/-- A text without a line end stays in the buffer. -/
theorem push_of_notMem {chunk : List Char} {b : SseLineBuffer} (hb : '\n' ∉ b.buf)
    (hc : '\n' ∉ chunk) : (push chunk b).1.buf = b.buf ++ chunk := by
  have happ := splitAtBoundary_append maxLineBuffer (b.buf ++ chunk)
  have hhead : '\n' ∉ (splitAtBoundary maxLineBuffer (b.buf ++ chunk)).1 := by
    intro h
    have : '\n' ∈ b.buf ++ chunk := by
      rw [← happ]
      exact List.mem_append_left _ h
    exact (List.mem_append.mp this).elim hb hc
  rw [push_eq, split_of_notMem hhead, happ]

/-- However long it is, and however it is cut. -/
theorem forEach_push_of_notMem {chunks : List (List Char)} (h : ∀ chunk ∈ chunks, '\n' ∉ chunk)
    {b : SseLineBuffer} (hb : '\n' ∉ b.buf) :
    (Prog.forEach push chunks b).1.buf = b.buf ++ chunks.flatten := by
  induction chunks generalizing b with
  | nil => simp
  | cons chunk chunks ih =>
    have hc := h chunk (by simp)
    have hb' : '\n' ∉ (push chunk b).1.buf := by
      rw [push_of_notMem hb hc, List.mem_append]
      exact not_or.mpr ⟨hb, hc⟩
    rw [Prog.forEach_cons, Prog.andThen_apply, ih (fun c hmem => h c (by simp [hmem])) hb',
      push_of_notMem hb hc, List.flatten_cons, List.append_assoc]

/-- Two chunks of a MiB without a line end, and one more byte. -/
theorem pushes_unbounded :
    ¬∀ chunks pre chunk post, chunks = pre ++ chunk :: post →
      utf8Len (Prog.forEach push (pre ++ [chunk]) .new).1.buf ≤ maxLineBuffer + utf8Len chunk := by
  intro h
  obtain ⟨mib, hmib, hlen⟩ : ∃ mib, '\n' ∉ mib ∧ utf8Len mib = maxLineBuffer := by
    refine ⟨List.replicate maxLineBuffer 'x', fun hmem => ?_, ?_⟩
    · exact absurd (List.eq_of_mem_replicate hmem) (by decide)
    · rw [utf8Len_replicate, show 'x'.utf8Size = 1 from rfl, Nat.mul_one]
  have hbound := h [mib, mib, ['x']] [mib, mib] ['x'] [] rfl
  have hchunks : ∀ chunk ∈ [mib, mib] ++ [['x']], '\n' ∉ chunk := by
    intro chunk hmem
    simp only [List.cons_append, List.nil_append, List.mem_cons, List.not_mem_nil, or_false] at hmem
    rcases hmem with rfl | rfl | rfl
    · exact hmib
    · exact hmib
    · decide
  rw [forEach_push_of_notMem (b := new) hchunks List.not_mem_nil] at hbound
  have htotal : utf8Len (new.buf ++ ([mib, mib] ++ [['x']]).flatten) =
      maxLineBuffer + (maxLineBuffer + 1) := by
    simp only [new, List.nil_append, List.cons_append, List.flatten_cons, List.flatten_nil,
      List.append_nil, utf8Len_append, hlen]
    rfl
  rw [htotal] at hbound
  have hone : utf8Len ['x'] = 1 := rfl
  rw [hone] at hbound
  unfold maxLineBuffer at hbound
  omega

end SseLineBuffer

end ApertureRouter
