import ApertureRouter.Proxy.Utf8Stream

/-!
# Bytes that are in no character

A body is a text, bytes that are in no UTF-8, and a text again. The decoder holds the bad bytes
until the buffer is longer than five bytes at a chunk, and then decodes all of it lossily. What of
the second text is in the buffer goes with them: a character that the chunk cuts there is replaced,
and so are its bytes that come later. If the buffer never grows that long, it is dropped.

So the second text is kept if this decoding ends between two of its characters (`RecoversAt`, from
the sizes of the chunks). `bad_bytes_replaced`: then the bad bytes are replaced and nothing else is,
and only then, for a text that holds no `U+FFFD` itself.
-/

namespace ApertureRouter

open Utf8

/-- The text before the limit, from what is left over and the chunks. -/
def decodeAll : List UInt8 → List (List UInt8) → List Char
  | _, [] => []
  | leftover, chunk :: chunks =>
    (reassemble (leftover ++ chunk)).1 ++ decodeAll (reassemble (leftover ++ chunk)).2 chunks

/-- `str::is_char_boundary`. -/
def IsBoundary (text : List Char) (n : Nat) : Prop := ∃ t, t <+: text ∧ Text.utf8Len t = n

/-- The bad bytes are decoded, and the buffer ends there between two characters of the text behind
them. The buffer holds `held` bytes, from the first bad one on, and `bad` bytes are bad, in it and
to come. -/
def FlushesWhole (text : List Char) : Nat → Nat → List Nat → Prop
  | _, _, [] => False
  | held, bad, n :: sizes =>
    if held + n ≤ 5 then FlushesWhole text (held + n) bad sizes
    else if held + n < bad then text = [] ∨ FlushesWhole text 0 (bad - (held + n)) sizes
    else IsBoundary text (held + n - bad)

/-- The same, while `left` bytes before the bad ones are to come. The chunk that ends a character
before them leaves the bad bytes in the buffer, however many. -/
def RecoversAt (text : List Char) (bad : Nat) : Nat → List Nat → Prop
  | 0, sizes => FlushesWhole text 0 bad sizes
  | _ + 1, [] => False
  | left + 1, n :: sizes =>
    if n ≤ left + 1 then RecoversAt text bad (left + 1 - n) sizes
    else FlushesWhole text (n - (left + 1)) bad sizes

/-- The characters that are no `U+FFFD`. -/
def genuine (s : List Char) : Nat := s.countP (· ≠ replacement)

theorem genuine_append (s t : List Char) : genuine (s ++ t) = genuine s + genuine t :=
  List.countP_append

theorem genuine_le_length (s : List Char) : genuine s ≤ s.length := List.countP_le_length

theorem genuine_replacement : genuine [replacement] = 0 := rfl

theorem genuine_replicate (n : Nat) : genuine (List.replicate n replacement) = 0 := by
  rw [genuine, List.countP_eq_zero]
  intro c hc
  rw [List.eq_of_mem_replicate hc]
  decide

theorem genuine_eq_length {s : List Char} (h : replacement ∉ s) : genuine s = s.length := by
  rw [genuine, List.countP_eq_length]
  intro c hc
  exact decide_eq_true fun hr => h (hr ▸ hc)

/-! ## Runs within the limit -/

theorem delivered_eq_decodeAll {maxSize : Nat} {chunks : List (List UInt8)} {state : Utf8State}
    (hmax : state.totalBytes + chunks.flatten.length ≤ maxSize) :
    delivered (utf8Items maxSize state (chunks.map .ok)) = decodeAll state.leftover chunks := by
  induction chunks generalizing state with
  | nil => rfl
  | cons chunk chunks ih =>
    rw [List.flatten_cons, List.length_append] at hmax
    rw [List.map_cons, utf8Items, utf8Step_ok (by omega), delivered_ok, decodeAll]
    rw [ih (by dsimp only; omega)]

theorem Clean.decodeAll_eq {chunks : List (List UInt8)} {leftover : List UInt8} {s : List Char}
    (h : Clean leftover chunks.flatten s) : decodeAll leftover chunks = s := by
  induction chunks generalizing leftover s with
  | nil => exact h.finish.2.symm
  | cons chunk chunks ih =>
    rw [List.flatten_cons] at h
    obtain ⟨t, s', leftover', rfl, -, hre, hclean⟩ := h.step
    rw [decodeAll, hre, ih hclean]

/-! ## Behind the bad bytes -/

/-- What is left over and to come begins with bytes that begin no character. -/
structure Dirty (leftover rest junk : List UInt8) (s : List Char) : Prop where
  bytes : leftover ++ rest = junk ++ encode s
  leads : ∀ b ∈ junk, lead b = none
  ne_nil : junk ≠ []

section

variable {leftover chunk rest junk : List UInt8} {s : List Char}

/-- The buffer waits for more than five bytes. -/
theorem Dirty.reassemble_eq (h : Dirty leftover (chunk ++ rest) junk s) :
    reassemble (leftover ++ chunk) =
      if 5 < (leftover ++ chunk).length then (lossy (leftover ++ chunk), [])
      else ([], leftover ++ chunk) := by
  have hbytes := h.bytes
  rw [← List.append_assoc] at hbytes
  generalize leftover ++ chunk = buf at hbytes
  cases buf with
  | nil => rfl
  | cons b buf =>
    obtain ⟨x, junk', rfl⟩ := List.exists_cons_of_ne_nil h.ne_nil
    obtain ⟨rfl, -⟩ := List.cons.inj hbytes
    have hlead := h.leads b List.mem_cons_self
    exact reassemble_of_error (head_of_lead_eq_none hlead buf)

/-- A chunk that the buffer takes in. -/
theorem Dirty.hold (h : Dirty leftover (chunk ++ rest) junk s) :
    Dirty (leftover ++ chunk) rest junk s where
  bytes := by rw [List.append_assoc, h.bytes]
  leads := h.leads
  ne_nil := h.ne_nil

/-- A buffer of bad bytes only. -/
theorem Dirty.flush_lt (h : Dirty leftover (chunk ++ rest) junk s)
    (hlen : (leftover ++ chunk).length < junk.length) :
    ∃ junk', junk.length = (leftover ++ chunk).length + junk'.length ∧ Dirty [] rest junk' s ∧
      lossy (leftover ++ chunk) = List.replicate (leftover ++ chunk).length replacement := by
  have hbytes := h.bytes
  rw [← List.append_assoc] at hbytes
  generalize leftover ++ chunk = buf at hbytes hlen
  obtain ⟨junk', rfl⟩ := List.prefix_of_prefix_length_le
    ⟨rest, rfl⟩ ⟨encode s, hbytes.symm⟩ (Nat.le_of_lt hlen)
  rw [List.append_assoc] at hbytes
  rw [List.length_append] at hlen
  refine ⟨junk', List.length_append, ?_, ?_⟩
  · refine ⟨List.append_cancel_left hbytes, ?_, List.length_pos_iff.mp (by omega)⟩
    exact fun b hb => h.leads b (List.mem_append_right _ hb)
  · have hlossy := lossy_of_lead_eq_none
      (fun b hb => h.leads b (List.mem_append_left junk' hb)) []
    simpa [lossy, lossyFrom] using hlossy

/-- A buffer that holds all bad bytes, and ends between two characters behind them or in one. What
is to come of a character that is cut begins no character. -/
theorem Dirty.flush_ge (h : Dirty leftover (chunk ++ rest) junk s)
    (hlen : junk.length ≤ (leftover ++ chunk).length) :
    (∃ t s', s = t ++ s' ∧ Clean [] rest s' ∧
      (leftover ++ chunk).length = junk.length + Text.utf8Len t ∧
      lossy (leftover ++ chunk) = List.replicate junk.length replacement ++ t) ∨
    (∃ t c s' junk', s = t ++ c :: s' ∧ Dirty [] rest junk' s' ∧
      (junk.length + Text.utf8Len t < (leftover ++ chunk).length ∧
        (leftover ++ chunk).length < junk.length + (Text.utf8Len t + c.utf8Size)) ∧
      lossy (leftover ++ chunk) =
        List.replicate junk.length replacement ++ (t ++ [replacement])) := by
  have hbytes := h.bytes
  rw [← List.append_assoc] at hbytes
  generalize leftover ++ chunk = buf at hbytes hlen
  obtain ⟨buf', rfl⟩ := List.prefix_of_prefix_length_le ⟨encode s, rfl⟩ ⟨rest, hbytes⟩ hlen
  rw [List.append_assoc] at hbytes
  obtain ⟨t, s', part, rfl, rfl, hrest, hpart⟩ := exists_cut (List.append_cancel_left hbytes)
  have hlossy := hpart.lossy_eq
  rw [lossy_of_lead_eq_none h.leads, lossy_encode, hlossy]
  simp only [List.length_append, length_encode]
  rcases hpart with rfl | ⟨c, s', more, rfl, hne, hmore, hc⟩
  · exact .inl ⟨t, s', rfl, ⟨hrest, .inl rfl⟩, rfl, by rw [if_pos rfl, List.append_nil]⟩
  · rw [encode_cons, hc, List.append_assoc] at hrest
    have hwidth := congrArg List.length hc
    have hpos := List.length_pos_iff.mpr hne
    have hpos' := List.length_pos_iff.mpr hmore
    rw [String.length_utf8EncodeChar, List.length_append] at hwidth
    refine .inr ⟨t, c, s', more, rfl, ⟨List.append_cancel_left hrest, ?_, hmore⟩, by omega, ?_⟩
    · exact lead_of_encodeChar_eq hc hne
    · rw [if_neg hne]

end

theorem utf8Len_append (s t : List Char) :
    Text.utf8Len (s ++ t) = Text.utf8Len s + Text.utf8Len t := by
  simp only [← length_encode, encode_append, List.length_append]

/-- There is no boundary in a character. -/
theorem not_isBoundary {t s : List Char} {c : Char} {n : Nat} (hn : Text.utf8Len t < n)
    (hn' : n < Text.utf8Len t + c.utf8Size) : ¬ IsBoundary (t ++ c :: s) n := by
  rintro ⟨t', ht', rfl⟩
  have ht := List.prefix_append t (c :: s)
  rcases List.prefix_or_prefix_of_prefix ht' ht with ⟨u, rfl⟩ | ⟨u, rfl⟩
  · rw [utf8Len_append] at hn
    omega
  · rw [utf8Len_append] at hn hn'
    cases u with
    | nil =>
      rw [Text.utf8Len] at hn
      omega
    | cons d u =>
      rw [List.prefix_append_right_inj, List.cons_prefix_cons] at ht'
      obtain ⟨rfl, -⟩ := ht'
      rw [Text.utf8Len] at hn'
      omega

/-- What a chunk does to bad bytes and the text behind them, from the buffer with the chunk. -/
inductive Decoded (buf junk : List UInt8) (s : List Char) (chunks : List (List UInt8))
    (out : List Char) : Prop
  | hold (hshort : buf.length ≤ 5) (hdirty : Dirty buf chunks.flatten junk s)
    (hout : out = decodeAll buf chunks)
  | bad (junk' : List UInt8) (hlong : 5 < buf.length)
    (hjunk : junk.length = buf.length + junk'.length) (hdirty : Dirty [] chunks.flatten junk' s)
    (hout : out = List.replicate buf.length replacement ++ decodeAll [] chunks)
  | whole (t s' : List Char) (hlong : 5 < buf.length) (hs : s = t ++ s')
    (hsize : buf.length = junk.length + Text.utf8Len t)
    (hout : out = List.replicate junk.length replacement ++ s)
  | cut (t s' : List Char) (c : Char) (junk' : List UInt8) (hlong : 5 < buf.length)
    (hs : s = t ++ c :: s') (hdirty : Dirty [] chunks.flatten junk' s')
    (hlow : junk.length + Text.utf8Len t < buf.length)
    (hhigh : buf.length < junk.length + (Text.utf8Len t + c.utf8Size))
    (hout : out = List.replicate junk.length replacement ++ (t ++ [replacement]) ++
      decodeAll [] chunks)

theorem Dirty.decoded {leftover chunk junk : List UInt8} {s : List Char}
    {chunks : List (List UInt8)} (h : Dirty leftover (chunk :: chunks).flatten junk s) :
    Decoded (leftover ++ chunk) junk s chunks (decodeAll leftover (chunk :: chunks)) := by
  rw [List.flatten_cons] at h
  rw [decodeAll, h.reassemble_eq]
  by_cases hlong : 5 < (leftover ++ chunk).length
  · rw [if_pos hlong]
    by_cases hlen : (leftover ++ chunk).length < junk.length
    · obtain ⟨junk', hjunk, hdirty, hlossy⟩ := h.flush_lt hlen
      exact .bad junk' hlong hjunk hdirty (by rw [hlossy])
    · rcases h.flush_ge (by omega) with
        ⟨t, s', rfl, hclean, hsize, hlossy⟩ | ⟨t, c, s', junk', rfl, hdirty, hcut, hlossy⟩
      · refine .whole t s' hlong rfl hsize ?_
        rw [hlossy, hclean.decodeAll_eq, List.append_assoc]
      · exact .cut t s' c junk' hlong rfl hdirty hcut.1 hcut.2 (by rw [hlossy])
  · rw [if_neg hlong]
    exact .hold (by omega) h.hold rfl

section

variable {leftover junk : List UInt8} {s : List Char} {chunks : List (List UInt8)}

/-- With no text behind them, bad bytes come out as `U+FFFD` or not at all. -/
theorem Dirty.decodeAll_nil (h : Dirty leftover chunks.flatten junk []) :
    ∃ k, decodeAll leftover chunks = List.replicate k replacement := by
  induction chunks generalizing leftover junk with
  | nil => exact ⟨0, rfl⟩
  | cons chunk chunks ih =>
    cases h.decoded with
    | hold _ hdirty hout =>
      rw [hout]
      exact ih hdirty
    | bad junk' _ _ hdirty hout =>
      obtain ⟨k, hk⟩ := ih hdirty
      exact ⟨_, by rw [hout, hk, List.replicate_append_replicate]⟩
    | whole t s' _ hs _ hout => exact ⟨junk.length, by rw [hout, List.append_nil]⟩
    | cut t s' c _ _ hs =>
      exact absurd hs.symm (List.append_ne_nil_of_right_ne_nil t (List.cons_ne_nil c s'))

/-- No more characters come out than the text has. -/
theorem Dirty.genuine_le (h : Dirty leftover chunks.flatten junk s) :
    genuine (decodeAll leftover chunks) ≤ s.length := by
  induction chunks generalizing leftover junk s with
  | nil => exact Nat.zero_le _
  | cons chunk chunks ih =>
    cases h.decoded with
    | hold _ hdirty hout =>
      rw [hout]
      exact ih hdirty
    | bad junk' _ _ hdirty hout =>
      rw [hout, genuine_append, genuine_replicate, Nat.zero_add]
      exact ih hdirty
    | whole t s' _ _ _ hout =>
      rw [hout, genuine_append, genuine_replicate, Nat.zero_add]
      exact genuine_le_length s
    | cut t s' c _ _ hs hdirty _ _ hout =>
      have ht := genuine_le_length t
      have hs' := ih hdirty
      rw [hout, hs, genuine_append, genuine_append, genuine_append, genuine_replicate,
        genuine_replacement, List.length_append, List.length_cons]
      omega

/-- The text behind the bad bytes is kept. -/
theorem Dirty.kept (h : Dirty leftover chunks.flatten junk s)
    (hflush : FlushesWhole s leftover.length junk.length (chunks.map List.length)) :
    ∃ m, decodeAll leftover chunks = List.replicate (m + 1) replacement ++ s := by
  induction chunks generalizing leftover junk with
  | nil => exact hflush.elim
  | cons chunk chunks ih =>
    rw [List.map_cons, FlushesWhole, ← List.length_append] at hflush
    cases h.decoded with
    | hold hshort hdirty hout =>
      rw [if_pos hshort] at hflush
      rw [hout]
      exact ih hdirty hflush
    | bad junk' hlong hjunk hdirty hout =>
      have hpos := List.length_pos_iff.mpr hdirty.ne_nil
      obtain ⟨m, hm⟩ := Nat.exists_eq_add_of_lt hlong
      rw [if_neg (by omega), if_pos (by omega)] at hflush
      rw [hout, hm]
      rcases hflush with rfl | hflush
      · obtain ⟨k, hk⟩ := hdirty.decodeAll_nil
        refine ⟨5 + m + k, ?_⟩
        rw [hk, List.replicate_append_replicate, List.append_nil]
        congr 1
        omega
      · rw [show junk.length - (leftover ++ chunk).length = junk'.length by omega] at hflush
        obtain ⟨k, hk⟩ := ih hdirty hflush
        refine ⟨5 + m + 1 + k, ?_⟩
        rw [hk, ← List.append_assoc, List.replicate_append_replicate]
        rfl
    | whole t s' _ _ _ hout =>
      obtain ⟨m, hm⟩ := Nat.exists_eq_add_of_lt (List.length_pos_iff.mpr h.ne_nil)
      exact ⟨m, by rw [hout, hm, Nat.zero_add]⟩
    | cut t s' c _ hlong hs _ hlow hhigh =>
      rw [if_neg (by omega), if_neg (by omega), hs] at hflush
      exact absurd hflush (not_isBoundary (by omega) (by omega))

/-- Otherwise a character is lost, or nothing comes out. -/
theorem Dirty.lost (h : Dirty leftover chunks.flatten junk s)
    (hflush : ¬ FlushesWhole s leftover.length junk.length (chunks.map List.length)) :
    genuine (decodeAll leftover chunks) < s.length ∨ decodeAll leftover chunks = [] := by
  induction chunks generalizing leftover junk with
  | nil => exact .inr rfl
  | cons chunk chunks ih =>
    rw [List.map_cons, FlushesWhole, ← List.length_append] at hflush
    cases h.decoded with
    | hold hshort hdirty hout =>
      rw [if_pos hshort] at hflush
      rw [hout]
      exact ih hdirty hflush
    | bad junk' hlong hjunk hdirty hout =>
      have hpos := List.length_pos_iff.mpr hdirty.ne_nil
      rw [if_neg (by omega), if_pos (by omega), not_or,
        show junk.length - (leftover ++ chunk).length = junk'.length by omega] at hflush
      left
      rw [hout, genuine_append, genuine_replicate, Nat.zero_add]
      rcases ih hdirty hflush.2 with hlt | hnil
      · exact hlt
      · rw [hnil]
        exact List.length_pos_iff.mpr hflush.1
    | whole t s' hlong hs hsize =>
      rw [if_neg (by omega), if_neg (by omega), hs] at hflush
      exact absurd ⟨t, List.prefix_append t s', by omega⟩ hflush
    | cut t s' c _ _ hs hdirty _ _ hout =>
      left
      have ht := genuine_le_length t
      have hs' := hdirty.genuine_le
      rw [hout, hs, genuine_append, genuine_append, genuine_append, genuine_replicate,
        genuine_replacement, List.length_append, List.length_cons]
      omega

end

/-! ## The body -/

section

variable {leftover bad : List UInt8} {p s : List Char} {chunks : List (List UInt8)}

/-- What comes out behind the first text, if the condition holds and if not. -/
def Splits (s out : List Char) (recovers : Prop) : Prop :=
  (recovers → ∃ m, out = List.replicate (m + 1) replacement ++ s) ∧
    (¬ recovers → genuine out < s.length ∨ out = [])

theorem Dirty.splits (h : Dirty leftover chunks.flatten bad s) :
    Splits s (decodeAll leftover chunks)
      (FlushesWhole s leftover.length bad.length (chunks.map List.length)) :=
  ⟨h.kept, h.lost⟩

/-- The chunk that ends the first text. -/
theorem reassemble_last {chunk rest : List UInt8} (hp : p ≠ [])
    (hbytes : leftover ++ (chunk ++ rest) = encode p ++ (bad ++ encode s))
    (hlen : (encode p).length < (leftover ++ chunk).length) (hbad : ∀ b ∈ bad, lead b = none)
    (hne : bad ≠ []) :
    ∃ held, reassemble (leftover ++ chunk) = (p, held) ∧ Dirty held rest bad s ∧
      (leftover ++ chunk).length = (encode p).length + held.length := by
  rw [← List.append_assoc] at hbytes
  generalize leftover ++ chunk = buf at hbytes hlen
  obtain ⟨held, rfl⟩ := List.prefix_of_prefix_length_le
    ⟨bad ++ encode s, rfl⟩ ⟨rest, hbytes⟩ (Nat.le_of_lt hlen)
  rw [List.append_assoc] at hbytes
  have hdirty : Dirty held rest bad s := ⟨List.append_cancel_left hbytes, hbad, hne⟩
  rw [List.length_append] at hlen
  obtain ⟨b, held, rfl⟩ := List.exists_cons_of_length_pos (show 0 < held.length by omega)
  obtain ⟨x, bad, rfl⟩ := List.exists_cons_of_ne_nil hne
  obtain ⟨rfl, -⟩ := List.cons.inj hdirty.bytes
  have hhead := head_of_lead_eq_none (hbad b List.mem_cons_self) held
  exact ⟨b :: held, reassemble_append hp hhead, hdirty, List.length_append⟩

/-- The first text comes out, and the bad bytes and the second one come out behind it or not. -/
theorem exists_decodeAll (hbytes : leftover ++ chunks.flatten = encode p ++ (bad ++ encode s))
    (hbegins : Begins leftover p) (hbad : ∀ b ∈ bad, lead b = none) (hne : bad ≠ []) :
    ∃ out, decodeAll leftover chunks = p ++ out ∧
      Splits s out (RecoversAt s bad.length ((encode p).length - leftover.length)
        (chunks.map List.length)) := by
  induction chunks generalizing leftover p with
  | nil =>
    have hlen := congrArg List.length hbytes
    have hpos := List.length_pos_iff.mpr hne
    have hle : leftover.length ≤ (encode p).length := by
      by_cases hp : p = []
      · subst hp
        rw [hbegins.eq_nil]
        exact Nat.zero_le _
      · exact Nat.le_of_lt (hbegins.length_lt hp)
    rw [List.flatten_nil, List.append_nil, List.length_append, List.length_append] at hlen
    omega
  | cons chunk chunks ih =>
    by_cases hp : p = []
    · subst hp
      obtain rfl := hbegins.eq_nil
      have hdirty : Dirty [] (chunk :: chunks).flatten bad s := ⟨hbytes, hbad, hne⟩
      exact ⟨_, rfl, hdirty.splits⟩
    have hlt := hbegins.length_lt hp
    obtain ⟨left, hleft⟩ := Nat.exists_eq_add_of_lt hlt
    rw [List.flatten_cons] at hbytes
    rw [show (encode p).length - leftover.length = left + 1 by omega, List.map_cons, RecoversAt,
      decodeAll]
    by_cases hlast : chunk.length ≤ left + 1
    · rw [if_pos hlast]
      obtain ⟨rest, hrest⟩ : leftover ++ chunk <+: encode p := by
        refine List.prefix_of_prefix_length_le ⟨chunks.flatten, ?_⟩
          (List.prefix_append (encode p) (bad ++ encode s)) ?_
        · rw [List.append_assoc, hbytes]
        · rw [List.length_append]
          omega
      have hclean : Clean leftover (chunk ++ rest) p := by
        refine ⟨?_, hbegins⟩
        rw [← List.append_assoc, hrest]
      obtain ⟨t, p', leftover', rfl, hcut, hre, hclean'⟩ := hclean.step
      rw [hre]
      rw [← List.append_assoc, ← hrest, List.append_assoc (leftover ++ chunk)] at hbytes
      have hflat := List.append_cancel_left hbytes
      have hnext : leftover' ++ chunks.flatten = encode p' ++ (bad ++ encode s) := by
        rw [hflat, ← List.append_assoc, hclean'.bytes]
      obtain ⟨out, hout, hsplits⟩ := ih hnext hclean'.begins
      refine ⟨out, by rw [hout, List.append_assoc], ?_⟩
      have hsize := congrArg List.length hcut
      rw [List.length_append, List.length_append] at hsize
      rw [encode_append, List.length_append] at hleft
      rwa [show left + 1 - chunk.length = (encode p').length - leftover'.length by omega]
    · rw [if_neg hlast]
      obtain ⟨held, hre, hdirty, hsize⟩ :=
        reassemble_last hp hbytes (by rw [List.length_append]; omega) hbad hne
      rw [hre]
      rw [List.length_append] at hsize
      refine ⟨decodeAll held chunks, rfl, ?_⟩
      rw [show chunk.length - (left + 1) = held.length by omega]
      exact hdirty.splits

end

/-- Bytes from `0xF8` on between two texts: if the decoding of the buffer ends between two
characters, they are replaced and both texts are kept. Otherwise the second text is not kept, unless
it holds `U+FFFD` itself. -/
theorem bad_bytes_replaced (p s : List Char) (bad : List UInt8) (maxSize : Nat)
    (chunks : List (List UInt8)) (hbad : ∀ b ∈ bad, 0xF8 ≤ b) (hne : bad ≠ [])
    (hbody : chunks.flatten = encode p ++ bad ++ encode s)
    (hmax : chunks.flatten.length ≤ maxSize) :
    (RecoversAt s bad.length (encode p).length (chunks.map List.length) →
      ∃ m, delivered (makeUtf8Stream maxSize (chunks.map .ok)) =
        p ++ List.replicate (m + 1) replacement ++ s) ∧
    (replacement ∉ s →
      (∃ m, delivered (makeUtf8Stream maxSize (chunks.map .ok)) =
        p ++ List.replicate (m + 1) replacement ++ s) →
      RecoversAt s bad.length (encode p).length (chunks.map List.length)) := by
  have hlead : ∀ b ∈ bad, lead b = none := by
    intro b hb
    have hb := UInt8.le_iff_toNat_le.mp (hbad b hb)
    exact lead_eq_none (.inr (le_trans (by decide) hb))
  have hsize : ({} : Utf8State).totalBytes + chunks.flatten.length ≤ maxSize := by
    rw [show ({} : Utf8State).totalBytes = 0 from rfl]
    omega
  have hbytes : [] ++ chunks.flatten = encode p ++ (bad ++ encode s) := by
    rw [List.nil_append, hbody, List.append_assoc]
  obtain ⟨out, hout, hkept, hlost⟩ := exists_decodeAll hbytes (.inl rfl) hlead hne
  rw [makeUtf8Stream, delivered_eq_decodeAll hsize, hout]
  constructor
  · intro h
    obtain ⟨m, rfl⟩ := hkept h
    exact ⟨m, (List.append_assoc ..).symm⟩
  · rintro hs ⟨m, hm⟩
    by_contra hnot
    rw [List.append_assoc] at hm
    obtain rfl := List.append_cancel_left hm
    rcases hlost hnot with hlt | hnil
    · rw [genuine_append, genuine_replicate, genuine_eq_length hs] at hlt
      omega
    · exact absurd (List.append_eq_nil_iff.mp hnil).1 (by simp)

/-- A bad byte behind `a`, and five characters in the next chunk. -/
def flushedWhole : List (List UInt8) := [[0x61, 0xFF], [0x62, 0x63, 0x64, 0x65, 0x66]]

theorem bad_bytes_replaced_flushedWhole :
    ∃ m, delivered (makeUtf8Stream 7 (flushedWhole.map .ok)) =
      ['a'] ++ List.replicate (m + 1) replacement ++ ['b', 'c', 'd', 'e', 'f'] :=
  (bad_bytes_replaced ['a'] ['b', 'c', 'd', 'e', 'f'] [0xFF] 7 flushedWhole (by decide +kernel)
    (by decide) (by decide) (by decide)).1 ⟨_, List.prefix_rfl, rfl⟩

/-- A bad byte in the middle of the only chunk. -/
def badInside : List (List UInt8) := [[0x61, 0xFF, 0x62]]

theorem badInside_lost :
    badInside.flatten = encode ['a'] ++ [0xFF] ++ encode ['b'] ∧
      ¬ ∃ m, delivered (makeUtf8Stream 3 (badInside.map .ok)) =
        ['a'] ++ List.replicate (m + 1) replacement ++ ['b'] := by
  have hout : delivered (makeUtf8Stream 3 (badInside.map .ok)) = ['a'] := by decide
  refine ⟨by decide, ?_⟩
  rintro ⟨m, hm⟩
  have hlen := congrArg List.length (hout.symm.trans hm)
  simp at hlen

end ApertureRouter
