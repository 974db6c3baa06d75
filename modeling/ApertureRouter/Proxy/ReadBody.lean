import ApertureRouter.Proxy.Client
import ApertureRouter.Proxy.Utf8Stream

/-!
# Reading the body of a response

`read_body_capped` (`src/http_client.rs`) reads a body chunk by chunk, and stops at a transport error
or before the chunk with which it would hold more than `max_bytes`. The loop in `fetch_models`
(`src/discovery/models.rs`) is the same with its own texts of errors.

* `readBody`: the loop. `readBody_ok_iff`, `readBody_exceeds_iff`, `readBody_failed_iff`: how it ends,
  in terms of the bytes that arrive, whatever the cuts are.
* `UpstreamResponse.ofChunks`: the response that the routes have of the chunks of a body.
  `readBody_refines`: what they make of it by `ResponseBody.readCapped` is what the loop reads.
-/

namespace ApertureRouter

open Utf8

/-! ## The loop -/

/-- Why a body is not read to its end. -/
inductive ReadError where
  | failed (e : String)
  | exceeds (maxBytes : Nat)
  deriving DecidableEq, Repr

/-- The errors of `read_body_capped`. -/
def ReadError.text (context : String) : ReadError → String
  | failed e => context ++ ": failed reading body: " ++ e
  | exceeds maxBytes => context ++ ": response exceeds " ++ toString maxBytes ++ " bytes"

/-- A chunk, behind the bytes `body`. -/
def readChunkCapped (maxBytes : Nat) (body : List UInt8) :
    Except String (List UInt8) → Except ReadError (List UInt8)
  | .error e => .error (.failed e)
  | .ok chunk =>
    if maxBytes < body.length + chunk.length then .error (.exceeds maxBytes)
    else .ok (body ++ chunk)

/-- `read_body_capped`. -/
def readBody (maxBytes : Nat) (chunks : List (Except String (List UInt8))) :
    Except ReadError (List UInt8) :=
  chunks.foldlM (readChunkCapped maxBytes) []

/-! ## How it ends -/

section

variable {maxBytes : Nat} {body bytes : List UInt8} {chunks : List (Except String (List UInt8))}

theorem readChunkCapped_ok {chunk : List UInt8} (h : (body ++ chunk).length ≤ maxBytes) :
    readChunkCapped maxBytes body (.ok chunk) = .ok (body ++ chunk) := by
  rw [List.length_append] at h
  exact if_neg (Nat.not_lt.mpr h)

theorem readChunkCapped_over {chunk : List UInt8} (h : maxBytes < (body ++ chunk).length) :
    readChunkCapped maxBytes body (.ok chunk) = .error (.exceeds maxBytes) := by
  rw [List.length_append] at h
  exact if_pos h

/-- Chunks that fit are read. -/
theorem foldlM_readChunkCapped {cs : List (List UInt8)}
    (h : (body ++ cs.flatten).length ≤ maxBytes) :
    (cs.map .ok).foldlM (readChunkCapped maxBytes) body = .ok (body ++ cs.flatten) := by
  induction cs generalizing body with
  | nil => rw [List.flatten_nil, List.append_nil]; rfl
  | cons c cs ih =>
    rw [List.flatten_cons, ← List.append_assoc] at h ⊢
    have hc : (body ++ c).length ≤ maxBytes := by
      rw [List.length_append] at h
      omega
    rw [List.map_cons, List.foldlM_cons, readChunkCapped_ok hc]
    exact ih h

/-- Chunks that do not fit are not read. -/
theorem foldlM_readChunkCapped_over {cs : List (List UInt8)} (hbody : body.length ≤ maxBytes)
    (h : maxBytes < (body ++ cs.flatten).length) :
    (cs.map .ok).foldlM (readChunkCapped maxBytes) body = .error (.exceeds maxBytes) := by
  induction cs generalizing body with
  | nil =>
    rw [List.flatten_nil, List.append_nil] at h
    exact absurd hbody (Nat.not_le.mpr h)
  | cons c cs ih =>
    rw [List.flatten_cons, ← List.append_assoc] at h
    rw [List.map_cons, List.foldlM_cons]
    rcases Nat.lt_or_ge maxBytes (body ++ c).length with hover | hfit
    · rw [readChunkCapped_over hover]
      rfl
    · rw [readChunkCapped_ok hfit]
      exact ih hfit h

theorem readBody_fits {cs : List (List UInt8)} (h : cs.flatten.length ≤ maxBytes) :
    readBody maxBytes (cs.map .ok) = .ok cs.flatten :=
  foldlM_readChunkCapped (by rwa [List.nil_append])

theorem readBody_failed {cs : List (List UInt8)} (h : cs.flatten.length ≤ maxBytes) (e : String)
    (rest : List (Except String (List UInt8))) :
    readBody maxBytes (cs.map .ok ++ .error e :: rest) = .error (.failed e) := by
  rw [readBody, List.foldlM_append, foldlM_readChunkCapped (by rwa [List.nil_append])]
  rfl

theorem readBody_over {cs : List (List UInt8)} (h : maxBytes < cs.flatten.length)
    (rest : List (Except String (List UInt8))) :
    readBody maxBytes (cs.map .ok ++ rest) = .error (.exceeds maxBytes) := by
  rw [readBody, List.foldlM_append, foldlM_readChunkCapped_over (Nat.zero_le _) (by rwa [List.nil_append])]
  rfl

/-- A body fits, or it does up to a transport error, or it does not before any. -/
inductive Arrival (maxBytes : Nat) : List (Except String (List UInt8)) → Prop where
  | fits (cs : List (List UInt8)) (h : cs.flatten.length ≤ maxBytes) : Arrival maxBytes (cs.map .ok)
  | failed (cs : List (List UInt8)) (e : String) (rest : List (Except String (List UInt8)))
      (h : cs.flatten.length ≤ maxBytes) : Arrival maxBytes (cs.map .ok ++ .error e :: rest)
  | exceeds (cs : List (List UInt8)) (rest : List (Except String (List UInt8)))
      (h : maxBytes < cs.flatten.length) : Arrival maxBytes (cs.map .ok ++ rest)

theorem arrival (maxBytes : Nat) (chunks : List (Except String (List UInt8))) :
    Arrival maxBytes chunks := by
  induction chunks using List.reverseRecOn with
  | nil => exact .fits [] (Nat.zero_le _)
  | append_singleton chunks chunk ih =>
    cases ih with
    | failed cs e rest h =>
      rw [List.append_assoc]
      exact .failed cs e (rest ++ [chunk]) h
    | exceeds cs rest h =>
      rw [List.append_assoc]
      exact .exceeds cs (rest ++ [chunk]) h
    | fits cs h =>
      cases chunk with
      | error e => exact .failed cs e [] h
      | ok c =>
        have hmap : cs.map .ok ++ [.ok c] = ((cs ++ [c]).map .ok : List (Except String (List UInt8))) := by
          rw [List.map_append, List.map_singleton]
        rw [hmap]
        rcases Nat.lt_or_ge maxBytes (cs ++ [c]).flatten.length with hover | hfit
        · have hover' : Arrival maxBytes ((cs ++ [c]).map .ok ++ []) := .exceeds (cs ++ [c]) [] hover
          rwa [List.append_nil] at hover'
        · exact .fits (cs ++ [c]) hfit

/-- A body is read exactly if it comes whole and fits. Then it is the bytes of its chunks. -/
theorem readBody_ok_iff : readBody maxBytes chunks = .ok bytes ↔
    ∃ cs : List (List UInt8), chunks = cs.map .ok ∧ cs.flatten = bytes ∧ bytes.length ≤ maxBytes := by
  constructor
  · intro h
    cases arrival maxBytes chunks with
    | fits cs hfit =>
      rw [readBody_fits hfit] at h
      cases h
      exact ⟨cs, rfl, rfl, hfit⟩
    | failed cs e rest hfit =>
      rw [readBody_failed hfit] at h
      cases h
    | exceeds cs rest hover =>
      rw [readBody_over hover] at h
      cases h
  · rintro ⟨cs, rfl, rfl, hfit⟩
    exact readBody_fits hfit

/-- A body is too large exactly if the bytes before any transport error are. -/
theorem readBody_exceeds_iff : readBody maxBytes chunks = .error (.exceeds maxBytes) ↔
    ∃ (cs : List (List UInt8)) (rest : List (Except String (List UInt8))),
      chunks = cs.map .ok ++ rest ∧ maxBytes < cs.flatten.length := by
  constructor
  · intro h
    cases arrival maxBytes chunks with
    | fits cs hfit =>
      rw [readBody_fits hfit] at h
      cases h
    | failed cs e rest hfit =>
      rw [readBody_failed hfit] at h
      cases h
    | exceeds cs rest hover => exact ⟨cs, rest, rfl, hover⟩
  · rintro ⟨cs, rest, rfl, hover⟩
    exact readBody_over hover rest

/-- Reading a body fails exactly if a transport error comes before it is too large. -/
theorem readBody_failed_iff {e : String} : readBody maxBytes chunks = .error (.failed e) ↔
    ∃ (cs : List (List UInt8)) (rest : List (Except String (List UInt8))),
      chunks = cs.map .ok ++ .error e :: rest ∧ cs.flatten.length ≤ maxBytes := by
  constructor
  · intro h
    cases arrival maxBytes chunks with
    | fits cs hfit =>
      rw [readBody_fits hfit] at h
      cases h
    | failed cs e' rest hfit =>
      rw [readBody_failed hfit] at h
      cases h
      exact ⟨cs, rest, rfl, hfit⟩
    | exceeds cs rest hover =>
      rw [readBody_over hover] at h
      cases h
  · rintro ⟨cs, rest, rfl, hfit⟩
    exact readBody_failed hfit e rest

/-- **Reading a body.** The bytes that arrive before any transport error decide how the loop ends,
whatever the cuts are, and at no time does it hold more than the limit. -/
theorem readBody_exact (maxBytes : Nat) (chunks : List (Except String (List UInt8))) :
    (∀ bytes, readBody maxBytes chunks = .ok bytes ↔ ∃ cs : List (List UInt8),
        chunks = cs.map .ok ∧ cs.flatten = bytes ∧ bytes.length ≤ maxBytes) ∧
      (readBody maxBytes chunks = .error (.exceeds maxBytes) ↔
        ∃ (cs : List (List UInt8)) (rest : List (Except String (List UInt8))),
          chunks = cs.map .ok ++ rest ∧ maxBytes < cs.flatten.length) ∧
      (∀ e, readBody maxBytes chunks = .error (.failed e) ↔
        ∃ (cs : List (List UInt8)) (rest : List (Except String (List UInt8))),
          chunks = cs.map .ok ++ .error e :: rest ∧ cs.flatten.length ≤ maxBytes) ∧
      ∀ before after, chunks = before ++ after → ∀ held, readBody maxBytes before = .ok held →
        held.length ≤ maxBytes := by
  refine ⟨fun _ => readBody_ok_iff, readBody_exceeds_iff, fun _ => readBody_failed_iff, ?_⟩
  intro before after _ held hheld
  obtain ⟨cs, -, -, hle⟩ := readBody_ok_iff.mp hheld
  exact hle

end

/-! ## The response that the routes have -/

/-- A success is no error of the server. -/
theorem isServerError_of_isSuccess {status : Nat} (h : isSuccess status = true) :
    isServerError status = false := by
  simp only [isSuccess, isServerError, Bool.and_eq_true, decide_eq_true_eq, Bool.and_eq_false_iff,
    decide_eq_false_iff_not] at h ⊢
  omega

/-- The bytes that arrive. -/
def arrivedBytes (chunks : List (Except String (List UInt8))) : List UInt8 :=
  chunks.flatMap fun chunk => chunk.toOption.getD []

/-- The body that the chunks make. -/
def ResponseBody.ofChunks (chunks : List (Except String (List UInt8))) : ResponseBody where
  size := (arrivedBytes chunks).length
  text := String.ofList (lossy (arrivedBytes chunks))
  complete := chunks.all fun chunk => chunk.toOption.isSome

/-- The response of an upstream to a client that streams at most `maxSize` bytes. -/
def UpstreamResponse.ofChunks (maxSize status : Nat) (chunks : List (Except String (List UInt8))) :
    UpstreamResponse where
  status := status
  body := .ofChunks chunks
  chunks := makeUtf8Stream maxSize chunks

theorem arrivedBytes_ok (cs : List (List UInt8)) : arrivedBytes (cs.map .ok) = cs.flatten := by
  rw [arrivedBytes, List.flatMap_map]
  exact List.flatMap_id

theorem ofChunks_ok (cs : List (List UInt8)) : ResponseBody.ofChunks (cs.map .ok) =
    ⟨cs.flatten.length, String.ofList (lossy cs.flatten), true⟩ := by
  rw [ResponseBody.ofChunks, arrivedBytes_ok]
  congr 1
  simp [Except.toOption]

/-- Bytes that arrive are those of any chunks among them. -/
theorem length_le_arrivedBytes (cs : List (List UInt8)) (rest : List (Except String (List UInt8))) :
    cs.flatten.length ≤ (arrivedBytes (cs.map .ok ++ rest)).length := by
  rw [arrivedBytes, List.flatMap_append, List.length_append]
  exact (congrArg List.length (arrivedBytes_ok cs)).ge.trans (Nat.le_add_right _ _)

/-- **The two readings.** What a route makes of the body as a whole is what the loop reads of its
chunks. -/
theorem readBody_refines (maxBytes : Nat) (chunks : List (Except String (List UInt8))) :
    (ResponseBody.ofChunks chunks).readCapped maxBytes =
      (readBody maxBytes chunks).toOption.map fun bytes => String.ofList (lossy bytes) := by
  cases arrival maxBytes chunks with
  | fits cs hfit =>
    rw [ofChunks_ok, readBody_fits hfit]
    exact if_pos ⟨rfl, hfit⟩
  | failed cs e rest hfit =>
    rw [readBody_failed hfit]
    refine if_neg fun h => ?_
    simp [ResponseBody.ofChunks, Except.toOption] at h
  | exceeds cs rest hover =>
    rw [readBody_over hover]
    exact if_neg fun h => absurd (h.2.trans' (length_le_arrivedBytes cs rest)) (Nat.not_le.mpr hover)

end ApertureRouter
