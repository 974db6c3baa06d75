import ApertureRouter.Stream.Boundaries
import ApertureRouter.Stream.ToolCalls

/-!
# Tool calls reach their blocks

How an upstream says which call a fragment belongs to (`Encoding`): by index, by id, or only by
order. In each of them the slot map leads every fragment to the block of its call, whatever the
interleaving.

* `Encoding.Placed`: the converter after some of the fragments. Without index, slots are numbered
  in the order in which the calls first appear.
* `Encoding.Placed.toolCall`: the next fragment.
* `toolCalls_collected`: the events of a stream have one `tool_use` block for each call, in the
  order in which the calls first appear, with the call's id, name and arguments.
-/

namespace ApertureRouter

open Emit
open Keyed (keys keys_concat_of_mem keys_concat_of_notMem)

/-- How fragments say which call they belong to. -/
inductive Encoding (κ : Type) where
  /-- Every fragment has the index of its call. -/
  | indexed (index : κ → Nat)
  /-- Every fragment has the id of its call, and none has an index. -/
  | identified
  /-- Only the first fragment of a call has its id, none has an index, and the calls come one after
  the other. -/
  | sequential

namespace Encoding

variable {κ : Type} [DecidableEq κ] (calls : κ → ToolCall) (enc : Encoding κ)

/-- No two calls have the same index. -/
def Distinct : Prop :=
  match enc with
  | indexed index => Function.Injective index
  | identified | sequential => True

/-- `tc` can be a fragment of call `k` behind the fragments `pre`. -/
def Allows (pre : List (κ × Value)) (k : κ) (tc : Value) : Prop :=
  match enc with
  | indexed index => toolCallIndex tc = some (index k) ∧
      if k ∈ keys pre then toolCallId tc = none ∨ toolCallId tc = some (calls k).id
      else Starts calls k tc
  | identified => toolCallIndex tc = none ∧
      if k ∈ keys pre then toolCallId tc = some (calls k).id else Starts calls k tc
  | sequential => toolCallIndex tc = none ∧
      if k ∈ keys pre then toolCallId tc = none ∧ pre.getLast?.map Prod.fst = some k
      else Starts calls k tc

/-- The fragments `fs` of the calls, in this encoding. -/
def Encodes (fs : List (κ × Value)) : Prop :=
  ∀ pre k tc post, fs = pre ++ (k, tc) :: post → enc.Allows calls pre k tc

instance (pre : List (κ × Value)) (k : κ) (tc : Value) :
    Decidable (enc.Allows calls pre k tc) := by
  unfold Allows Starts
  cases enc <;> infer_instance

instance (fs : List (κ × Value)) : Decidable (enc.Encodes calls fs) :=
  decidable_of_iff
    (∀ i : Fin fs.length, enc.Allows calls (fs.take i) (fs.get i).1 (fs.get i).2) <| by
    constructor
    · rintro h pre k tc post rfl
      simpa using h ⟨pre.length, by simp⟩
    · intro h i
      refine h _ _ _ (fs.drop (i + 1)) ?_
      rw [List.get_eq_getElem, List.getElem_cons_drop, List.take_append_drop]

/-- The slot of call `k` after the fragments `pre`: without index, slots are numbered. -/
def slot (pre : List (κ × Value)) (k : κ) : Nat :=
  match enc with
  | indexed index => index k
  | identified | sequential => (keys pre).idxOf k

/-- `next_tool_slot` after the fragments `pre`. -/
def nextSlot (pre : List (κ × Value)) : Nat :=
  match enc with
  | indexed _ => 0
  | identified | sequential => (keys pre).length

/-- The converter after the fragments `pre`. -/
structure Placed (pre : List (κ × Value)) (c : StreamState) (v : List (ContentBlock × String)) :
    Prop where
  collects : Collects calls (enc.slot pre) pre c v
  next : c.nextToolSlot = enc.nextSlot pre
  last : c.lastToolSlot = pre.getLast?.map fun e => enc.slot pre e.1

variable {calls enc} {order : IterOrder Nat ToolBlockState} {pre : List (κ × Value)} {k : κ}
  {tc : Value} {lost : List Nat} {c : StreamState} {m : Client}

theorem Allows.continues (h : enc.Allows calls pre k tc) (hk : k ∈ keys pre) :
    toolCallId tc = none ∨ toolCallId tc = some (calls k).id := by
  cases enc with
  | indexed index =>
    have := h.2
    rwa [if_pos hk] at this
  | identified =>
    have := h.2
    rw [if_pos hk] at this
    exact .inr this
  | sequential =>
    have := h.2
    rw [if_pos hk] at this
    exact .inl this.1

theorem Allows.starts (h : enc.Allows calls pre k tc) (hk : k ∉ keys pre) : Starts calls k tc := by
  cases enc with
  | indexed | identified | sequential =>
    have := h.2
    rwa [if_neg hk] at this

theorem slot_concat_of_mem (hk : k ∈ keys pre) : enc.slot (pre ++ [(k, tc)]) = enc.slot pre := by
  cases enc with
  | indexed index => rfl
  | identified | sequential => funext j; rw [slot, keys_concat_of_mem hk, slot]

theorem slot_concat {j : κ} (hk : k ∉ keys pre) (hj : j ∈ keys pre) :
    enc.slot (pre ++ [(k, tc)]) j = enc.slot pre j := by
  cases enc with
  | indexed index => rfl
  | identified | sequential =>
    simp only [slot, keys_concat_of_notMem hk, List.idxOf_append_of_mem hj]

theorem slot_inj (hd : enc.Distinct) {i j : κ} (hi : i ∈ keys pre)
    (h : enc.slot pre i = enc.slot pre j) : i = j := by
  cases enc with
  | indexed index => exact hd h
  | identified | sequential => exact (List.idxOf_inj hi).mp h

/-- The slot of an id that is in the slot map. -/
theorem resolveSlot_known (h : Collects calls (enc.slot pre) pre c m.contents)
    (hids : Function.Injective fun j => (calls j).id) (hk : k ∈ keys pre) :
    resolveSlot order none (some (calls k).id) c = (enc.slot pre k, c.nextToolSlot) := by
  obtain ⟨st, hst, hid, -⟩ := h.held k hk
  have hsome : ((order.list c.toolBlocks).find? fun e => e.2.id == (calls k).id).isSome = true := by
    rw [List.find?_isSome]
    exact ⟨⟨enc.slot pre k, st⟩, order.mem_list.mpr hst, by simp [hid]⟩
  obtain ⟨e, he⟩ := Option.isSome_iff_exists.mp hsome
  have hget := order.mem_list.mp (List.mem_of_find?_eq_some he)
  obtain ⟨j, hj, hslot⟩ := h.only e.1 (HashMap.mem_iff_get.mpr ⟨_, hget⟩)
  obtain ⟨st', hst', hid', -⟩ := h.held j hj
  have heid : e.2.id = (calls k).id := by simpa using List.find?_some he
  have hjk : j = k := by
    rw [hslot, hget] at hst'
    cases hst'
    exact hids (hid'.symm.trans heid)
  simp only [resolveSlot, he]
  rw [← hslot, hjk]

/-- The slot of an id that is not in the slot map. -/
theorem resolveSlot_fresh (h : Collects calls (enc.slot pre) pre c m.contents)
    (hids : Function.Injective fun j => (calls j).id) (hk : k ∉ keys pre) :
    resolveSlot order none (some (calls k).id) c = (c.nextToolSlot, c.nextToolSlot + 1) := by
  have hnone : (order.list c.toolBlocks).find? (fun e => e.2.id == (calls k).id) = none := by
    rw [List.find?_eq_none]
    intro e he heid
    have hget := order.mem_list.mp he
    obtain ⟨j, hj, hslot⟩ := h.only e.1 (HashMap.mem_iff_get.mpr ⟨_, hget⟩)
    obtain ⟨st, hst, hid, -⟩ := h.held j hj
    rw [hslot, hget] at hst
    cases hst
    have heid' : e.2.id = (calls k).id := by simpa using heid
    exact hk (hids (hid.symm.trans heid') ▸ hj)
  simp only [resolveSlot, hnone]

theorem Placed.resolveSlot (h : enc.Placed calls pre c m.contents)
    (hids : Function.Injective fun j => (calls j).id) (ha : enc.Allows calls pre k tc) :
    ApertureRouter.resolveSlot order (toolCallIndex tc) (toolCallId tc) c =
      (enc.slot (pre ++ [(k, tc)]) k, enc.nextSlot (pre ++ [(k, tc)])) := by
  have hnext := h.next
  by_cases hk : k ∈ keys pre
  · rw [slot_concat_of_mem hk]
    cases enc with
    | indexed index =>
      rw [ha.1]
      simp only [ApertureRouter.resolveSlot, hnext, slot, nextSlot]
    | identified =>
      have hid := ha.2
      rw [if_pos hk] at hid
      rw [ha.1, hid, resolveSlot_known h.collects hids hk, hnext, nextSlot, nextSlot,
        keys_concat_of_mem hk]
    | sequential =>
      have hid := ha.2
      rw [if_pos hk] at hid
      obtain ⟨e, he, hek⟩ := Option.map_eq_some_iff.mp hid.2
      have hlast := h.last
      rw [he, Option.map_some, hek] at hlast
      rw [ha.1, hid.1]
      simp only [ApertureRouter.resolveSlot, hlast, hnext, nextSlot, keys_concat_of_mem hk,
        Option.getD_some]
  · have hstart := (ha.starts hk).1
    cases enc with
    | indexed index =>
      rw [ha.1]
      simp only [ApertureRouter.resolveSlot, hnext, slot, nextSlot]
    | identified | sequential =>
      rw [ha.1, hstart, resolveSlot_fresh h.collects hids hk, hnext]
      simp [nextSlot, slot, keys_concat_of_notMem hk, List.idxOf_append_of_notMem hk]

theorem convertFragment_toolCall_slots {slot next : Nat}
    (hslot : ApertureRouter.resolveSlot order (toolCallIndex tc) (toolCallId tc) c = (slot, next))
    (hid : opensBlock order c tc = true → (toolCallId tc).isSome = true) :
    (convertFragment order (.toolCall tc) c).1.nextToolSlot = next ∧
      (convertFragment order (.toolCall tc) c).1.lastToolSlot = some slot := by
  have hs := resolveSlot_congr order (closeForToolCalls_sameSlots c) (toolCallIndex tc) (toolCallId tc)
  rw [hslot] at hs
  rw [convertFragment_toolCall_state, slotOf]
  split
  · rename_i ho
    rw [openToolBlock_eq, if_pos (hid ho)]
    simp only [settleSlot, slotOf, hs, and_self]
  · simp only [settleSlot, slotOf, hs, and_self]

/-- The next fragment of a call. -/
theorem Placed.toolCall (h : enc.Placed calls pre c m.contents) (ht : Tracks lost c m)
    (hd : enc.Distinct) (hids : Function.Injective fun j => (calls j).id)
    (ha : enc.Allows calls pre k tc) :
    enc.Placed calls (pre ++ [(k, tc)]) (convertFragment order (.toolCall tc) c).1
      (contentsAfter order c m.contents (.toolCall tc)) := by
  have hres : ApertureRouter.resolveSlot order (toolCallIndex tc) (toolCallId tc) c = _ :=
    h.resolveSlot hids ha
  have hslot : slotOf order c tc = enc.slot (pre ++ [(k, tc)]) k := congrArg Prod.fst hres
  suffices hcol : (opensBlock order c tc = true → (toolCallId tc).isSome = true) ∧
      Collects calls (enc.slot (pre ++ [(k, tc)])) (pre ++ [(k, tc)])
        (convertFragment order (.toolCall tc) c).1 (contentsAfter order c m.contents (.toolCall tc)) by
    obtain ⟨hnext, hlast⟩ := convertFragment_toolCall_slots hres hcol.1
    exact ⟨hcol.2, hnext, by rw [hlast, List.getLast?_concat, Option.map_some]⟩
  by_cases hk : k ∈ keys pre
  · rw [slot_concat_of_mem hk] at hslot ⊢
    obtain ⟨ho, hcol⟩ := h.collects.continue ht hk hslot (ha.continues hk) fun j hj e =>
      slot_inj hd hj e
    exact ⟨fun e => absurd (ho.symm.trans e) (by simp), hcol⟩
  · have hstart := ha.starts hk
    refine ⟨fun _ => by rw [hstart.1]; rfl, ?_⟩
    refine (h.collects.start ht hk hslot hstart (fun j hj => slot_concat hk hj) fun j hj e => hk ?_).2
    rw [← slot_inj hd (Keyed.mem_keys_concat.mpr (.inl hj)) e]
    exact hj

end Encoding

/-! ## Runs -/

/-- The elements of `tool_calls` of a chunk. -/
def chunkToolCalls (value : Value) : List Value := (chunkDelta value >>= deltaToolCalls).getD []

theorem filterMap_toolCall? (value : Value) :
    (chunkFragments value).filterMap (·.toolCall?) = chunkToolCalls value := by
  unfold chunkFragments chunkToolCalls
  cases chunkDelta value with
  | none => rfl
  | some delta =>
    have hr : ∀ x : Option String,
        (x.map Fragment.reasoning).toList.filterMap (·.toolCall?) = [] := by
      intro x
      cases x <;> rfl
    have hc : ∀ x : Option String,
        (x.map Fragment.content).toList.filterMap (·.toolCall?) = [] := by
      intro x
      cases x <;> rfl
    rw [Option.elim_some, deltaFragments, List.filterMap_append, List.filterMap_append, hr, hc]
    show _ = (deltaToolCalls delta).getD []
    cases deltaToolCalls delta with
    | none => rfl
    | some tcs => simp [Fragment.toolCall?]

/-- Text and reasoning before, between and after the calls do not matter. -/
theorem Encoding.keptByFragments {κ : Type} [DecidableEq κ] (order : IterOrder Nat ToolBlockState)
    {calls : κ → ToolCall} {enc : Encoding κ} (hd : enc.Distinct)
    (hids : Function.Injective fun k => (calls k).id) {fs : List (κ × Value)}
    (hfs : enc.Encodes calls fs) :
    KeptByFragments order fun frs c v => ∀ pre post, fs = pre ++ post →
      frs.filterMap (·.toolCall?) = pre.map Prod.snd → enc.Placed calls pre c v where
  fragment := by
    intro frs lost c m f ht hr pre post he hpre
    rw [List.filterMap_append] at hpre
    cases hf : f.toolCall? with
    | none =>
      have h := hr pre post he (by simpa [hf] using hpre)
      have hs := convertFragment_sameSlots order hf c
      exact ⟨h.collects.text ht hf, hs.2.2.1.trans h.next, hs.2.2.2.trans h.last⟩
    | some tc =>
      obtain rfl : f = .toolCall tc := by
        cases f <;> cases hf
        rfl
      obtain ⟨pre₀, last, rfl, h₁, h₂⟩ := List.append_eq_map_iff.mp hpre
      obtain ⟨⟨k, tc'⟩, rfl, rfl⟩ := List.map_eq_singleton_iff.mp (show _ = [tc] from h₂)
      rw [List.append_assoc] at he
      exact (hr pre₀ _ he h₁.symm).toolCall ht hd hids (hfs pre₀ k tc' post he)
  congr := by
    intro frs c c' v hs _ hr pre post he hpre
    obtain ⟨hcol, hnext, hlast⟩ := hr pre post he hpre
    exact ⟨hcol.congr hs, hs.2.2.1.trans hnext, hs.2.2.2.trans hlast⟩

/-- The chunks of a message with calls. -/
theorem Encoding.run {κ : Type} [DecidableEq κ] (order : IterOrder Nat ToolBlockState)
    (uuid model : String) {calls : κ → ToolCall} {enc : Encoding κ} (hd : enc.Distinct)
    (hids : Function.Injective fun k => (calls k).id) {fs : List (κ × Value)}
    (hfs : enc.Encodes calls fs) {init : List Value} (hinit : ∀ v ∈ init, finishReason v = none)
    {last : Value} (hcalls : (init ++ [last]).flatMap chunkToolCalls = fs.map Prod.snd) :
    ∃ m, Client.read ((convertInputs order (init.map .chunk) >> chunkBody order last)
        (.new uuid model)).2 = some m ∧
      enc.Placed calls fs ((convertInputs order (init.map .chunk) >> chunkBody order last)
        (.new uuid model)).1 m.contents := by
  obtain ⟨-, m, hm, -, hr⟩ := (Encoding.keptByFragments order hd hids hfs).run uuid model
    (fun pre post _ hpre => by
      obtain rfl : pre = [] := by simpa using hpre.symm
      exact ⟨.nil rfl rfl, by cases enc <;> rfl, rfl⟩) hinit last
  refine ⟨m, hm, hr fs [] (List.append_nil fs).symm ?_⟩
  rw [List.filterMap_flatMap, ← hcalls]
  exact List.flatMap_congr fun v _ => filterMap_toolCall? v

/-! ## The events of a stream -/

/-- The calls of the `tool_use` blocks that start, in order. -/
def toolUseStarts (evs : List StreamEvent) : List ToolCall :=
  (startsOf evs).filterMap fun s => s.2.toolCall?

/-- What an `input_json_delta` adds to block `i`. -/
def StreamEvent.inputJsonOf (i : Nat) : StreamEvent → Option String
  | .contentBlockDelta j (.inputJson s) => if j = i then some s else none
  | _ => none

/-- What the `input_json_delta` events of block `i` add up to. -/
def inputJsonAt (i : Nat) (evs : List StreamEvent) : String :=
  String.join (evs.filterMap (·.inputJsonOf i))

theorem toolUseStarts_eq {evs : List StreamEvent} {m : Client} (h : Client.read evs = some m) :
    toolUseStarts evs = callsIn m.contents := by
  rw [toolUseStarts, (Client.reads_of_read h).starts, numbered, List.filterMap_map, callsIn,
    Client.contents, List.map_map, List.filterMap_map]
  rw [← List.zipIdx_map_fst 0 m.blocks, List.filterMap_map]
  simp [Function.comp_def]

/-- The deltas of a `tool_use` block are `input_json_delta` events. -/
theorem inputJsonAt_eq {evs : List StreamEvent} {m : Client} (h : Client.read evs = some m) {i : Nat}
    {b : Block} (hb : m.blocks[i]? = some b) (ht : b.start.toolCall?.isSome = true) :
    inputJsonAt i evs = b.payload := by
  have hr := Client.reads_of_read h
  rw [hr.payload i b hb, inputJsonAt, payloadAt]
  refine congrArg String.join (List.filterMap_congr fun e he => ?_)
  cases e with
  | contentBlockDelta j d =>
    by_cases hij : j = i
    · subst hij
      obtain ⟨pre, post, rfl⟩ := List.append_of_mem he
      obtain ⟨k, hk, -, hf⟩ := (Client.blockProtocol h).delta_open pre j d post rfl
      obtain ⟨b', hb', rfl⟩ := hr.mem_start.mp (List.mem_append_left _ hk)
      rw [hb] at hb'
      cases hb'
      cases hs : b.start <;> cases d <;> simp_all [Delta.Fits, ContentBlock.toolCall?,
        StreamEvent.inputJsonOf, StreamEvent.payloadOf, Delta.payload]
    · cases d <;> simp [StreamEvent.inputJsonOf, StreamEvent.payloadOf, hij]
  | _ => rfl

/-- The events after the last fragment do not matter. -/
theorem toolCalls_append_bare {evs rest : List StreamEvent} (h : ∀ e ∈ rest, e.Bare) :
    toolUseStarts (evs ++ rest) = toolUseStarts evs ∧
      ∀ i, inputJsonAt i (evs ++ rest) = inputJsonAt i evs := by
  refine ⟨?_, fun i => ?_⟩
  · rw [toolUseStarts, startsOf_append, startsOf_of_bare h, List.append_nil, toolUseStarts]
  · have hnil : rest.filterMap (·.inputJsonOf i) = [] := by
      rw [List.filterMap_eq_nil_iff]
      intro e he
      have hp := (h e he).2 i
      cases e with
      | contentBlockDelta j d =>
        cases d <;> simp_all [StreamEvent.payloadOf, StreamEvent.inputJsonOf]
      | _ => rfl
    rw [inputJsonAt, List.filterMap_append, hnil, List.append_nil, inputJsonAt]

/-- **Tool-call fragments reach the right block.** The chunks `values` have the fragments `fs` of
`n` calls, in one of the three encodings, and then the stream ends. -/
theorem toolCalls_collected (order : IterOrder Nat ToolBlockState) (serde : Serde)
    (uuid model : String) {n : Nat} (calls : Fin n → ToolCall)
    (hids : Function.Injective fun k => (calls k).id) (enc : Encoding (Fin n)) (hd : enc.Distinct)
    (fs : List (Fin n × Value)) (hfs : enc.Encodes calls fs) (hall : ∀ k, k ∈ keys fs)
    (values : List Value) (hcalls : values.flatMap chunkToolCalls = fs.map Prod.snd)
    (hfinish : ∀ v ∈ values.dropLast, finishReason v = none) (ending : List Upstream)
    (hending : ∀ u ∈ ending, u.fragments = []) (rawChunks : List (List Char))
    (hread : inputsOf serde rawChunks = values.map .chunk ++ ending) :
    let evs := convertedEvents order serde uuid model rawChunks
    toolUseStarts evs = (keys fs).map calls ∧ (toolUseStarts evs).length = n ∧
      ∀ k, ∃ i, .contentBlockStart i (.toolUse (calls k).id (calls k).name) ∈ evs ∧
        inputJsonAt i evs = Keyed.text argumentsText k fs := by
  intro evs
  have hlen : (keys fs).length = n := by
    rw [((List.perm_ext_iff_of_nodup (Keyed.nodup_keys fs) (List.nodup_finRange n)).mpr
      fun k => by simp [hall k]).length_eq, List.length_finRange]
  suffices h : toolUseStarts evs = (keys fs).map calls ∧ ∀ k,
      ∃ i, .contentBlockStart i (.toolUse (calls k).id (calls k).name) ∈ evs ∧
        inputJsonAt i evs = Keyed.text argumentsText k fs from
    ⟨h.1, by rw [h.1, List.length_map, hlen], h.2⟩
  have hevs : evs = (convertInputs order (values.map .chunk ++ ending) (.new uuid model)).2 := by
    rw [← hread]
    exact convertedEvents_eq order serde uuid model rawChunks
  have hbare := convertInputs_bare order hending
  rcases List.eq_nil_or_concat values with rfl | ⟨init, last, rfl⟩
  · obtain rfl : fs = [] := by simpa using hcalls.symm
    have hn : ∀ e ∈ evs, e.Bare := by
      rw [hevs]
      exact (hbare _ trivial).2
    refine ⟨?_, fun k => by simpa [keys] using hall k⟩
    rw [toolUseStarts, startsOf_of_bare hn]
    rfl
  · rw [List.concat_eq_append] at hcalls hfinish hevs
    rw [List.dropLast_concat] at hfinish
    obtain ⟨m, hm, hcol, -, -⟩ := Encoding.run order uuid model hd hids hfs hfinish hcalls
    have hclosing := (Emits.andThen (Emits.ifSome (I := fun _ => True)
      (fun reason c _ => ⟨trivial, closeWithStopReason_bare reason c⟩) (finishReason last)) hbare)
    rw [convertInputs_message, Prog.andThen_apply] at hevs
    obtain ⟨hstarts, hjson⟩ := toolCalls_append_bare (hclosing _ trivial).2
    rw [hevs]
    refine ⟨by rw [hstarts, toolUseStarts_eq hm, hcol.starts], fun k => ?_⟩
    obtain ⟨st, -, -, hv⟩ := hcol.held k (hall k)
    rw [Client.contents, List.getElem?_map] at hv
    obtain ⟨b, hb, he⟩ := Option.map_eq_some_iff.mp hv
    obtain ⟨hbs, hbp⟩ := Prod.mk.inj he
    refine ⟨st.blockIndex, List.mem_append_left _ ?_, ?_⟩
    · exact (Client.reads_of_read hm).mem_start.mpr ⟨b, hb, hbs⟩
    · rw [hjson, inputJsonAt_eq hm hb (by rw [hbs]; rfl), hbp]

/-! ## Two calls at once -/

/-- The text of a chunk with one element of `tool_calls`. -/
def toolCallText (tc : String) : String :=
  "\x7b\"choices\":[\x7b\"delta\":\x7b\"tool_calls\":[" ++ tc ++ "]\x7d\x7d]\x7d"

def toolCallChunk (tc : Value) : Value :=
  .object [("choices", .array [.object [("delta", .object [("tool_calls", .array [tc])])]])]

/-- The start of a call: its index, id and name and its first arguments. -/
def callHead (index : UInt64) (id name args : String) : Value :=
  .object [("index", .number (.posInt index)), ("id", .string id),
    ("function", .object [("name", .string name), ("arguments", .string args)])]

/-- More arguments of a call. -/
def callTail (index : UInt64) (args : String) : Value :=
  .object [("index", .number (.posInt index)), ("function", .object [("arguments", .string args)])]

def callsAB : Fin 2 → ToolCall
  | 0 => ⟨"a", "f"⟩
  | 1 => ⟨"b", "g"⟩

/-- Call 0, then call 1, then more of call 0. -/
def twoCalls : List (Fin 2 × Value) :=
  [(0, callHead 0 "a" "f" "1"), (1, callHead 1 "b" "g" "3"), (0, callTail 0 "2")]

def twoCallsTexts : List String := [
  toolCallText "\x7b\"index\":0,\"id\":\"a\",\"function\":\x7b\"name\":\"f\",\"arguments\":\"1\"\x7d\x7d",
  toolCallText "\x7b\"index\":1,\"id\":\"b\",\"function\":\x7b\"name\":\"g\",\"arguments\":\"3\"\x7d\x7d",
  toolCallText "\x7b\"index\":0,\"function\":\x7b\"arguments\":\"2\"\x7d\x7d"]

def twoCallsValues : List Value := twoCalls.map fun e => toolCallChunk e.2

/-- `serde_json` on the payloads and on the arguments. -/
def twoCallsSerde : Serde := tableSerde (twoCallsTexts.zip twoCallsValues ++
  [("12", .number (.posInt 12)), ("3", .number (.posInt 3))])

theorem toolCalls_collected_twoCalls :
    let evs := convertedEvents .entries twoCallsSerde "0" "m" [sseText (twoCallsTexts ++ ["[DONE]"])]
    toolUseStarts evs = (keys twoCalls).map callsAB ∧ (toolUseStarts evs).length = 2 ∧
      ∀ k, ∃ i, .contentBlockStart i (.toolUse (callsAB k).id (callsAB k).name) ∈ evs ∧
        inputJsonAt i evs = Keyed.text argumentsText k twoCalls :=
  toolCalls_collected .entries twoCallsSerde "0" "m" callsAB
    (by unfold Function.Injective; decide) (.indexed Fin.val)
    (fun _ _ => Fin.ext) twoCalls (by decide) (by decide) twoCallsValues rfl (by decide) [.done]
    (by simp [Upstream.fragments]) _
    (inputsOf_payloads (tableSerde_fromStr (by decide +kernel) rfl _) (by decide +kernel)
      (by decide +kernel))

end ApertureRouter
