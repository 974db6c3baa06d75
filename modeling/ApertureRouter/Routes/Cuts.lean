import ApertureRouter.Routes.Isolation
import ApertureRouter.Stream.Bytes

/-!
# Cuts in the bodies of the upstreams

What the POST routes answer, and whom they ask, with replies that have the same bytes but arrive in
other chunks.

* `SameBytes`: two such replies. Those to a streamed request of `/v1/messages` are `Readable`.
* `SameAnswer`: the same answer. Events that are passed through depend on the cuts.
* `handle_cuts`: a request asks the same upstreams and gets the same answer.
* `client_of_bytes`: a message that is streamed and one that is not are the same to the client, each
  read of its own bytes.
-/

namespace ApertureRouter

open Emit Utf8

/-! ## Replies with the same bytes -/

/-- The replies fail alike, or have the same status and the same bytes. For a streamed request, the
bytes of a success can be read as a stream. -/
inductive SameBytes (maxSize : Nat) (streaming : Bool) : Reply → Reply → Prop where
  | error : SameBytes maxSize streaming (.error ()) (.error ())
  | ok (status : Nat) {a b : List (List UInt8)} (hbytes : a.flatten = b.flatten)
      (hread : streaming = true → isSuccess status = true →
        ∃ text, Readable maxSize a text ∧ Readable maxSize b text) :
      SameBytes maxSize streaming (.ok (.ofChunks maxSize status (a.map .ok)))
        (.ok (.ofChunks maxSize status (b.map .ok)))

/-- The same answer, up to events that are passed through. -/
def SameAnswer : RouterResponse → RouterResponse → Prop
  | .events _, .events _ => True
  | a, b => a = b

theorem SameAnswer.refl (a : RouterResponse) : SameAnswer a a := by
  cases a with
  | events es => trivial
  | _ => rfl

/-- The streams of two such replies. -/
def SameText (maxSize : Nat) (streaming : Bool) (a b : List (Except String (List Char))) : Prop :=
  streaming = true → a = b ∨ ∃ (cs cs' : List (List UInt8)) (text : List Char),
    a = makeUtf8Stream maxSize (cs.map .ok) ∧ b = makeUtf8Stream maxSize (cs'.map .ok) ∧
      Readable maxSize cs text ∧ Readable maxSize cs' text

section

variable {maxSize : Nat} {streaming : Bool} {r r' : Reply}

/-- Two responses with the same bytes have the same status, body and stream. -/
theorem SameBytes.ok_cases {x : UpstreamResponse} (h : SameBytes maxSize streaming (.ok x) r') :
    ∃ y, r' = .ok y ∧ x.status = y.status ∧ x.body = y.body ∧
      (isSuccess x.status = true → SameText maxSize streaming x.chunks y.chunks) := by
  cases h with
  | ok status hbytes hread =>
    refine ⟨_, rfl, rfl, ?_, fun hsuccess hstreaming => ?_⟩
    · show ResponseBody.ofChunks _ = ResponseBody.ofChunks _
      rw [ofChunks_ok, ofChunks_ok, hbytes]
    · obtain ⟨text, ha, hb⟩ := hread hstreaming hsuccess
      exact .inr ⟨_, _, text, rfl, rfl, ha, hb⟩

theorem SameBytes.successOnly (h : SameBytes maxSize streaming r r') :
    SameBytes maxSize streaming (ApertureRouter.successOnly r) (ApertureRouter.successOnly r') := by
  cases h with
  | error => exact .error
  | ok status hbytes hread =>
    cases hsuccess : isSuccess status with
    | true =>
      simp only [ApertureRouter.successOnly, UpstreamResponse.ofChunks, hsuccess, if_true]
      exact .ok status hbytes hread
    | false =>
      simp only [ApertureRouter.successOnly, UpstreamResponse.ofChunks, hsuccess, Bool.false_eq_true,
        if_false]
      exact .error

theorem SameBytes.processUpstreamResponse {x y : UpstreamResponse} (hstatus : x.status = y.status)
    (hbody : x.body = y.body) :
    ApertureRouter.processUpstreamResponse x = ApertureRouter.processUpstreamResponse y := by
  rw [ApertureRouter.processUpstreamResponse, hstatus, hbody, ApertureRouter.processUpstreamResponse]

end

/-! ## The client of the upstreams -/

section

variable {maxSize : Nat} {streaming : Bool}

variable (maxSize streaming) in
/-- The two programs do the same with replies that have the same bytes. -/
abbrev CutAlike {α : Type} (E : α → α → Prop) (d : Calls α) : Prop :=
  Dialog.Alike (SameBytes maxSize streaming) E d d

theorem send_cutAlike (q : UpstreamRequest) :
    CutAlike maxSize streaming (SameBytes maxSize streaming) (send q) := by
  refine .ask q fun r r' h => .done ?_
  cases q.admitted with
  | true => exact h
  | false => exact .error

theorem forwardRequest_cutAlike (client : ProxyClient) (endpoint : String) (body : Value) :
    CutAlike maxSize streaming (SameBytes maxSize streaming)
      (client.forwardRequest endpoint body) :=
  (send_cutAlike _).bind fun _ _ h => .done h.successOnly

theorem forwardRequestStream_cutAlike (client : ProxyClient) (endpoint : String) (body : Value) :
    CutAlike maxSize streaming (Dialog.SameOutcome (SameText maxSize streaming))
      (client.forwardRequestStream endpoint body) := by
  refine (send_cutAlike _).bind fun r r' h => ?_
  cases r with
  | error e => cases h; exact .done (.error ())
  | ok x =>
    obtain ⟨y, rfl, hstatus, -, hstream⟩ := h.ok_cases
    refine .done (.ok ?_)
    rw [← hstatus]
    split
    · rename_i hsuccess
      exact hstream hsuccess
    · exact fun _ => .inl rfl

theorem forwardRequestStreamToUrl_cutAlike (client : ProxyClient) (url : EndpointUrl) (body : Value)
    (key : Option String) (style : EndpointStyle) :
    CutAlike maxSize streaming (Dialog.SameOutcome (SameText maxSize streaming))
      (client.forwardRequestStreamToUrl url body key style) := by
  refine (send_cutAlike _).bind fun r r' h => ?_
  cases r with
  | error e => cases h; exact .done (.error ())
  | ok x =>
    obtain ⟨y, rfl, hstatus, -, hstream⟩ := h.ok_cases
    simp only [ApertureRouter.successOnly, ← hstatus]
    cases hsuccess : isSuccess x.status with
    | true => exact .done (.ok (hstream hsuccess))
    | false => exact .done (.error ())

end

/-! ## The paths -/

section

variable {maxSize : Nat} {streaming : Bool} {state : AppState} {env : Env}

theorem proxyToDefaultGateway_cutAlike (client : ProxyClient) (body : Value) (endpoint : String) :
    CutAlike maxSize streaming SameAnswer (proxyToDefaultGateway client body endpoint) := by
  refine (forwardRequest_cutAlike client endpoint body).bind fun r r' h => ?_
  cases r with
  | error e => cases h; exact .done (.refl _)
  | ok x =>
    obtain ⟨y, rfl, hstatus, hbody, -⟩ := h.ok_cases
    refine .done ?_
    rw [SameBytes.processUpstreamResponse hstatus hbody]
    exact .refl _

theorem tryProvider_cutAlike (client : ProxyClient) (body : Value) (endpoint : String)
    (provider : Provider) :
    CutAlike maxSize streaming (Dialog.SameOutcome SameAnswer)
      (tryProvider client body endpoint provider) := by
  refine (send_cutAlike _).bind fun r r' h => ?_
  cases r with
  | error e => cases h; exact .done (.error _)
  | ok x =>
    obtain ⟨y, rfl, hstatus, hbody, -⟩ := h.ok_cases
    simp only [← hstatus, SameBytes.processUpstreamResponse hstatus hbody]
    split
    · exact .done (.error _)
    · exact .done (.ok (.refl _))

theorem proxyHandlerMulti_cutAlike (client : ProxyClient) (providers : List Provider) (body : Value)
    (endpoint : String) (multi : Bool) :
    CutAlike maxSize streaming SameAnswer (proxyHandlerMulti client providers body endpoint multi) := by
  have htry : ∀ p, CutAlike maxSize streaming (Dialog.SameOutcome SameAnswer)
      (tryProvider client body endpoint p) := tryProvider_cutAlike client body endpoint
  unfold proxyHandlerMulti
  split
  · exact proxyToDefaultGateway_cutAlike client body endpoint
  · match providers with
    | [] => exact proxyToDefaultGateway_cutAlike client body endpoint
    | [p] =>
      refine (htry p).bind fun a b h => ?_
      cases h with
      | ok h => exact .done h
      | error e => exact .done (.refl _)
    | p :: q :: rest =>
      refine (Dialog.Alike.firstOk (fun p _ => htry p) badGateway).bind fun a b h => ?_
      cases h with
      | ok h => exact .done h
      | error e => exact .done (.refl _)

theorem tryProviderNonStreaming_cutAlike (openaiBody : Value) (provider : Provider) :
    CutAlike maxSize streaming (Dialog.SameOutcome SameAnswer)
      (tryProviderNonStreaming state env openaiBody provider) := by
  refine (send_cutAlike _).bind fun r r' h => .done ?_
  have hsame : convertProviderReply env r = convertProviderReply env r' := by
    cases r with
    | error e => cases h; rfl
    | ok x =>
      obtain ⟨y, rfl, hstatus, hbody, -⟩ := h.ok_cases
      simp only [convertProviderReply, hstatus, hbody]
  rw [hsame]
  cases convertProviderReply env r' with
  | ok a => exact .ok (.refl a)
  | error e => exact .error e

theorem handleNonStreamingConversion_cutAlike (anthropicValue : Value) (providers : List Provider) :
    CutAlike maxSize streaming SameAnswer
      (handleNonStreamingConversion state env anthropicValue providers) := by
  have htry : ∀ p, CutAlike maxSize streaming (Dialog.SameOutcome SameAnswer)
      (tryProviderNonStreaming state env (anthropicRequestToOpenai env.serde anthropicValue) p) :=
    tryProviderNonStreaming_cutAlike _
  unfold handleNonStreamingConversion
  match providers with
  | [] =>
    refine (forwardRequest_cutAlike _ _ _).bind fun r r' h => .done ?_
    have hsame : convertGatewayReply env r = convertGatewayReply env r' := by
      cases r with
      | error e => cases h; rfl
      | ok x =>
        obtain ⟨y, rfl, hstatus, hbody, -⟩ := h.ok_cases
        simp only [convertGatewayReply, hstatus, hbody]
    rw [hsame]
    exact .refl _
  | [p] =>
    refine (htry p).bind fun a b h => ?_
    cases h with
    | ok h => exact .done h
    | error e => exact .done (.refl _)
  | p :: q :: rest =>
    refine (Dialog.Alike.firstOk (fun p _ => htry p) badGateway).bind fun a b h => ?_
    cases h with
    | ok h => exact .done h
    | error e => exact .done (.refl _)

/-- Streams of the same text are converted alike. -/
theorem SameText.converted {a b : List (Except String (List Char))}
    (h : SameText maxSize true a b) (order : IterOrder Nat ToolBlockState) (serde : Serde)
    (uuid model : String) :
    SameAnswer (.converted (buildAnthropicSse order serde uuid model a))
      (.converted (buildAnthropicSse order serde uuid model b)) := by
  rcases h rfl with rfl | ⟨cs, cs', text, rfl, rfl, hcs, hcs'⟩
  · exact .refl _
  · rw [sse_of_bytes hcs, sse_of_bytes hcs']
    exact .refl _

theorem tryProviderStreaming_cutAlike (openaiBody : Value) (provider : Provider) :
    CutAlike maxSize streaming (Dialog.SameOutcome (SameText maxSize streaming))
      (tryProviderStreaming state openaiBody provider) := by
  refine (forwardRequestStreamToUrl_cutAlike _ _ _ _ _).bind fun a b h => ?_
  cases h with
  | ok h => exact .done (.ok h)
  | error e => exact .done (.error _)

theorem handleStreamingConversion_cutAlike (anthropicValue : Value) (providers : List Provider) :
    CutAlike maxSize true (Dialog.SameOutcome SameAnswer)
      (handleStreamingConversion state env anthropicValue providers) := by
  have htry : ∀ p, CutAlike maxSize true (Dialog.SameOutcome (SameText maxSize true))
      (tryProviderStreaming state
        ((anthropicRequestToOpenai env.serde anthropicValue).set "stream" (.bool true)) p) :=
    tryProviderStreaming_cutAlike _
  unfold handleStreamingConversion
  match providers with
  | [] =>
    refine (forwardRequestStream_cutAlike _ _ _).bind fun a b h => ?_
    cases h with
    | ok h => exact .done (.ok (h.converted ..))
    | error e => exact .done (.error _)
  | [p] =>
    refine (htry p).bind fun a b h => ?_
    cases h with
    | ok h => exact .done (.ok (h.converted ..))
    | error e => exact .done (.error _)
  | p :: q :: rest =>
    refine (Dialog.Alike.firstOk (fun p _ => htry p) badGateway).bind fun a b h => ?_
    cases h with
    | ok h => exact .done (.ok (h.converted ..))
    | error e => exact .done (.error _)

theorem handleAnthropicDirectStreaming_cutAlike (body : Value) (providers : List Provider) :
    CutAlike maxSize streaming (Dialog.SameOutcome SameAnswer)
      (handleAnthropicDirectStreaming state body providers) := by
  refine Dialog.Alike.firstOk (fun p _ => ?_) badGateway
  refine (forwardRequestStreamToUrl_cutAlike _ _ _ _ _).bind fun a b h => ?_
  cases h with
  | ok h => exact .done (.ok trivial)
  | error e => exact .done (.error _)

end

/-! ## The routes -/

/-- A request of `/v1/messages` that is streamed. -/
def RouterRequest.streams : RouterRequest → Bool
  | .messages request => request.stream.getD false
  | .chat _ | .proxy _ => false

section

variable {maxSize : Nat} {state : AppState} {env : Env}

theorem chatCompletions_cutAlike {streaming : Bool} (request : Openai.ChatCompletionRequest) :
    CutAlike maxSize streaming SameAnswer (chatCompletions state env request) := by
  unfold chatCompletions
  simp only
  split
  · exact .done (.refl _)
  · split
    · exact .done (.refl _)
    · exact proxyHandlerMulti_cutAlike ..

theorem routeAnthropic_cutAlike (request : Anthropic.MessageRequest) :
    CutAlike maxSize (request.stream.getD false) SameAnswer (routeAnthropic state env request) := by
  have hstream : ∀ a b : Except Nat RouterResponse, Dialog.SameOutcome SameAnswer a b →
      SameAnswer (streamResponse a) (streamResponse b) := by
    intro a b h
    cases h with
    | ok h => exact h
    | error e => exact .refl _
  unfold routeAnthropic
  simp only
  split
  · split
    · exact (handleAnthropicDirectStreaming_cutAlike _ _).bind fun a b h => .done (hstream a b h)
    · exact proxyHandlerMulti_cutAlike ..
  · split
    · rename_i hstreaming
      rw [hstreaming]
      exact (handleStreamingConversion_cutAlike _ _).bind fun a b h => .done (hstream a b h)
    · exact handleNonStreamingConversion_cutAlike _ _

theorem handleProxyStream_cutAlike {streaming : Bool} (request : Value) :
    CutAlike maxSize streaming SameAnswer (handleProxyStream state env request) := by
  unfold handleProxyStream
  simp only
  split
  · exact .done (.refl _)
  · refine (forwardRequestStream_cutAlike _ _ _).bind fun a b h => ?_
    cases h with
    | ok h => exact .done trivial
    | error e => exact .done (.refl _)

variable (state env) in
theorem handle_cutAlike (request : RouterRequest) :
    CutAlike maxSize request.streams SameAnswer (handle state env request) := by
  cases request with
  | chat request => exact chatCompletions_cutAlike request
  | proxy request => exact handleProxyStream_cutAlike request
  | messages request =>
    unfold handle anthropicMessages
    simp only
    split
    · exact .done (.refl _)
    · exact routeAnthropic_cutAlike
        { request with model := state.config.resolveModelAlias request.model }

/-- **Cuts.** Whatever chunks the network makes of the bodies of the upstreams, a request asks the same
upstreams and gets the same answer, up to events that are passed through. -/
theorem handle_cuts (state : AppState) (env : Env) (maxSize : Nat) (request : RouterRequest)
    {replies replies' : Nat → Reply}
    (h : ∀ n, SameBytes maxSize request.streams (replies n) (replies' n)) :
    (handle state env request).trace replies = (handle state env request).trace replies' ∧
      SameAnswer ((handle state env request).run replies) ((handle state env request).run replies') :=
  ⟨(handle_cutAlike state env request).trace h, (handle_cutAlike state env request).run h⟩

end

/-- The vendor with the API of OpenAI. -/
def openaiVendorState : AppState :=
  { otherVendorState with registry := .new [{ otherVendor with endpointStyle := .openaiV1 }] }

/-- A comment and the end of a stream. -/
def commentDone : List Char := ": é\ndata: [DONE]\n".toList

/-- The text, cut inside its second character. -/
def cutComment : List (List UInt8) := [(encode commentDone).take 3, (encode commentDone).drop 3]

theorem readable_cutComment : Readable 100 cutComment commentDone where
  utf8 := by decide +kernel
  size := by decide +kernel
  room := ⟨20, 20, by decide +kernel, by decide +kernel, by decide⟩

theorem readable_commentDone : Readable 100 [encode commentDone] commentDone where
  utf8 := by decide +kernel
  size := by decide +kernel
  room := ⟨20, 20, by decide +kernel, by decide +kernel, by decide⟩

theorem handle_cuts_cutComment :
    let reply (chunks : List (List UInt8)) : Nat → Reply :=
      fun _ => .ok (.ofChunks 100 200 (chunks.map .ok))
    (handle openaiVendorState plainEnv streamedRequest).trace (reply cutComment) =
        (handle openaiVendorState plainEnv streamedRequest).trace (reply [encode commentDone]) ∧
      SameAnswer ((handle openaiVendorState plainEnv streamedRequest).run (reply cutComment))
        ((handle openaiVendorState plainEnv streamedRequest).run (reply [encode commentDone])) :=
  handle_cuts openaiVendorState plainEnv 100 streamedRequest fun _ =>
    .ok 200 (by decide +kernel) fun _ _ => ⟨commentDone, readable_cutComment, readable_commentDone⟩

/-! ## Streamed or not -/

/-- A response that is read of its bytes and parsed is converted. -/
theorem convertProviderReply_ofChunks {env : Env} {maxSize status : Nat} {chunks : List (List UInt8)}
    (hstatus : isSuccess status = true)
    (hsize : chunks.flatten.length ≤ maxNonStreamingResponseBytes) {openai : Value}
    (hparse : env.serde.fromStr (String.ofList (lossy chunks.flatten)) = some openai) :
    convertProviderReply env (.ok (.ofChunks maxSize status (chunks.map .ok))) =
      .ok (.json 200 (openaiResponseToAnthropic env.serde env.uuid openai)) := by
  have hbody : (ResponseBody.ofChunks (chunks.map .ok)).readCapped maxNonStreamingResponseBytes =
      some (String.ofList (lossy chunks.flatten)) := by
    rw [readBody_refines, readBody_fits hsize]
    rfl
  simp only [convertProviderReply, UpstreamResponse.ofChunks, hstatus,
    isServerError_of_isSuccess hstatus, hbody, hparse, Bool.false_eq_true, if_false, Bool.not_true]

/-- **Streamed or not.** Read of the bytes of its stream, in whatever chunks, a message is to the client
what the response for it is, read of its own bytes. -/
theorem client_of_bytes (env : Env) (model : String) {reasoning text finish : String}
    {calls : List Call} (hids : (calls.map (·.id)).Nodup)
    (hargs : ∀ call ∈ calls, (env.serde.fromStr call.arguments).isSome = true)
    (hne : reasoning ≠ "" ∨ text ≠ "" ∨ calls ≠ []) {openai msg : Value}
    (hmsg : (firstChoice openai >>= (·.get "message")) = some msg)
    (hcontent : IsAssistantMessage msg reasoning text calls)
    (hfinish : (firstChoice openai >>= (·.get "finish_reason")) = some (.string finish))
    (s : Streaming reasoning text calls finish) {maxSize status : Nat}
    {chunks whole : List (List UInt8)} {body : List Char} (hbody : Readable maxSize chunks body)
    (hread : readLines env.serde body = s.inputs) (hstatus : isSuccess status = true)
    (hsize : whole.flatten.length ≤ maxNonStreamingResponseBytes)
    (hparse : env.serde.fromStr (String.ofList (lossy whole.flatten)) = some openai) :
    ∃ evs m blocks reason value,
      buildAnthropicSse env.slotOrder env.serde env.uuid model
          (makeUtf8Stream maxSize (chunks.map .ok)) = evs.map .event ∧
      Client.read evs = some m ∧
      m.contents.mapM (contentBlockJson env.serde) = some blocks ∧ m.stopReason = some reason ∧
      convertProviderReply env (.ok (.ofChunks maxSize status (whole.map .ok))) =
        .ok (.json 200 value) ∧
      value.get "content" = some (.array blocks) ∧
      value.get "stop_reason" = some (.string reason) := by
  obtain ⟨m, hm, ⟨b, hv⟩, hr⟩ := s.client env.slotOrder env.uuid model hids
  refine ⟨_, m, _, _, _, ?_, hm, ?_, hr, convertProviderReply_ofChunks hstatus hsize hparse,
    congrArg (some ∘ Value.array) (responseContent_eq env.serde hmsg hcontent hne),
    congrArg (some ∘ Value.string) (responseStopReason_eq hfinish)⟩
  · rw [sse_of_bytes hbody, hread]
  · have htools : (calls.map fun call => (call.start, call.arguments)).mapM
        (contentBlockJson env.serde) = some (calls.map (·.block env.serde)) := by
      rw [List.mapM_map]
      exact mapM_eq_some fun call hc => Call.json (hargs call hc)
    rw [hv, List.mapM_append, Parts.texts_json, htools]
    simp [assistantBlocks]

/-- The stream of the sample message. -/
def sampleBody : List Char := sseText (sampleTexts ++ ["[DONE]"])

/-- The parser of the sample, which also reads the whole response. -/
def wholeEnv : Env :=
  { plainEnv with
    serde := tableSerde (sampleTexts.zip (sampleStreaming.init ++ [sampleStreaming.last]) ++
      [("\x7b\x7d", .object []), ("whole", sampleCompletion)]) }

theorem fromStr_whole : wholeEnv.serde.fromStr
    (String.ofList (lossy ["wh".toUTF8.toList, "ole".toUTF8.toList].flatten)) =
      some sampleCompletion := by
  have htext : String.ofList (lossy ["wh".toUTF8.toList, "ole".toUTF8.toList].flatten) = "whole" := by
    decide +kernel
  rw [htext]
  rfl

theorem readLines_sampleBody : readLines wholeEnv.serde sampleBody = sampleStreaming.inputs := by
  have hfits : Text.utf8Len sampleBody ≤ maxLineBuffer := by decide +kernel
  rw [← inputsOf_singleton hfits]
  exact inputsOf_payloads (tableSerde_fromStr (by decide +kernel) rfl _) (by decide +kernel) hfits

theorem client_of_bytes_sample :
    ∃ evs m blocks reason value,
      buildAnthropicSse .entries wholeEnv.serde "0" "m"
          (makeUtf8Stream 4096 ([(encode sampleBody).take 50, (encode sampleBody).drop 50].map .ok)) =
        evs.map .event ∧
      Client.read evs = some m ∧
      m.contents.mapM (contentBlockJson wholeEnv.serde) = some blocks ∧ m.stopReason = some reason ∧
      convertProviderReply wholeEnv
          (.ok (.ofChunks 4096 200 (["wh".toUTF8.toList, "ole".toUTF8.toList].map .ok))) =
        .ok (.json 200 value) ∧
      value.get "content" = some (.array blocks) ∧
      value.get "stop_reason" = some (.string reason) :=
  client_of_bytes wholeEnv "m" (by decide) (by decide +kernel) (.inl (by decide))
    (show (firstChoice sampleCompletion >>= (·.get "message")) = some sampleMessage from rfl)
    sampleMessage_isAssistantMessage rfl sampleStreaming
    ⟨by decide +kernel, by decide +kernel, 400, 2000, by decide +kernel, by decide +kernel, by decide⟩
    readLines_sampleBody (by decide) (by decide +kernel) fromStr_whole

end ApertureRouter
