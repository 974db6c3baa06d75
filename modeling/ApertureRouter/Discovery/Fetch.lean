import ApertureRouter.Discovery.Requestable
import ApertureRouter.Discovery.Sync
import ApertureRouter.Proxy.ReadBody
import ApertureRouter.Routes.Proxy
import ApertureRouter.Url

/-!
# Fetching the models

`fetch_models` (`src/discovery/models.rs`) asks the gateway for its models, three times at most. What
follows a response that can be read is `process_models_response`, and its error is not tried again.

* `FetchEnv.judge`: what one attempt makes of its reply. `judge_ok_iff`: the replies after which it
  is tried again (`Transient`).
* `fetch_contract`: what a run asks, after which delays, and what it returns.

`reqwest`, `url` and `serde_json` are parameters: the texts of their errors are those of the replies,
and the decoder reads the fields that `ApiModel` has.
-/

namespace ApertureRouter

open Utf8

/-! ## Attempts -/

/-- A request for the models, after a delay in seconds. -/
structure FetchRequest where
  url : String
  header : Option (String × String)
  delay : Nat
  deriving DecidableEq, Repr

/-- A response: its status, its `Content-Length` and the chunks of its body. -/
structure FetchResponse where
  status : Nat
  contentLength : Option Nat
  chunks : List (Except String (List UInt8))

/-- A response, or the text of a transport error. -/
abbrev FetchReply := Except String FetchResponse

instance : Nonempty FetchReply := ⟨.error ""⟩

/-- What the fetch takes from elsewhere. -/
structure FetchEnv where
  /-- `Url::parse`. -/
  parseUrl : UrlParser
  /-- `Url::join` of the URL that the first text is. -/
  join : String → String → Except String String
  /-- The `Display` of a `StatusCode`. -/
  statusText : Nat → String
  /-- `serde_json::from_slice` of a `ModelsResponse`. -/
  decode : List UInt8 → Except String (List ApiModel)

/-- `MAX_MODELS_BODY_BYTES`: 16 MiB. -/
def maxModelsBodyBytes : Nat := 16 * 1024 * 1024

/-- The errors of the loop that reads the body of `fetch_models`. -/
def ReadError.fetchText : ReadError → String
  | failed e => "Failed to read body: " ++ e
  | exceeds maxBytes => "Models response too large: exceeds " ++ toString maxBytes ++ " bytes"

namespace FetchEnv

variable (env : FetchEnv)

/-- The error for a status other than a success. -/
def statusError (url : String) (response : FetchResponse) : String :=
  let errorBody := String.ofList
    (lossy ((readBody maxErrorBodyBytes response.chunks).toOption.getD []))
  "Failed to fetch models from " ++ url ++ ": " ++ env.statusText response.status ++ " - " ++ errorBody

/-- The models of a success, if it can be read. -/
def readModels (response : FetchResponse) : Except String (List ApiModel) :=
  match response.contentLength.filter (maxModelsBodyBytes < ·) with
  | some len => .error ("Models response too large: " ++ toString len ++ " bytes (limit " ++
      toString maxModelsBodyBytes ++ ")")
  | none =>
    match readBody maxModelsBodyBytes response.chunks with
    | .error e => .error e.fetchText
    | .ok body => (env.decode body).mapError ("Failed to decode response body: " ++ ·)

/-- What an attempt makes of its reply: the result, or the error after which it is tried again. -/
def judge (url : String) : FetchReply → Except String (Except String Discovered)
  | .error e => .error e
  | .ok response =>
    if !isSuccess response.status then
      if isServerError response.status then .error (env.statusError url response)
      else .ok (.error (env.statusError url response))
    else (env.readModels response).map publishedModels

/-- The URL of the models. -/
def modelsUrl (baseUrl : String) : Except String String :=
  match env.parseUrl baseUrl with
  | .error e => .error ("Invalid base_url: " ++ e)
  | .ok url =>
    if url.scheme ∈ ["http", "https"] then
      (env.join baseUrl "v1/models").mapError ("Failed to build URL: " ++ ·)
    else .error ("Invalid URL scheme: " ++ url.scheme ++ ". Only http and https are allowed.")

/-- `max_retries`. -/
def maxRetries : Nat := 3

/-- The request of an attempt. -/
def fetchRequest (url : String) (apiKey : Option String) (attempt : Nat) : FetchRequest where
  url := url
  header := apiKey.map fun key => ("x-api-key", key)
  delay := if 0 < attempt then 1 <<< attempt else 0

/-- An attempt. -/
def tryFetch (url : String) (apiKey : Option String) (attempt : Nat) :
    Dialog FetchRequest FetchReply (Except String (Except String Discovered)) :=
  .once (fetchRequest url apiKey attempt) (env.judge url)

/-- The result of the attempts: that of the last one, or `last_error`. -/
def resultOf : Except String (Except String Discovered) → Except String Discovered
  | .ok result => result
  | .error lastError => .error lastError

/-- The attempts of `fetch_models`. -/
def fetchFrom (url : String) (apiKey : Option String) :
    Dialog FetchRequest FetchReply (Except String Discovered) := do
  let result ← Dialog.firstOk (env.tryFetch url apiKey)
    ("Failed to fetch models after " ++ toString maxRetries ++ " attempts") (List.range maxRetries)
  return resultOf result

/-- `fetch_models`, up to the maps that it publishes. -/
def fetchModels (baseUrl : String) (apiKey : Option String) :
    Dialog FetchRequest FetchReply (Except String Discovered) :=
  match env.modelsUrl baseUrl with
  | .error e => .done (.error e)
  | .ok url => env.fetchFrom url apiKey

/-! ## When it is tried again -/

/-- The gateway does not answer, has an error of its own, or sends a body that is too large, breaks off
or cannot be decoded. -/
def Transient : FetchReply → Prop
  | .error _ => True
  | .ok response => isServerError response.status = true ∨ isSuccess response.status = true ∧
      ((∃ len ∈ response.contentLength, maxModelsBodyBytes < len) ∨
        ∀ body, readBody maxModelsBodyBytes response.chunks = .ok body → ∃ e, env.decode body = .error e)

variable {env}

theorem readModels_error_iff {response : FetchResponse} :
    (∃ e, env.readModels response = .error e) ↔
      (∃ len ∈ response.contentLength, maxModelsBodyBytes < len) ∨
        ∀ body, readBody maxModelsBodyBytes response.chunks = .ok body →
          ∃ e, env.decode body = .error e := by
  unfold readModels
  cases hlen : response.contentLength.filter (maxModelsBodyBytes < ·) with
  | some len =>
    obtain ⟨hmem, hlarge⟩ := Option.filter_eq_some_iff.mp hlen
    exact iff_of_true ⟨_, rfl⟩ (.inl ⟨len, hmem, by simpa using hlarge⟩)
  | none =>
    have hsmall : ¬∃ len ∈ response.contentLength, maxModelsBodyBytes < len := by
      rintro ⟨len, hmem, hlarge⟩
      have hsome : response.contentLength.filter (maxModelsBodyBytes < ·) = some len :=
        Option.filter_eq_some_iff.mpr ⟨hmem, by simpa using hlarge⟩
      rw [hlen] at hsome
      cases hsome
    simp only [hsmall, false_or]
    cases hbody : readBody maxModelsBodyBytes response.chunks with
    | error e => exact iff_of_true ⟨_, rfl⟩ fun body h => by cases h
    | ok body =>
      simp only [Except.ok.injEq, forall_eq']
      cases env.decode body with
      | error e => exact iff_of_true ⟨_, rfl⟩ ⟨e, rfl⟩
      | ok models => exact iff_of_false (fun ⟨_, h⟩ => by cases h) fun ⟨_, h⟩ => by cases h

theorem judge_error_iff {url : String} {reply : FetchReply} :
    (∃ e, env.judge url reply = .error e) ↔ env.Transient reply := by
  cases reply with
  | error e => exact iff_of_true ⟨e, rfl⟩ trivial
  | ok response =>
    simp only [judge, Transient]
    cases hsuccess : isSuccess response.status with
    | false =>
      cases hserver : isServerError response.status with
      | true => exact iff_of_true ⟨_, rfl⟩ (.inl rfl)
      | false => simp
    | true =>
      simp only [Bool.not_true, Bool.false_eq_true, if_false, isServerError_of_isSuccess hsuccess,
        false_or, true_and]
      rw [← readModels_error_iff]
      cases env.readModels response with
      | error e => exact iff_of_true ⟨e, rfl⟩ ⟨e, rfl⟩
      | ok models => exact iff_of_false (fun ⟨_, h⟩ => by cases h) fun ⟨_, h⟩ => by cases h

/-! ## Runs -/

section

variable {url : String} {apiKey : Option String} {replies : Nat → FetchReply}

/-- The attempts of a run: all but the last one meet a failure that passes. The result is that of the
last one, or its error after three of them. -/
structure Attempts (env : FetchEnv) (url : String) (apiKey : Option String)
    (replies : Nat → FetchReply) (count : Nat) : Prop where
  count_pos : 0 < count
  count_le : count ≤ maxRetries
  asked : (env.fetchFrom url apiKey).trace replies =
    (List.range count).map (fetchRequest url apiKey)
  retried : ∀ i, i + 1 < count → env.Transient (replies i)
  result : (∃ r, env.judge url (replies (count - 1)) = .ok r ∧
      (env.fetchFrom url apiKey).run replies = r) ∨
    count = maxRetries ∧ ∃ e, env.judge url (replies (count - 1)) = .error e ∧
      (env.fetchFrom url apiKey).run replies = .error e

theorem attempts (env : FetchEnv) (url : String) (apiKey : Option String)
    (replies : Nat → FetchReply) : ∃ count, env.Attempts url apiKey replies count := by
  have htry : ∀ attempt ∈ List.range maxRetries, env.tryFetch url apiKey attempt =
      Dialog.once (fetchRequest url apiKey attempt) ((fun _ => env.judge url) attempt) :=
    fun _ _ => rfl
  obtain ⟨count, htrace, hstops⟩ := Dialog.firstOk_stopsAtFirst htry
    ("Failed to fetch models after " ++ toString maxRetries ++ " attempts") replies
  have hmet : ∀ i < maxRetries, (Dialog.outcomes (fun _ => env.judge url) replies
      (List.range maxRetries))[i]? = some (env.judge url (replies i)) := by
    intro i hi
    rw [Dialog.getElem?_outcomes, List.getElem?_range hi]
    rfl
  have hlength : (Dialog.outcomes (fun _ => env.judge url) replies (List.range maxRetries)).length =
      maxRetries := by rw [Dialog.length_outcomes, List.length_range]
  have hle : count ≤ maxRetries := hlength ▸ hstops.count_le
  have hrun : (env.fetchFrom url apiKey).run replies = resultOf _ :=
    Dialog.run_bind_done (fun _ => rfl) replies
  have hthree : maxRetries = 3 := rfl
  refine ⟨count, ?_, hle, ?_, fun i hi => ?_, ?_⟩
  · rcases hstops.result with ⟨a, -, hpos, -⟩ | ⟨hall, -⟩
    · exact hpos
    · rw [hall, hlength]
      decide
  · rw [List.take_range, Nat.min_eq_left hle] at htrace
    exact (Dialog.trace_bind_done (fun _ => rfl) replies).trans htrace
  · obtain ⟨e, he⟩ := hstops.failed i hi
    rw [hmet i (by omega)] at he
    exact judge_error_iff.mp ⟨e, Option.some.inj he⟩
  · rw [hrun]
    rcases hstops.result with ⟨r, hr, hpos, hlast⟩ | ⟨hall, e, he, hlast⟩
    · rw [hmet _ (by omega)] at hlast
      exact .inl ⟨r, Option.some.inj hlast, by rw [hr]; rfl⟩
    · rw [hlength] at hall
      rw [List.getLast?_eq_getElem?, hlength, hmet _ (by omega), Option.getD_some] at hlast
      exact .inr ⟨hall, e, by rw [hall, hlast], by rw [he]; rfl⟩

/-- The delays of a run: at most six seconds. -/
theorem Attempts.delay_le {count : Nat} (h : env.Attempts url apiKey replies count) :
    (((env.fetchFrom url apiKey).trace replies).map (·.delay)).sum ≤ 6 := by
  have hle := h.count_le
  have hdelay : (·.delay) ∘ fetchRequest url apiKey =
      fun attempt => if 0 < attempt then 1 <<< attempt else 0 := rfl
  rw [h.asked, List.map_map, hdelay]
  have hthree : maxRetries = 3 := rfl
  have hcases : count = 0 ∨ count = 1 ∨ count = 2 ∨ count = 3 := by omega
  rcases hcases with rfl | rfl | rfl | rfl <;> decide

/-- A reply that ends a run does not pass. -/
theorem judge_ok_iff {reply : FetchReply} :
    (∃ r, env.judge url reply = .ok r) ↔ ¬env.Transient reply := by
  rw [← @judge_error_iff env url]
  cases env.judge url reply with
  | ok r => exact iff_of_true ⟨r, rfl⟩ fun ⟨_, h⟩ => by cases h
  | error e => exact iff_of_false (fun ⟨_, h⟩ => by cases h) fun h => h ⟨e, rfl⟩

/-- Models are published from the first reply that does not pass, if it is among the first three. -/
theorem run_fetchFrom_ok_iff {discovered : Discovered} :
    (env.fetchFrom url apiKey).run replies = .ok discovered ↔
      ∃ i < maxRetries, (∀ j < i, env.Transient (replies j)) ∧
        env.judge url (replies i) = .ok (.ok discovered) := by
  obtain ⟨count, hattempts⟩ := attempts env url apiKey replies
  have hpos := hattempts.count_pos
  have hle := hattempts.count_le
  constructor
  · intro hrun
    rcases hattempts.result with ⟨r, hlast, hresult⟩ | ⟨-, e, -, hresult⟩
    · rw [hrun] at hresult
      subst hresult
      exact ⟨count - 1, by omega, fun j hj => hattempts.retried j (by omega), hlast⟩
    · rw [hrun] at hresult
      cases hresult
  · rintro ⟨i, hi, hbefore, hjudge⟩
    have hstop : ¬env.Transient (replies i) := judge_ok_iff.mp ⟨_, hjudge⟩
    have hcount : count ≤ i + 1 := by
      by_contra hmore
      exact hstop (hattempts.retried i (by omega))
    rcases hattempts.result with ⟨r, hlast, hresult⟩ | ⟨hall, e, hlast, -⟩
    · have hi' : count - 1 = i := by
        by_contra hne
        exact judge_ok_iff.mp ⟨r, hlast⟩ (hbefore _ (by omega))
      rw [hi', hjudge] at hlast
      obtain rfl := Except.ok.inj hlast
      exact hresult
    · have hi' : count - 1 = i := by omega
      rw [hi', hjudge] at hlast
      cases hlast

end

/-- **The fetch.** Nothing is asked if the base URL is no URL of HTTP. Otherwise `/v1/models` is asked
one to three times, with the key and after delays of six seconds at most. It is asked again only after a
failure that passes, and a run gives the models of the first reply that is none. -/
theorem fetch_contract (env : FetchEnv) (baseUrl : String) (apiKey : Option String)
    (replies : Nat → FetchReply) :
    match env.modelsUrl baseUrl with
    | .error e => (env.fetchModels baseUrl apiKey).trace replies = [] ∧
        (env.fetchModels baseUrl apiKey).run replies = .error e
    | .ok url => ∃ count, 0 < count ∧ count ≤ maxRetries ∧
        (env.fetchModels baseUrl apiKey).trace replies =
          (List.range count).map (fetchRequest url apiKey) ∧
        (((env.fetchModels baseUrl apiKey).trace replies).map (·.delay)).sum ≤ 6 ∧
        (∀ i, i + 1 < count → env.Transient (replies i)) ∧
        (count < maxRetries → ¬env.Transient (replies (count - 1))) ∧
        ∀ discovered, (env.fetchModels baseUrl apiKey).run replies = .ok discovered ↔
          ∃ i < maxRetries, (∀ j < i, env.Transient (replies j)) ∧
            env.judge url (replies i) = .ok (.ok discovered) := by
  unfold fetchModels
  cases env.modelsUrl baseUrl with
  | error e => exact ⟨rfl, rfl⟩
  | ok url =>
    obtain ⟨count, hattempts⟩ := attempts env url apiKey replies
    refine ⟨count, hattempts.count_pos, hattempts.count_le, hattempts.asked, hattempts.delay_le,
      hattempts.retried, fun hfew => ?_, fun discovered => run_fetchFrom_ok_iff⟩
    rcases hattempts.result with ⟨r, hlast, -⟩ | ⟨hall, -⟩
    · exact judge_ok_iff.mp ⟨r, hlast⟩
    · omega

end FetchEnv

end ApertureRouter
