import PlenoraRuntime.Messaging.Message

/-!
# Cookies of a response

`middleware::apply` wraps a router in layers, and the last one added is the outermost. A
layer that marks all cookies of a response as sensitive lies inside; the request context
middleware lies outside, and answers some requests itself with the response of the
application's error hook: a request with a malformed identifier, and one for which the inner
service reports a payload that is too large. Of the cookies of such a response only the
first is marked (`attach_context`).

A service is a function from requests to responses, without the bodies. Parameters:
* **`router` and `hook`:** the application's router and its error hook.
* **`layers`:** what `axum` and `tower-http` wrap around the router inside the request context
  middleware. All that is known of them is what `SetSensitiveResponseHeadersLayer` is for: every
  cookie of a response that leaves them is marked.
* **`parseUuid` and `random`:** the parser of identifiers, and the identifiers that are drawn.
-/

namespace PlenoraRuntime.Http

open List

open Messaging (CorrelationId MessageId)

/-! ## Headers -/

structure HeaderValue where
  bytes : Bytes
  sensitive : Bool := false
  deriving DecidableEq

/-- `HeaderValue::from_str`: control characters other than the tab are rejected. -/
def HeaderValue.fromStr (value : Text) : Option HeaderValue :=
  if value.all fun byte => (32 ≤ byte && byte != 127) || byte == 9 then some { bytes := value }
  else none

/-- `HeaderValue::to_str`: only visible ASCII is a text. -/
def HeaderValue.toStr (value : HeaderValue) : Option Text :=
  if value.bytes.all fun byte => (32 ≤ byte && byte < 127) || byte == 9 then some value.bytes
  else none

/-- `set_sensitive(true)`. -/
def HeaderValue.markSensitive (value : HeaderValue) : HeaderValue :=
  { value with sensitive := true }

/-- `HeaderMap`, as the list of its values with their names in lower case. -/
abbrev HeaderMap := List (Text × HeaderValue)

namespace HeaderMap

variable (headers : HeaderMap) (name : Text)

def getAll : List HeaderValue :=
  (headers.filter fun header => header.1 = name).map Prod.snd

/-- `get`: the first of the values. -/
def get : Option HeaderValue :=
  (headers.getAll name).head?

/-- `insert`: the value becomes the only one under its name. -/
def insert (value : HeaderValue) : HeaderMap :=
  headers.filter (fun header => header.1 ≠ name) ++ [(name, value)]

/-- What `get_mut` gives access to is marked as sensitive. -/
def markFirst : HeaderMap → HeaderMap
  | [] => []
  | header :: rest =>
    if header.1 = name then (header.1, header.2.markSensitive) :: rest
    else header :: markFirst rest

end HeaderMap

def setCookie : Text := utf8 "set-cookie"

def requestIdHeader : Text := utf8 "x-request-id"

def correlationIdHeader : Text := utf8 "x-correlation-id"

/-! ## Requests and responses -/

structure RequestId where
  id : MessageId
  deriving DecidableEq

structure HttpRequestContext where
  requestId : RequestId
  correlationId : CorrelationId
  deriving DecidableEq

/-- A request: its headers, and the context among its extensions. -/
structure Request where
  headers : HeaderMap
  context : Option HttpRequestContext := none

/-- A response: its status, its headers, and the context among its extensions. -/
structure Response where
  status : ℕ
  headers : HeaderMap
  context : Option HttpRequestContext := none

inductive HttpError
  | invalidRequestId
  | invalidCorrelationId
  | badRequest
  | notFound
  | conflict
  | payloadTooLarge
  | serviceUnavailable
  | internal
  deriving DecidableEq, Repr

/-- `StatusCode::PAYLOAD_TOO_LARGE`. -/
def payloadTooLargeStatus : ℕ := 413

/-! ## Middleware -/

section middleware

variable (parseUuid : Text → Option Uuid) (hook : HttpError → Response)

/-- The identifier under the given name, or a random one; the flag tells that one was given and
could not be read. -/
def resolveId (name : Text) (random : Uuid) (headers : HeaderMap) : Uuid × Bool :=
  match headers.get name with
  | none => (random, false)
  | some value =>
    match value.toStr.bind parseUuid with
    | none => (random, true)
    | some uuid => (uuid, false)

def resolveRequestId (random : Uuid) (headers : HeaderMap) : RequestId × Bool :=
  let (uuid, invalid) := resolveId parseUuid requestIdHeader random headers
  (⟨⟨uuid⟩⟩, invalid)

def resolveCorrelationId (random : Uuid) (headers : HeaderMap) : CorrelationId × Bool :=
  let (uuid, invalid) := resolveId parseUuid correlationIdHeader random headers
  (⟨uuid⟩, invalid)

def insertIdentifierHeader (headers : HeaderMap) (name value : Text) : HeaderMap :=
  match HeaderValue.fromStr value with
  | some value => headers.insert name value
  | none => headers

def attachContext (response : Response) (context : HttpRequestContext) : Response :=
  let headers := response.headers.markFirst setCookie
  let headers :=
    insertIdentifierHeader headers requestIdHeader (hyphenated context.requestId.id.uuid)
  let headers :=
    insertIdentifierHeader headers correlationIdHeader (hyphenated context.correlationId.uuid)
  { response with headers, context := some context }

/-- `request_context_middleware`, with the random identifiers that it may draw. -/
def requestContextMiddleware (random : Uuid × Uuid) (next : Request → Response)
    (request : Request) : Response :=
  let (requestId, requestIdInvalid) := resolveRequestId parseUuid random.1 request.headers
  let (correlationId, correlationIdInvalid) :=
    resolveCorrelationId parseUuid random.2 request.headers
  let context : HttpRequestContext := { requestId, correlationId }
  let request := { request with context := some context }
  if requestIdInvalid || correlationIdInvalid then
    let error : HttpError := if requestIdInvalid then .invalidRequestId else .invalidCorrelationId
    attachContext (hook error) context
  else
    let response := next request
    let response :=
      if response.status = payloadTooLargeStatus then hook .payloadTooLarge else response
    attachContext response context

/-- `apply`: the service of the composed router. -/
def apply (random : Uuid × Uuid) (layers : (Request → Response) → Request → Response)
    (router : Request → Response) : Request → Response :=
  requestContextMiddleware parseUuid hook random (layers router)

end middleware

/-! ## Cookies through the layers -/

/-- Every cookie that the response sets is marked as sensitive. -/
def CookiesSensitive (response : Response) : Prop :=
  ∀ value ∈ response.headers.getAll setCookie, value.sensitive = true

theorem getAll_markFirst (headers : HeaderMap) (name : Text) :
    HeaderMap.getAll (headers.markFirst name) name =
      (headers.getAll name).modifyHead HeaderValue.markSensitive := by
  induction headers with
  | nil => rfl
  | cons header rest ih =>
    by_cases hname : header.1 = name
    · simp [HeaderMap.markFirst, HeaderMap.getAll, hname]
    · simpa [HeaderMap.markFirst, HeaderMap.getAll, hname] using ih

variable {name : Text}

theorem getAll_insert_of_ne (headers : HeaderMap) {other : Text} (value : HeaderValue)
    (hne : other ≠ name) : (headers.insert name value).getAll other = headers.getAll other := by
  have hkept : ∀ header : Text × HeaderValue,
      (decide (header.1 = other) && decide (header.1 ≠ name)) = decide (header.1 = other) := by
    intro header
    by_cases hother : header.1 = other <;> simp [hother, hne]
  simp only [HeaderMap.getAll, HeaderMap.insert, filter_append, filter_filter, hkept]
  simp [hne.symm]

theorem getAll_insertIdentifierHeader (headers : HeaderMap) (value : Text)
    (hne : setCookie ≠ name) :
    (insertIdentifierHeader headers name value).getAll setCookie = headers.getAll setCookie := by
  unfold insertIdentifierHeader
  split
  · exact getAll_insert_of_ne headers _ hne
  · rfl

/-- The first cookie is marked on the way out, and the others are left as they are. -/
theorem cookiesSensitive_attachContext (response : Response) (context : HttpRequestContext) :
    CookiesSensitive (attachContext response context) ↔
      ∀ value ∈ (response.headers.getAll setCookie).tail, value.sensitive = true := by
  have hrequest : setCookie ≠ requestIdHeader := by decide +kernel
  have hcorrelation : setCookie ≠ correlationIdHeader := by decide +kernel
  have hvalues : (attachContext response context).headers.getAll setCookie =
      (response.headers.getAll setCookie).modifyHead HeaderValue.markSensitive := by
    rw [← getAll_markFirst]
    exact (getAll_insertIdentifierHeader _ _ hcorrelation).trans
      (getAll_insertIdentifierHeader _ _ hrequest)
  rw [CookiesSensitive, hvalues]
  cases response.headers.getAll setCookie with
  | nil => simp
  | cons first rest => simp [HeaderValue.markSensitive]

/-- The error that the hook is asked to answer, if any: the request is rejected, or what comes
from inside is replaced. -/
def hookedError (parseUuid : Text → Option Uuid) (random : Uuid × Uuid)
    (inner : Request → Response) (request : Request) : Option HttpError :=
  let (requestId, requestIdInvalid) := resolveRequestId parseUuid random.1 request.headers
  let (correlationId, correlationIdInvalid) :=
    resolveCorrelationId parseUuid random.2 request.headers
  let request := { request with context := some { requestId, correlationId } }
  if requestIdInvalid then some .invalidRequestId
  else if correlationIdInvalid then some .invalidCorrelationId
  else if (inner request).status = payloadTooLargeStatus then some .payloadTooLarge
  else none

/-- For every request, every router and every hook, when all cookies that leave the layers are
marked: the cookies of the response are all marked as sensitive exactly if the hook, where it is
asked to answer, has itself marked all its cookies but the first. -/
theorem cookies_sensitive_iff (parseUuid : Text → Option Uuid) (hook : HttpError → Response)
    (random : Uuid × Uuid) {layers : (Request → Response) → Request → Response}
    {router : Request → Response} (hmarked : ∀ request, CookiesSensitive (layers router request))
    (request : Request) :
    CookiesSensitive (apply parseUuid hook random layers router request) ↔
      ∀ error, hookedError parseUuid random (layers router) request = some error →
        ∀ value ∈ ((hook error).headers.getAll setCookie).tail, value.sensitive = true := by
  unfold apply requestContextMiddleware hookedError
  generalize resolveRequestId parseUuid random.1 request.headers = requestId
  generalize resolveCorrelationId parseUuid random.2 request.headers = correlationId
  obtain ⟨requestId, requestIdInvalid⟩ := requestId
  obtain ⟨correlationId, correlationIdInvalid⟩ := correlationId
  have hmarked := hmarked { request with context := some { requestId, correlationId } }
  dsimp only
  generalize layers router _ = response at hmarked ⊢
  cases requestIdInvalid with
  | true => simp [cookiesSensitive_attachContext]
  | false =>
    cases correlationIdInvalid with
    | true => simp [cookiesSensitive_attachContext]
    | false =>
      by_cases hstatus : response.status = payloadTooLargeStatus
      · simp [hstatus, cookiesSensitive_attachContext]
      · -- A response of the router passed the layer that marks all its cookies.
        have hrest : ∀ value ∈ (response.headers.getAll setCookie).tail, value.sensitive = true :=
          fun value hvalue => hmarked value (List.mem_of_mem_tail hvalue)
        simpa [hstatus, cookiesSensitive_attachContext] using hrest

namespace Sample

/-- A hook that sets two cookies, of which it may have marked the second. -/
def hook (marked : Bool) : HttpError → Response :=
  fun _ => { status := 400
             headers := [(setCookie, { bytes := utf8 "a=1" }),
               (setCookie, { bytes := utf8 "b=2", sensitive := marked })] }

/-- A router that sets no cookies, which the layers leave as it is. -/
def router (_ : Request) : Response :=
  { status := 200, headers := [] }

def malformed : Request :=
  { headers := [(requestIdHeader, { bytes := utf8 "malformed" })] }

def served (marked : Bool) : Response :=
  apply (fun _ => none) (hook marked) (0, 0) id router malformed

theorem router_marked (request : Request) : CookiesSensitive (id router request) :=
  fun _ hmem => absurd hmem not_mem_nil

end Sample

theorem cookies_sensitive_iff_malformed :
    hookedError (fun _ => none) (0, 0) Sample.router Sample.malformed = some .invalidRequestId ∧
      CookiesSensitive (Sample.served true) := by
  refine ⟨by decide +kernel,
    (cookies_sensitive_iff _ _ _ Sample.router_marked Sample.malformed).mpr ?_⟩
  intro error _
  cases error <;> decide +kernel

/-- A request whose identifier is malformed is answered by the hook, and its second cookie
leaves unmarked. -/
theorem second_cookie_unmarked :
    (∀ request, CookiesSensitive (id Sample.router request)) ∧
      ¬ CookiesSensitive (Sample.served false) := by
  refine ⟨Sample.router_marked, ?_⟩
  unfold CookiesSensitive
  decide +kernel

end PlenoraRuntime.Http
