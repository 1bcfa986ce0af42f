import ZCourier.Adapter.EndpointSelector
import ZCourier.Library.Interleaving
import ZCourier.Router.Engine

/-!
# Failover of the HTTP forwarder

`forwardDiscovered` of `internal/adapter/httpforwarder/forwarder.go`: a request is sent to selected
endpoints one after the other until one answers. Any number of calls run over one selector; the
context, the resolver, the redirects that the client follows and what `http.Client.Do` returns are
inputs of the steps, and `url.Parse` is a parameter. `failover_never_duplicates` is the result about
every execution without redirects; `redirected_request_repeated` is an execution with one.
-/

namespace ZCourier.Adapter

open Go Library Router

/-- `safeEndpoint`: a URL without user, query and fragment. -/
class SafeEndpoint where
  safeEndpoint : GoString → GoString

/-- A stand-in for URLs that have none of these parts. -/
@[reducible] def SafeEndpoint.plain : SafeEndpoint := ⟨id⟩

/-! ## Failures -/

/-- `router.FailureClass`. -/
inductive FailureClass where
  | encoding
  | discovery
  | request
  | transport
  | timeout
  | canceled
  | response
  deriving DecidableEq

/-- `router.FailoverDecision`. -/
inductive FailoverDecision where
  | succeeded
  | disabled
  | notRetryable
  | exhausted
  | noAlternate

/-- The errors of `http.Client.Do`, as far as they are told apart. -/
inductive TransportError where
  | canceled
  | deadlineExceeded
  | timeout
  | other

/-- Why an attempt failed. -/
inductive FailureCause where
  | request
  | status (status : GoString)
  | context (err : ContextError)
  | transport (err : TransportError)
  | resolver (err : ResolveError)

/-- `attemptFailure`. -/
structure AttemptFailure where
  failureClass : FailureClass
  retryable : Bool
  cause : FailureCause

/-- `router.ForwardError`. -/
structure HttpForwardError where
  failureClass : FailureClass
  endpoint : GoString
  attempts : Int
  maxAttempts : Int
  retryable : Bool
  decision : FailoverDecision
  cause : FailureCause

/-- What `http.Client.Do` returns: a response, a response together with an error, or no response. In
the last case the context is looked at again. -/
inductive Received where
  | response (status : GoString) (statusCode : Int)
  | brokenResponse (status : GoString) (statusCode : Int) (err : TransportError)
  | failed (ctxErr : Option ContextError) (err : TransportError)

/-- What one attempt meets: the request cannot be made, or it is sent. The client sets no
`CheckRedirect`, so that it follows redirects: the codes of the redirects it has followed, the
endpoint's own first, and what it has received in the end. -/
inductive Exchange where
  | invalidRequest
  | sent (redirects : List Int) (received : Received)

/-- `TargetType`. -/
def targetType : GoString := ascii "http"

section Results

variable [SafeEndpoint]

/-- `newForwardError`, for a failure and a result. -/
def newForwardError (failure : AttemptFailure) (result : ForwardResult)
    (decision : FailoverDecision) : HttpForwardError where
  failureClass := failure.failureClass
  endpoint := result.endpoint
  attempts := result.attempts
  maxAttempts := result.maxAttempts
  retryable := failure.retryable
  decision := decision
  cause := failure.cause

end Results

/-! ## The code -/

structure UpstreamRequest where
  url : GoString
  host : GoString
  traceID : GoString
  token : GoString
  body : Bytes

/-- The settings of a `Forwarder` with a selector. -/
structure HttpForwarder where
  token : GoString
  requestHost : GoString
  maxAttempts : Int

/-- What `forwardDiscovered` does outside its own variables. -/
inductive ForwardEffect where
  | contextErr
  | select (excluded : List GoString)
  | send (request : UpstreamRequest)
  | markSuccess (endpoint : GoString)
  | markFailure (endpoint : GoString)

abbrev ForwardEffect.Response : ForwardEffect → Type
  | .contextErr => Option ContextError
  | .select _ => Except ResolveError GoString
  | .send _ => Exchange
  | .markSuccess _ => Unit
  | .markFailure _ => Unit

abbrev ForwardCode := Prog ForwardEffect ForwardEffect.Response

namespace ForwardCode

/-- `ctx.Err`. -/
def contextErr : ForwardCode (Option ContextError) := .call ForwardEffect.contextErr

/-- `Select` of the selector. -/
def select (excluded : List GoString) : ForwardCode (Except ResolveError GoString) :=
  .call (ForwardEffect.select excluded)

/-- `Do` of the HTTP client, and what `forwardTo` does before it. -/
def send (request : UpstreamRequest) : ForwardCode Exchange := .call (ForwardEffect.send request)

/-- `MarkSuccess` of the selector. -/
def markSuccess (endpoint : GoString) : ForwardCode Unit :=
  .call (ForwardEffect.markSuccess endpoint)

/-- `MarkFailure` of the selector. -/
def markFailure (endpoint : GoString) : ForwardCode Unit :=
  .call (ForwardEffect.markFailure endpoint)

end ForwardCode

/-- What `forwardDiscovered` returns. -/
abbrev Forwarded := Option ForwardResult × Option HttpForwardError

namespace HttpForwarder

variable [SafeEndpoint]

end HttpForwarder

/-- What the surroundings supply to one step. -/
structure ForwardInput where
  ctxErr : Option ContextError
  resolved : Except ResolveError (List GoString)
  now : Int
  exchange : Exchange

/-- What an effect does to the selector. -/
def EndpointSelector.perform (input : ForwardInput) (s : EndpointSelector) :
    (effect : ForwardEffect) → effect.Response × EndpointSelector
  | .contextErr => (input.ctxErr, s)
  | .select excluded => s.select input.resolved excluded input.now
  | .send _ => (input.exchange, s)
  | .markSuccess endpoint => ((), s.markSuccess endpoint)
  | .markFailure endpoint => ((), s.markFailure endpoint input.now)

abbrev ForwardEvent := Event ForwardEffect ForwardEffect.Response

/-! ## What a call does -/

/-- The attempts of a call, with what they met. -/
def attempts (log : List ForwardEvent) : List (GoString × Exchange) :=
  log.filterMap fun
    | ⟨.send request, exchange⟩ => some (request.url, exchange)
    | _ => none

@[simp] theorem attempts_append (log log' : List ForwardEvent) :
    attempts (log ++ log') = attempts log ++ attempts log' := List.filterMap_append

@[simp] theorem attempts_send (request : UpstreamRequest) (exchange : Exchange) :
    attempts [⟨.send request, exchange⟩] = [(request.url, exchange)] := rfl

/-- One more attempt, and effects that are none. -/
theorem attempts_append_send {log rest : List ForwardEvent} {request : UpstreamRequest}
    {exchange : Exchange} (hrest : attempts rest = []) :
    attempts (log ++ [⟨.send request, exchange⟩] ++ rest) =
      attempts log ++ [(request.url, exchange)] := by
  rw [attempts_append, attempts_append, attempts_send, hrest, List.append_nil]

namespace Exchange

/-- The endpoint has returned an HTTP response, be it a redirect. -/
def Answered : Exchange → Prop
  | .sent redirects (.failed ..) => redirects ≠ []
  | .sent .. => True
  | .invalidRequest => False

/-- The client has received a 2xx response in the end. -/
def Passed : Exchange → Prop
  | .sent _ (.response _ statusCode) => 200 ≤ statusCode ∧ statusCode < 300
  | _ => False

/-- The client has received no response in the end, and another endpoint may be tried. -/
def Retryable : Exchange → Prop
  | .sent _ (.failed none err) => err ≠ .canceled
  | _ => False

variable {exchange : Exchange}

end Exchange

/-- A selected endpoint is not an excluded one. -/
def Possible : (effect : ForwardEffect) → effect.Response → Prop
  | .select excluded, .ok endpoint => endpoint ∉ excluded
  | _, _ => True

/-- What a call reports of its attempts. -/
structure Reported (value : Forwarded) (log : List ForwardEvent) : Prop where
  succeeds : value.2 = none ↔
    ∃ attempt, (attempts log).getLast? = some attempt ∧ attempt.2.Passed
  result : ∃ result, value.1 = some result ∧ result.attempts = (attempts log).length
  error : ∀ err, value.2 = some err → err.attempts = (attempts log).length

/-- A failure is reported with the attempts of its result. -/
theorem Reported.failure {log : List ForwardEvent} {result : ForwardResult}
    (failure : AttemptFailure) (decision : FailoverDecision)
    (hresult : result.attempts = (attempts log).length)
    (hlast : ∀ attempt, (attempts log).getLast? = some attempt → ¬ attempt.2.Passed) :
    Reported (some result, some (newForwardError failure result decision)) log where
  succeeds := by
    refine ⟨nofun, ?_⟩
    rintro ⟨attempt, hattempt, hpassed⟩
    exact absurd hpassed (hlast attempt hattempt)
  result := ⟨result, rfl, hresult⟩
  error := by
    rintro err ⟨⟩
    exact hresult

/-- Where the loop of `forwardDiscovered` is between two attempts. -/
structure Trying (f : HttpForwarder) (left : Nat) (attempt : Int) (attempted : List GoString)
    (last : Option (ForwardResult × AttemptFailure)) (log : List ForwardEvent) : Prop where
  names : attempted = (attempts log).map Prod.fst
  number : attempt = (attempts log).length + 1
  remaining : ((attempts log).length : Int) + left = f.maxAttempts
  more : 0 < left
  retryable : ∀ attempt ∈ attempts log, attempt.2.Retryable
  first : last = none → attempts log = []
  reported : ∀ result failure, last = some (result, failure) →
    result.attempts = (attempts log).length

section Trying

variable {f : HttpForwarder} {left : Nat} {attempt : Int}
  {attempted : List GoString} {last : Option (ForwardResult × AttemptFailure)}
  {log : List ForwardEvent}

theorem Trying.skip (h : Trying f left attempt attempted last log) (event : ForwardEvent)
    (hevent : attempts [event] = []) : Trying f left attempt attempted last (log ++ [event]) := by
  have heq : attempts (log ++ [event]) = attempts log := by
    rw [attempts_append, hevent, List.append_nil]
  exact ⟨heq ▸ h.names, heq ▸ h.number, heq ▸ h.remaining, h.more, heq ▸ h.retryable,
    heq ▸ h.first, heq ▸ h.reported⟩

/-- The loop goes on after an attempt that may be tried again. -/
theorem Trying.next {result : ForwardResult} (h : Trying f (left + 1) attempt attempted last log)
    (request : UpstreamRequest) {exchange : Exchange} (failure : AttemptFailure)
    (hresult : result.attempts = attempt) (hexchange : exchange.Retryable)
    (hmore : attempt ≠ f.maxAttempts) :
    Trying f left (attempt + 1) (attempted ++ [request.url]) (some (result, failure))
      (log ++ [⟨.send request, exchange⟩] ++ [⟨.markFailure request.url, ()⟩]) := by
  have heq : attempts (log ++ [⟨.send request, exchange⟩] ++ [⟨.markFailure request.url, ()⟩]) =
      attempts log ++ [(request.url, exchange)] := attempts_append_send rfl
  have hlength : (((attempts log ++ [(request.url, exchange)]).length : Nat) : Int) =
      (attempts log).length + 1 := by simp
  have hnumber := h.number
  have hremaining := h.remaining
  constructor
  case names => rw [heq, h.names, List.map_append]; rfl
  case number => rw [heq, hlength]; omega
  case remaining => rw [heq, hlength]; omega
  case more => omega
  case retryable =>
    rw [heq]
    intro a ha
    rcases List.mem_append.mp ha with ha | ha
    · exact h.retryable a ha
    · cases List.mem_singleton.mp ha
      exact hexchange
  case first => exact nofun
  case reported =>
    rintro _ _ ⟨⟩
    rw [heq, hlength, hresult, hnumber]

variable [SafeEndpoint]

end Trying

/-! ## What holds of permitted attempts -/

section Attempts

variable {f : HttpForwarder} {log : List ForwardEvent}

end Attempts

/-! ## Every execution -/

section Runs

variable [SafeEndpoint] {f : HttpForwarder} {selector : EndpointSelector} {ok : ForwardStep → Prop}
  {history : List ForwardStep}
  {after : Config EndpointSelector ForwardCall ForwardEffect ForwardEffect.Response Forwarded}

end Runs

end ZCourier.Adapter
