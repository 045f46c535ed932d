import MultiPartEvent.Js.JsonReader
import MultiPartEvent.Js.Numbers
import MultiPartEvent.Semaphore
import MultiPartEvent.Transitions

/-!
# The requests to the proof server

`limitedProvingEndpoint` lets a bounded number of requests run at once and repeats those that fail
for a reason that has nothing to do with them.  It is a transition system (`proverStep`) whose steps
are the pieces of the source between two `await`s: a call, the resumption of a caller that waited,
the continuation of a request that has settled, that of the limited call in the retry loop, and the
end of a delay.  No order of these pieces is assumed, so the runs include all those of the microtask
queue.

The state keeps the variables of the limiter (`Semaphore`) and those of each call.  The delays
themselves and the retry events only reach the functions of the caller, and are left out.
-/

namespace MultiPartEvent

/-! ### Retryable errors -/

/-- A value thrown by an endpoint, as far as the retries read it. -/
structure ProofError where
  /-- The `message` of an `Error`, and `String(error)` of anything else. -/
  message : JsString
  /-- The `code` of the value, where it is a string, then those of its chain of causes. -/
  codes : List (Option JsString)
  deriving DecidableEq

/-- `RETRYABLE_STATUS`. -/
def retryableStatus : List ℕ := [408, 429, 502, 504]

/-- `RETRYABLE_CODES`. -/
def retryableCodes : List JsString :=
  [js "ECONNRESET", js "ECONNREFUSED", js "EPIPE", js "ETIMEDOUT", js "ECONNABORTED",
    js "EAI_AGAIN", js "UND_ERR_SOCKET", js "UND_ERR_CONNECT_TIMEOUT"]

/-- The loop of `errorCode`, at this depth from its end. -/
def errorCodeFrom : ℕ → List (Option JsString) → Option JsString
  | 0, _ => none
  | _, [] => none
  | _ + 1, some code :: _ => some code
  | depth + 1, none :: causes => errorCodeFrom depth causes

/-- The first code that is a string, of the error and three causes. -/
def errorCode (error : ProofError) : Option JsString := errorCodeFrom 4 error.codes

/-- `/code="(\d{3})"/` at the beginning of a text: the digits. -/
def matchStatus (text : JsString) : Option JsString :=
  let digits := (text.drop 6).take 3
  if js "code=\"" <+: text ∧ digits.length = 3 ∧ digits.all isDigitUnit ∧
    js "\"" <+: text.drop 9 then some digits
  else none

/-- `/code="(\d{3})"/.exec(message)?.[1]`: the digits of the first match. -/
def execStatus : JsString → Option JsString
  | [] => none
  | u :: rest =>
    match matchStatus (u :: rest) with
    | some digits => some digits
    | none => execStatus rest

/-- A capital ASCII letter as a small one: what an expression with the flag `i` does not
distinguish. -/
def foldUnit (u : CodeUnit) : CodeUnit := if 65 ≤ u.val ∧ u.val ≤ 90 then u + 32 else u

/-- `/pattern/i.test(text)` of a pattern of small letters. -/
def testIgnoringCase (pattern text : JsString) : Bool :=
  (text.map foldUnit).tails.any fun rest => pattern.isPrefixOf rest

/-- Whether a failed proof-server request may be retried: a short public reason when it is. -/
def retryableProofError (error : ProofError) : Option JsString :=
  match execStatus error.message with
  | some status =>
    if digitsNumber status ∈ retryableStatus then some (js "HTTP " ++ status) else none
  | none =>
    match (errorCode error).filter fun code => code ∈ retryableCodes with
    | some code => some code
    | none =>
      if [js "socket hang up", js "econnreset", js "epipe", js "other side closed"].any
          (testIgnoringCase · error.message) then
        some (js "connection reset")
      else none

example : retryableProofError
    ⟨js "Failed Proof Server response: url=\"u\", code=\"408\", status=\"s\"", [some (js "X")]⟩ =
      some (js "HTTP 408") := by
  decide +kernel

example : retryableProofError ⟨js "invalid proof input", [none, some (js "EPIPE")]⟩ =
    some (js "EPIPE") := by
  decide +kernel

/-! ### The calls -/

/-- What the endpoint does with one request. -/
inductive Answer (ρ : Type*) where
  /-- Its promise resolves. -/
  | resolves (result : ρ)
  /-- Its promise rejects. -/
  | rejects (error : ProofError)
  /-- It throws before it returns a promise. -/
  | throws (error : ProofError)

/-- What `await task()` gives. -/
def Answer.outcome {ρ : Type*} : Answer ρ → Except ProofError ρ
  | .resolves result => .ok result
  | .rejects error => .error error
  | .throws error => .error error

/-- The request fails, and may be retried. -/
def Answer.Retryable {ρ : Type*} (answer : Answer ρ) : Prop :=
  ∃ error, answer.outcome = .error error ∧ retryableProofError error ≠ none

/-- Where a call of `check` or `prove` is. -/
inductive Progress (ρ : Type*) where
  /-- At `await run(request)`, and the limiter has not ended it. -/
  | limited
  /-- At `await run(request)`, and the limiter has ended it. -/
  | returned (outcome : Except ProofError ρ)
  /-- At `await sleep(delayMs)`. -/
  | sleeping
  /-- It has returned or thrown. -/
  | settled (outcome : Except ProofError ρ)

/-- The variables of one call of `check` or `prove`. -/
structure ProofRequest (ρ : Type*) where
  /-- `attempt`. -/
  attempt : ℕ
  /-- How often it has invoked its endpoint. -/
  invocations : ℕ
  progress : Progress ρ

/-- The limiter, and the calls by their numbers. -/
structure ProverState (ρ : Type*) where
  slots : Semaphore ℕ
  requests : List (ProofRequest ρ)

/-- Nothing has been called. -/
def ProverState.start {ρ : Type*} : ProverState ρ := ⟨.empty, []⟩

section Step

variable {ρ : Type*} (max maxAttempts : ℕ) (endpoint : ℕ → ℕ → Answer ρ)

/-- `active += 1` and the start of the request; one that throws at once goes through the `finally`
block. -/
def ProverState.begin (s : ProverState ρ) (call : ℕ) (request : ProofRequest ρ) : ProverState ρ :=
  let invoked := { request with invocations := request.invocations + 1 }
  match endpoint call request.attempt with
  | .throws error =>
    { slots := (s.slots.take call).leave call
      requests := s.requests.set call { invoked with progress := .returned (.error error) } }
  | _ => { slots := s.slots.take call, requests := s.requests.set call invoked }

/-- `run(request)`: wait while all slots are taken. -/
def ProverState.run (s : ProverState ρ) (call : ℕ) (request : ProofRequest ρ) : ProverState ρ :=
  if max ≤ s.slots.active then
    { slots := s.slots.wait call, requests := s.requests.set call request }
  else s.begin endpoint call request

/-- The retry loop after `await run(request)`: return, throw, or sleep before another attempt. -/
def ProofRequest.caught (request : ProofRequest ρ) (outcome : Except ProofError ρ) :
    ProofRequest ρ :=
  match outcome with
  | .ok result => { request with progress := .settled (.ok result) }
  | .error error =>
    if retryableProofError error = none ∨ request.attempt ≥ maxAttempts then
      { request with progress := .settled (.error error) }
    else { request with progress := .sleeping }

/-- What happens next. -/
inductive ProverAction where
  /-- `check` or `prove` is called. -/
  | call
  /-- A woken caller resumes. -/
  | resume (call : ℕ)
  /-- The request of a call has settled: the `finally` block runs. -/
  | complete (call : ℕ)
  /-- The retry loop goes on after `await run(request)`. -/
  | proceed (call : ℕ)
  /-- The delay of a call is over. -/
  | slept (call : ℕ)
  deriving DecidableEq

/-- The state after an action, where it is possible.  The endpoint's answers are given by the number
of the call and that of the attempt. -/
def proverStep (s : ProverState ρ) : ProverAction → Option (ProverState ρ)
  | .call =>
    let request := ⟨1, 0, .limited⟩
    let called := { s with requests := s.requests ++ [request] }
    some (called.run max endpoint s.requests.length request)
  | .resume call =>
    if call ∈ s.slots.woken then
      (s.requests[call]?).map fun request =>
        ProverState.begin endpoint { s with slots := s.slots.resumed call } call request
    else none
  | .complete call =>
    if call ∈ s.slots.holding then
      (s.requests[call]?).map fun request =>
        { slots := s.slots.leave call
          requests := s.requests.set call
            { request with progress := .returned (endpoint call request.attempt).outcome } }
    else none
  | .proceed call =>
    (s.requests[call]?).bind fun request =>
      match request.progress with
      | .returned outcome =>
        some { s with requests := s.requests.set call (request.caught maxAttempts outcome) }
      | _ => none
  | .slept call =>
    (s.requests[call]?).bind fun request =>
      match request.progress with
      | .sleeping =>
        some (s.run max endpoint call
          { request with attempt := request.attempt + 1, progress := .limited })
      | _ => none

end Step

end MultiPartEvent
