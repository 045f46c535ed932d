import MultiPartEvent.Errors
import MultiPartEvent.Js.JsonValues
import MultiPartEvent.Retrying

/-!
# Requests to the indexer

`IndexerClient.query` sends a query up to `maxAttempts` times and answers with the data of an
answer or throws.  An attempt ends at one of three places: at the connection, at the status of the
answer, or in its body.  The loop catches what fails at the first and looks at the second; what
goes wrong while the body is read is thrown as it is.

`query_spec` says where the loop stops and with what.  The law of a client that fails in one way
only (`FailsOneWay`) is stated of the attempts alone, and holds exactly when the answer the loop
stops at has a body that can be read.
-/

namespace MultiPartEvent

/-- The kinds of a failed indexer or node request. -/
inductive PublicDataKind where
  | http | graphql | network | shape | notFound | timeout
  deriving DecidableEq

/-- What a request throws. -/
inductive RequestError where
  /-- A `PublicDataError`: its kind and text. -/
  | publicData (kind : PublicDataKind) (detail : JsString)
  /-- Any other exception, by its text. -/
  | uncaught (text : JsString)
  deriving DecidableEq

/-- The body of an answer, as `response.json()` finds it. -/
inductive ResponseBody (β : Type) where
  /-- The connection fails or times out while the body is read. -/
  | breaksOff (text : JsString)
  /-- The body is not JSON. -/
  | notJson (text : JsString)
  /-- The JSON value `null`, of which no property can be read. -/
  | null
  | json (value : β)

/-- The value of a body whose property is read next. -/
def ResponseBody.read {β : Type} (property : JsString) : ResponseBody β → Except RequestError β
  | .breaksOff text => .error (.uncaught text)
  | .notJson text => .error (.uncaught text)
  | .null =>
    .error (.uncaught (js "Cannot read properties of null (reading '" ++ property ++ js "')"))
  | .json value => .ok value

/-- An answer: its status and body. -/
structure Response (β : Type) where
  status : ℕ
  body : ResponseBody β

/-- `response.ok`. -/
def Response.ok {β : Type} (response : Response β) : Bool :=
  200 ≤ response.status && response.status ≤ 299

/-- What comes of one request: the text of the failure to connect, or an answer. -/
abbrev Fetched (β : Type) := Except JsString (Response β)

/-- The body of a GraphQL answer.  A value that is no object has neither property. -/
structure GraphqlBody (α : Type) where
  /-- `errors`, any JSON value, unless it is missing. -/
  errors : Option Json
  /-- `data`, unless it is missing. -/
  data : Option α

/-- `errors.length > 0`, or the text of the `TypeError` it throws.  Numbers and truth values have no
length, and nothing is less than what is missing. -/
def anyErrors : Json → Except JsString Bool
  | .null => .error (js "Cannot read properties of null (reading 'length')")
  | .bool _ | .number _ => .ok false
  | .string s => .ok (s ≠ [])
  | .array items => .ok !items.isEmpty
  | .object members =>
    match member? members (js "length") with
    | none => .ok false
    | some length => length.isPositive

/-- `error.message`, which `join` writes like `null` where it is missing. -/
def errorMessage : Json → Except JsString Json
  | .null => .error (js "Cannot read properties of null (reading 'message')")
  | error => .ok ((error.property (js "message")).getD .null)

/-- `errors.map((error) => error.message).join("; ")`, or the text of the `TypeError` it throws. -/
def errorMessages : Json → Except JsString JsString
  | .array items => items.mapM errorMessage >>= joinItems (js "; ")
  | _ => .error (js "body.errors.map is not a function")

/-- Throw the errors of an answer, if it has any. -/
def throwErrors : Option Json → Except RequestError Unit
  | none => .ok ()
  | some errors => do
    let any ← (anyErrors errors).mapError .uncaught
    if any then
      let messages ← (errorMessages errors).mapError .uncaught
      .error (.publicData .graphql (js "indexer error: " ++ messages))

/-- What `query` makes of the body of an answer. -/
def GraphqlBody.result {α : Type} (body : GraphqlBody α) : Except RequestError α := do
  throwErrors body.errors
  match body.data with
  | none => .error (.publicData .shape (js "indexer returned no data"))
  | some data => .ok data

example : GraphqlBody.result ⟨some (.array [.null]), some 5⟩ =
    .error (.uncaught (js "Cannot read properties of null (reading 'message')")) := by
  rfl

/-- The error of an HTTP status. -/
def httpError (status : ℕ) : RequestError :=
  .publicData .http (js "indexer answered HTTP " ++ decimal status)

/-- What one attempt of `query` comes to: the error to remember for the next attempt, or the
result. -/
def attemptOutcome {α : Type} : Fetched (GraphqlBody α) → RequestError ⊕ Except RequestError α
  | .error reason => .inl (.publicData .network (js "indexer request failed: " ++ reason))
  | .ok response =>
    if response.status = 429 ∨ 500 ≤ response.status then .inl (httpError response.status)
    else if response.ok = false then .inr (.error (httpError response.status))
    else .inr (response.body.read (js "errors") >>= GraphqlBody.result)

/-- A finished `query`: the number of requests it sent, the delays between them in milliseconds,
and its result. -/
structure QueryRun (α : Type) where
  requests : ℕ
  delays : List ℕ
  result : Except RequestError α

/-- The delay before an attempt after the first. -/
def retryDelay (attempt : ℕ) : ℕ := min 10000 (500 * 2 ^ (attempt - 2))

/-- The loop over the attempts, with so many left. -/
def queryLoop {α : Type} (fetch : ℕ → Fetched (GraphqlBody α)) :
    (left attempt : ℕ) → (delays : List ℕ) → (lastError : Option RequestError) → QueryRun α
  | 0, attempt, delays, lastError =>
    ⟨attempt - 1, delays,
      .error (lastError.getD (.publicData .network (js "indexer request failed")))⟩
  | left + 1, attempt, delays, _ =>
    let delays := if 1 < attempt then delays ++ [retryDelay attempt] else delays
    match attemptOutcome (fetch attempt) with
    | .inl err => queryLoop fetch left (attempt + 1) delays (some err)
    | .inr result => ⟨attempt, delays, result⟩

/-- Run one GraphQL query, retrying network errors, HTTP 429 and 5xx.  The attempts are numbered
from one; `fetch` is what comes of each. -/
def query {α : Type} (fetch : ℕ → Fetched (GraphqlBody α)) (maxAttempts : ℕ) : QueryRun α :=
  queryLoop fetch maxAttempts 1 [] none

/-! ### Where the loop stops -/

/-- What the loop goes on after: a failure to connect, HTTP 429, and 5xx with the invalid statuses
beyond, which count as 5xx. -/
def Retried {β : Type} : Fetched β → Prop
  | .error _ => True
  | .ok response => response.status = 429 ∨ 500 ≤ response.status

/-- The result of the loop when this is its last attempt. -/
def lastResult {α : Type} (fetched : Fetched (GraphqlBody α)) : Except RequestError α :=
  match attemptOutcome fetched with
  | .inl err => .error err
  | .inr result => result

section Loop

variable {α : Type}

/-- The loop remembers an error after exactly the attempts it goes on after. -/
lemma attemptOutcome_cases (fetched : Fetched (GraphqlBody α)) :
    (Retried fetched ∧ ∃ err, attemptOutcome fetched = .inl err ∧ lastResult fetched = .error err) ∨
      (¬Retried fetched ∧ attemptOutcome fetched = .inr (lastResult fetched)) := by
  unfold lastResult
  cases fetched with
  | error reason => exact Or.inl ⟨trivial, _, rfl, rfl⟩
  | ok response =>
    by_cases hagain : response.status = 429 ∨ 500 ≤ response.status
    · left
      refine ⟨hagain, httpError response.status, ?_⟩
      simp [attemptOutcome, hagain]
    · right
      refine ⟨hagain, ?_⟩
      by_cases hok : response.ok = false
      · simp [attemptOutcome, hagain, hok]
      · simp [attemptOutcome, hagain, hok]

/-- **The run lemma.**  With attempts left, the loop sends requests up to the last attempt of the
retries and its result is that of this attempt. -/
lemma queryLoop_spec (fetch : ℕ → Fetched (GraphqlBody α)) (left attempt : ℕ) (delays : List ℕ)
    (lastError : Option RequestError) :
    ∃ last, LastAttempt (fun k => Retried (fetch k)) attempt (attempt + left) last ∧
      (queryLoop fetch (left + 1) attempt delays lastError).requests = last ∧
      (queryLoop fetch (left + 1) attempt delays lastError).result = lastResult (fetch last) := by
  induction left generalizing attempt delays lastError with
  | zero =>
    refine ⟨attempt, LastAttempt.at_limit _ _, ?_⟩
    rw [queryLoop]
    rcases attemptOutcome_cases (fetch attempt) with ⟨_, err, houtcome, hresult⟩ | ⟨_, houtcome⟩
    · rw [houtcome, hresult]
      exact ⟨rfl, rfl⟩
    · rw [houtcome]
      exact ⟨rfl, rfl⟩
  | succ left ih =>
    rw [queryLoop]
    rcases attemptOutcome_cases (fetch attempt) with ⟨hagain, err, houtcome, _⟩ | ⟨hstop, houtcome⟩
    · rw [houtcome]
      simp only
      obtain ⟨last, hlast, hspec⟩ := ih (attempt + 1)
        (if 1 < attempt then delays ++ [retryDelay attempt] else delays) (some err)
      refine ⟨last, LastAttempt.next hagain ?_, hspec⟩
      rwa [show attempt + (left + 1) = attempt + 1 + left by omega]
    · rw [houtcome]
      exact ⟨attempt, LastAttempt.stop (by omega) hstop, rfl, rfl⟩

/-- `query` sends requests up to the last attempt of its retries and its result is that of this
attempt. -/
lemma query_spec (fetch : ℕ → Fetched (GraphqlBody α)) {maxAttempts : ℕ}
    (hpositive : 1 ≤ maxAttempts) :
    ∃ last, LastAttempt (fun k => Retried (fetch k)) 1 maxAttempts last ∧
      (query fetch maxAttempts).requests = last ∧
      (query fetch maxAttempts).result = lastResult (fetch last) := by
  obtain ⟨left, rfl⟩ := Nat.exists_eq_add_of_le hpositive
  have hspec := queryLoop_spec fetch left 1 [] none
  rwa [← Nat.add_comm 1 left] at hspec

end Loop

/-! ### Failing in one way only -/

section Law

variable {α : Type}

/-- The attempt fails in the network, while connecting or while the body is read, or is answered
with HTTP 429 or 5xx. -/
def CallsForAnother {β : Type} : Fetched β → Prop
  | .error _ => True
  | .ok response =>
    response.status = 429 ∨ 500 ≤ response.status ∨
      response.ok = true ∧ ∃ text, response.body = .breaksOff text

/-- A value that stands for errors: a list or a text that is not empty, or what has a positive
length. -/
def NamesErrors : Json → Prop
  | .null | .bool _ | .number _ => False
  | .string s => s ≠ []
  | .array items => items ≠ []
  | .object members =>
    ∃ length, member? members (js "length") = some length ∧ length.isPositive = .ok true

/-- An answer carries these data: it is a success without errors. -/
def CarriesData (fetched : Fetched (GraphqlBody α)) (data : α) : Prop :=
  ∃ response body, fetched = .ok response ∧ response.ok = true ∧ response.body = .json body ∧
    (∀ errors, body.errors = some errors → ¬NamesErrors errors) ∧ body.data = some data

/-- How a run of requests goes when it can fail in one way only. -/
structure FailsOneWay (fetch : ℕ → Fetched (GraphqlBody α)) (maxAttempts : ℕ)
    (run : QueryRun α) : Prop where
  /-- Another request is sent exactly when one is called for and attempts remain. -/
  requests : LastAttempt (fun k => CallsForAnother (fetch k)) 1 maxAttempts run.requests
  /-- The result is the data of the first answer that carries it. -/
  returns : ∀ data, run.result = .ok data ↔
    ∃ attempt, 1 ≤ attempt ∧ attempt ≤ run.requests ∧ CarriesData (fetch attempt) data ∧
      ∀ earlier, 1 ≤ earlier → earlier < attempt → ∀ other, ¬CarriesData (fetch earlier) other
  /-- Without data a `PublicDataError` is thrown. -/
  throws : ∀ err, run.result = .error err → ∃ kind detail, err = .publicData kind detail

/-- A value can be read as a list of errors: it has no length, or none that is positive, or it is a
list without `null` whose messages have texts. -/
def ReadsAsErrors : Json → Prop
  | .null => False
  | .bool _ | .number _ => True
  | .string s => s = []
  | .array items => ∀ item ∈ items, ¬item = .null ∧
      ∀ message, item.property (js "message") = some message → message.joinText.isSome = true
  | .object members =>
    ∀ length, member? members (js "length") = some length → length.isPositive = .ok false

/-- The body of a success arrives whole, is JSON and not `null`, and its errors, if it has any, can
be read as such. -/
def Readable (fetched : Fetched (GraphqlBody α)) : Prop :=
  ∀ response, fetched = .ok response → response.ok = true →
    ∃ body, response.body = .json body ∧ ∀ errors, body.errors = some errors → ReadsAsErrors errors

/-- What the loop goes on after calls for another request. -/
lemma Retried.callsForAnother {fetched : Fetched (GraphqlBody α)} (h : Retried fetched) :
    CallsForAnother fetched := by
  cases fetched with
  | error reason => trivial
  | ok response =>
    rcases h with hlimit | hserver
    · exact Or.inl hlimit
    · exact Or.inr (Or.inl hserver)

/-- With a readable body the loop goes on after everything that calls for another request. -/
lemma retried_iff_of_readable {fetched : Fetched (GraphqlBody α)} (hread : Readable fetched) :
    Retried fetched ↔ CallsForAnother fetched := by
  refine ⟨Retried.callsForAnother, ?_⟩
  intro h
  cases fetched with
  | error reason => trivial
  | ok response =>
    rcases h with hlimit | hserver | ⟨hok, text, hbreaks⟩
    · exact Or.inl hlimit
    · exact Or.inr hserver
    · obtain ⟨body, hbody, _⟩ := hread response rfl hok
      rw [hbreaks] at hbody
      cases hbody

/-- What the loop goes on after carries no data. -/
lemma Retried.not_carries {fetched : Fetched (GraphqlBody α)} (h : Retried fetched) (data : α) :
    ¬CarriesData fetched data := by
  intro hcarries
  obtain ⟨response, body, rfl, hok, -⟩ := hcarries
  have hstatus : 200 ≤ response.status ∧ response.status ≤ 299 := by
    simpa [Response.ok] using hok
  have hretried : response.status = 429 ∨ 500 ≤ response.status := h
  omega

/-- The message of an item is read unless the item is `null`. -/
lemma errorMessage_eq_ok {item : Json} (h : ¬item = .null) :
    errorMessage item = .ok ((item.property (js "message")).getD .null) := by
  cases item with
  | null => exact absurd rfl h
  | _ => rfl

/-- Errors that are a list are read when no item is `null` and each message has a text. -/
lemma errorMessages_of_reads {items : List Json} (h : ReadsAsErrors (.array items)) :
    ∃ text, errorMessages (.array items) = .ok text := by
  have hmessages : items.mapM errorMessage =
      .ok (items.map fun item => (item.property (js "message")).getD .null) :=
    mapM_ok fun item hitem => errorMessage_eq_ok (h item hitem).1
  have htexts : (joinTexts (items.map fun item =>
      (item.property (js "message")).getD .null)).isSome = true := by
    refine isSome_joinTexts.mpr fun message hmessage => ?_
    obtain ⟨item, hitem, rfl⟩ := List.mem_map.mp hmessage
    cases hfound : item.property (js "message") with
    | none => rfl
    | some message => exact (h item hitem).2 message hfound
  obtain ⟨texts, htexts⟩ := Option.isSome_iff_exists.mp htexts
  refine ⟨joinWith (js "; ") texts, ?_⟩
  rw [errorMessages, hmessages, ok_bind, joinItems, htexts]

/-- Errors that are a list and are read have no item `null` and texts for all messages. -/
lemma reads_of_errorMessages {items : List Json} {text : JsString}
    (h : errorMessages (.array items) = .ok text) : ReadsAsErrors (.array items) := by
  obtain ⟨messages, hmessages, hjoined⟩ := bind_eq_ok_iff.mp h
  have htexts : ∀ message ∈ messages, message.joinText.isSome = true := by
    rw [← isSome_joinTexts]
    unfold joinItems at hjoined
    cases hsome : joinTexts messages with
    | none =>
      rw [hsome] at hjoined
      cases hjoined
    | some texts => rfl
  intro item hitem
  obtain ⟨message, hmem, hmessage⟩ := exists_right_of_forall₂ (mapM_eq_ok_iff.mp hmessages) hitem
  have hnull : ¬item = .null := by
    rintro rfl
    cases hmessage
  refine ⟨hnull, fun found hfound => ?_⟩
  rw [errorMessage_eq_ok hnull, hfound] at hmessage
  cases hmessage
  exact htexts _ hmem

/-- What can be read as errors is thrown as such, when it names any. -/
lemma throwErrors_of_reads {errors : Json} (h : ReadsAsErrors errors) :
    (throwErrors (some errors) = .ok () ∧ ¬NamesErrors errors) ∨ NamesErrors errors ∧
      ∃ detail, throwErrors (some errors) = .error (.publicData .graphql detail) := by
  cases errors with
  | null => exact h.elim
  | bool value => exact Or.inl ⟨rfl, id⟩
  | number n => exact Or.inl ⟨rfl, id⟩
  | string s =>
    cases (h : s = [])
    exact Or.inl ⟨rfl, fun hne => hne rfl⟩
  | array items =>
    cases items with
    | nil => exact Or.inl ⟨rfl, fun hne => hne rfl⟩
    | cons item items =>
      obtain ⟨text, htext⟩ := errorMessages_of_reads h
      refine Or.inr ⟨List.cons_ne_nil _ _, js "indexer error: " ++ text, ?_⟩
      rw [throwErrors, htext]
      rfl
  | object members =>
    have hnone : anyErrors (.object members) = .ok false := by
      rw [anyErrors]
      cases hlength : member? members (js "length") with
      | none => rfl
      | some length => exact h length hlength
    refine Or.inl ⟨?_, ?_⟩
    · rw [throwErrors, hnone]
      rfl
    · intro hnames
      obtain ⟨length, hlength, hpositive⟩ := hnames
      cases (h length hlength).symm.trans hpositive

/-- What cannot be read as errors makes `query` throw something else. -/
lemma throwErrors_of_not_reads {errors : Json} (h : ¬ReadsAsErrors errors) :
    ∃ text, throwErrors (some errors) = .error (.uncaught text) := by
  cases errors with
  | null => exact ⟨_, rfl⟩
  | bool value => exact absurd trivial h
  | number n => exact absurd trivial h
  | string s =>
    cases s with
    | nil => exact absurd rfl h
    | cons u s => exact ⟨_, rfl⟩
  | array items =>
    cases items with
    | nil => exact absurd (by simp [ReadsAsErrors]) h
    | cons item items =>
      cases hread : errorMessages (.array (item :: items)) with
      | ok text => exact absurd (reads_of_errorMessages hread) h
      | error text =>
        refine ⟨text, ?_⟩
        rw [throwErrors, hread]
        rfl
  | object members =>
    unfold ReadsAsErrors at h
    push Not at h
    obtain ⟨length, hlength, hpositive⟩ := h
    have hany : anyErrors (.object members) = length.isPositive := by
      rw [anyErrors, hlength]
    rw [throwErrors, hany]
    cases hresult : length.isPositive with
    | error text => exact ⟨text, rfl⟩
    | ok positive =>
      cases positive with
      | false => exact absurd hresult hpositive
      | true => exact ⟨_, rfl⟩

/-- What a body returns whose errors can be read. -/
lemma GraphqlBody.result_eq_ok_iff {body : GraphqlBody α}
    (herrors : ∀ errors, body.errors = some errors → ReadsAsErrors errors) {data : α} :
    body.result = .ok data ↔
      (∀ errors, body.errors = some errors → ¬NamesErrors errors) ∧ body.data = some data := by
  rw [GraphqlBody.result, bind_eq_ok_iff]
  have hdata : (match body.data with
      | none => .error (.publicData .shape (js "indexer returned no data"))
      | some data => .ok data : Except RequestError α) = .ok data ↔ body.data = some data := by
    cases body.data <;> simp
  simp only [hdata, exists_and_right]
  refine and_congr_left fun _ => ?_
  cases hfound : body.errors with
  | none => simp [throwErrors]
  | some errors =>
    rcases throwErrors_of_reads (herrors errors hfound) with ⟨hthrown, hnone⟩ | ⟨hany, _, hthrown⟩
    · simp [hthrown, hnone]
    · simp [hthrown, hany]

/-- A body whose errors can be read throws a `PublicDataError`. -/
lemma GraphqlBody.publicData_of_result {body : GraphqlBody α}
    (herrors : ∀ errors, body.errors = some errors → ReadsAsErrors errors) {err : RequestError}
    (h : body.result = .error err) : ∃ kind detail, err = .publicData kind detail := by
  rcases bind_eq_error_iff.mp h with hthrown | ⟨_, -, hdata⟩
  · cases hfound : body.errors with
    | none =>
      rw [hfound] at hthrown
      cases hthrown
    | some errors =>
      rw [hfound] at hthrown
      rcases throwErrors_of_reads (herrors errors hfound) with ⟨hok, -⟩ | ⟨-, detail, herror⟩
      · cases hok.symm.trans hthrown
      · cases herror.symm.trans hthrown
        exact ⟨_, _, rfl⟩
  · cases hfound : body.data with
    | none =>
      rw [hfound] at hdata
      cases hdata
      exact ⟨_, _, rfl⟩
    | some data =>
      rw [hfound] at hdata
      cases hdata

/-- At a success the loop returns what it makes of the body. -/
lemma lastResult_of_ok {response : Response (GraphqlBody α)} (hok : response.ok = true) :
    lastResult (.ok response) = response.body.read (js "errors") >>= GraphqlBody.result := by
  have hstatus : 200 ≤ response.status ∧ response.status ≤ 299 := by
    simpa [Response.ok] using hok
  have hstop : ¬(response.status = 429 ∨ 500 ≤ response.status) := by omega
  simp [lastResult, attemptOutcome, hstop, hok]

/-- At any other status the loop ends with the error of the status. -/
lemma lastResult_of_not_ok {response : Response (GraphqlBody α)} (hok : response.ok = false) :
    lastResult (.ok response) = .error (httpError response.status) := by
  unfold lastResult attemptOutcome
  by_cases hagain : response.status = 429 ∨ 500 ≤ response.status
  · simp [hagain]
  · simp [hagain, hok]

/-- A readable last attempt returns the data it carries. -/
lemma lastResult_eq_ok_iff {fetched : Fetched (GraphqlBody α)} (hread : Readable fetched)
    {data : α} : lastResult fetched = .ok data ↔ CarriesData fetched data := by
  cases fetched with
  | error reason => simp [lastResult, attemptOutcome, CarriesData]
  | ok response =>
    cases hok : response.ok with
    | false =>
      rw [lastResult_of_not_ok hok]
      simp [CarriesData, hok]
    | true =>
      obtain ⟨body, hbody, herrors⟩ := hread response rfl hok
      rw [lastResult_of_ok hok, hbody, ResponseBody.read, ok_bind,
        GraphqlBody.result_eq_ok_iff herrors]
      simp [CarriesData, hok, hbody]

/-- A readable last attempt throws a `PublicDataError` only. -/
lemma publicData_of_lastResult {fetched : Fetched (GraphqlBody α)} (hread : Readable fetched)
    {err : RequestError} (h : lastResult fetched = .error err) :
    ∃ kind detail, err = .publicData kind detail := by
  cases fetched with
  | error reason =>
    cases h
    exact ⟨_, _, rfl⟩
  | ok response =>
    cases hok : response.ok with
    | false =>
      rw [lastResult_of_not_ok hok] at h
      cases h
      exact ⟨_, _, rfl⟩
    | true =>
      obtain ⟨body, hbody, herrors⟩ := hread response rfl hok
      rw [lastResult_of_ok hok, hbody, ResponseBody.read, ok_bind] at h
      exact GraphqlBody.publicData_of_result herrors h

/-- The loop throws something else when it stops at an attempt that is not readable. -/
lemma uncaught_of_not_readable {fetched : Fetched (GraphqlBody α)} (h : ¬Readable fetched) :
    ∃ text, lastResult fetched = .error (.uncaught text) := by
  unfold Readable at h
  push Not at h
  obtain ⟨response, rfl, hok, hbody⟩ := h
  rw [lastResult_of_ok hok]
  cases hfound : response.body with
  | breaksOff text => exact ⟨text, rfl⟩
  | notJson text => exact ⟨text, rfl⟩
  | null => exact ⟨_, rfl⟩
  | json body =>
    obtain ⟨errors, herrors, hreads⟩ := hbody body hfound
    obtain ⟨text, hthrown⟩ := throwErrors_of_not_reads hreads
    refine ⟨text, ?_⟩
    rw [ResponseBody.read, ok_bind, GraphqlBody.result, herrors, hthrown]
    rfl

end Law

/-- **When requests fail in one way only.**  A client with at least one attempt keeps the law
exactly when the answer its loop stops at, if it stops at one, is readable: not a success whose body
breaks off, is not JSON or is `null`, or whose errors cannot be read as such. -/
theorem query_failsOneWay_iff {α : Type} (fetch : ℕ → Fetched (GraphqlBody α)) (maxAttempts : ℕ)
    (hpositive : 1 ≤ maxAttempts) :
    FailsOneWay fetch maxAttempts (query fetch maxAttempts) ↔
      ∀ last, LastAttempt (fun k => Retried (fetch k)) 1 maxAttempts last →
        Readable (fetch last) := by
  obtain ⟨last, hlast, hrequests, hresult⟩ := query_spec fetch hpositive
  constructor
  · intro hlaw last' hlast'
    rw [hlast'.unique hlast]
    by_contra hread
    obtain ⟨text, hthrown⟩ := uncaught_of_not_readable hread
    obtain ⟨kind, detail, hpublic⟩ := hlaw.throws _ (hresult.trans hthrown)
    cases hpublic
  · intro hcondition
    have hread : Readable (fetch last) := hcondition last hlast
    have hearlier : ∀ earlier, 1 ≤ earlier → earlier < last → ∀ other,
        ¬CarriesData (fetch earlier) other :=
      fun earlier hfirst hbefore => (hlast.before earlier hfirst hbefore).not_carries
    constructor
    · rw [hrequests]
      apply hlast.congr
      intro attempt hfirst hwithin
      rcases Nat.lt_or_eq_of_le hwithin with hbefore | rfl
      · have hretried := hlast.before attempt hfirst hbefore
        exact iff_of_true hretried hretried.callsForAnother
      · exact retried_iff_of_readable hread
    · intro data
      rw [hrequests, hresult, lastResult_eq_ok_iff hread]
      constructor
      · intro hdata
        exact ⟨last, hlast.started, le_refl _, hdata, hearlier⟩
      · intro h
        obtain ⟨attempt, hfirst, hwithin, hdata, _⟩ := h
        rcases Nat.lt_or_eq_of_le hwithin with hbefore | rfl
        · exact absurd hdata (hearlier attempt hfirst hbefore data)
        · exact hdata
    · intro err herr
      rw [hresult] at herr
      exact publicData_of_lastResult hread herr

/-- A client that is answered with HTTP 503 and then with data. -/
theorem query_failsOneWay_iff_retried :
    let fetch : ℕ → Fetched (GraphqlBody ℕ) := fun attempt =>
      if attempt = 1 then .ok ⟨503, .breaksOff []⟩ else .ok ⟨200, .json ⟨none, some 7⟩⟩
    (1 ≤ 4 ∧ ∀ last, LastAttempt (fun k => Retried (fetch k)) 1 4 last → Readable (fetch last)) ∧
      FailsOneWay fetch 4 (query fetch 4) := by
  intro fetch
  have hcondition : ∀ last, LastAttempt (fun k => Retried (fetch k)) 1 4 last →
      Readable (fetch last) := by
    intro last hlast response hresponse hok
    by_cases hfirst : last = 1
    · simp only [fetch, hfirst, if_true] at hresponse
      cases hresponse
      cases hok
    · simp only [fetch, hfirst, if_false] at hresponse
      cases hresponse
      exact ⟨_, rfl, nofun⟩
  exact ⟨⟨by decide, hcondition⟩, (query_failsOneWay_iff fetch 4 (by decide)).mpr hcondition⟩

/-- A body that breaks off is not retried, and what it throws escapes. -/
theorem query_breaksOff :
    let fetch : ℕ → Fetched (GraphqlBody ℕ) := fun attempt =>
      if attempt = 1 then .ok ⟨200, .breaksOff (js "terminated")⟩
      else .ok ⟨200, .json ⟨none, some 7⟩⟩
    (query fetch 4).requests = 1 ∧
      (query fetch 4).result = .error (.uncaught (js "terminated")) ∧
      ¬FailsOneWay fetch 4 (query fetch 4) := by
  intro fetch
  refine ⟨rfl, rfl, ?_⟩
  intro hlaw
  obtain ⟨kind, detail, hpublic⟩ := hlaw.throws (.uncaught (js "terminated")) rfl
  cases hpublic

end MultiPartEvent
