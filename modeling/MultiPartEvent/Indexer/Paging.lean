import MultiPartEvent.Indexer.Conversion
import MultiPartEvent.Js.Numbers

/-!
# Following the pages of a contract's events

`IndexerClient.miscEvents` asks for one page after another, each at the offset the pages before it
reached, until a page is short.  The chain goes on while it does: the list the server pages through
may grow between two requests, at its end only.

What has been read after some full pages is then a prefix of the list at every later time
(`PagesRead`).  One request either extends that prefix by a full page or reaches the end of the list
as it is at that request (`pagesRead_next`, `pagesRead_last`); the run lemma `collectPages_outcome`
follows by induction on the fuel.
-/

namespace MultiPartEvent

/-- The block of a served event's transaction. -/
structure RawEventBlock where
  height : ℤ
  hash : JsString

/-- The transaction of a served event. -/
structure RawEventTransaction where
  hash : JsString
  block : Option RawEventBlock

/-- An event as the `contractEvents` query serves it. -/
structure RawEvent where
  typename : JsString
  id : JsNumber
  name : Option JsString
  payload : Option JsString
  raw : Option JsString
  transaction : Option RawEventTransaction

/-- The `Misc` event of a served event, if it is one. -/
def RawEvent.miscEvent? (event : RawEvent) : Option IndexedMiscEvent :=
  if event.typename ≠ js "MiscContractEvent" then none
  else
    some
      { id := event.id
        nameHex := event.name.getD []
        payloadHex := event.payload.getD []
        rawHex := event.raw.getD []
        transactionHash := (event.transaction.map RawEventTransaction.hash).getD []
        blockHeight := ((event.transaction.bind RawEventTransaction.block).map
          RawEventBlock.height).getD (-1)
        blockHash := ((event.transaction.bind RawEventTransaction.block).map
          RawEventBlock.hash).getD [] }

/-- The `Misc` events of a list of served events, in order. -/
def miscEventsOf (events : List RawEvent) : List IndexedMiscEvent :=
  events.filterMap RawEvent.miscEvent?

/-- `MAX_EVENT_PAGE`: the largest page the indexer serves. -/
def maxEventPage : ℕ := 500

/-- The variables of one `contractEvents` query. -/
structure EventsRequest where
  address : JsString
  /-- The transaction filter, if there is one. -/
  transactionHash : Option JsString
  limit : ℕ
  offset : ℕ

/-- Options of `miscEvents`. -/
structure MiscEventsOptions where
  transactionHash : Option JsString
  pageSize : Option JsNumber
  maxEvents : Option JsNumber

/-- The answers of the indexer to the queries of one run, by their number. -/
abbrev EventsQuery := ℕ → EventsRequest → Except JsError (List RawEvent)

/-- Lower case of the ASCII letters; no other letter has a hex digit as its lower case. -/
def asciiLower (u : CodeUnit) : CodeUnit :=
  if 65 ≤ u.val ∧ u.val ≤ 90 then Fin.ofNat 65536 (u.val + 32) else u

/-- The text without a leading `0x`. -/
def dropHexPrefix : JsString → JsString
  | zero :: x :: rest =>
    if zero = charUnit '0' ∧ asciiLower x = charUnit 'x' then rest else zero :: x :: rest
  | text => text

/-- A non-empty hex text in lower case, without a leading `0x`. -/
def normalizeHex (value name : JsString) : Except JsError JsString :=
  let hex := (dropHexPrefix value).map asciiLower
  if hex.all (fun u => hexDigits.contains u) ∧ hex.length % 2 = 0 ∧ hex.length ≠ 0 then .ok hex
  else .error (.rangeError (name ++ js " must be hex"))

/-- The checked variables of the first query. -/
def miscEventsRequest (address : JsString) (options : MiscEventsOptions) :
    Except JsError EventsRequest :=
  match (options.pageSize.getD (.int maxEventPage)).inRange 1 maxEventPage with
  | none => .error (.rangeError (js "pageSize must be 1.." ++ decimal maxEventPage))
  | some pageSize => do
    let address ← normalizeHex address (js "contract address")
    let transactionHash ← options.transactionHash.mapM fun hash =>
      normalizeHex hash (js "transaction hash")
    return ⟨address, transactionHash, pageSize, 0⟩

/-- A query is made exactly for a page size in `1..500`, a hex address and a hex transaction
hash, if one is given. -/
lemma miscEventsRequest_eq_ok_iff {address : JsString} {options : MiscEventsOptions}
    {request : EventsRequest} :
    miscEventsRequest address options = .ok request ↔
      (options.pageSize.getD (.int maxEventPage) = .int request.limit ∧ 1 ≤ request.limit ∧
        request.limit ≤ maxEventPage) ∧
      normalizeHex address (js "contract address") = .ok request.address ∧
      (options.transactionHash.mapM fun hash => normalizeHex hash (js "transaction hash")) =
        .ok request.transactionHash ∧ request.offset = 0 := by
  rw [← JsNumber.inRange_eq_some]
  unfold miscEventsRequest
  cases (options.pageSize.getD (.int maxEventPage)).inRange 1 maxEventPage with
  | none => simp
  | some pageSize =>
    simp only [bind_eq_ok_iff, pure_eq_ok_iff, Option.some.injEq]
    constructor
    · intro h
      obtain ⟨hex, hhex, hash, hhash, rfl⟩ := h
      exact ⟨rfl, hhex, hhash, rfl⟩
    · intro h
      obtain ⟨rfl, hhex, hhash, hoffset⟩ := h
      refine ⟨_, hhex, _, hhash, ?_⟩
      rw [← hoffset]

/-- The refusal of more events than allowed, a `PublicDataError` of kind `shape`. -/
def tooManyEvents (maxEvents : JsNumber) : JsError :=
  .error (js "more than " ++ maxEvents.text ++ js " events; refusing")

/-- The loop over the pages, from the given query and offset on; `none` when the fuel runs out. -/
def collectPages (query : EventsQuery) (request : EventsRequest) (maxEvents : JsNumber) :
    (fuel number offset : ℕ) → (out : List IndexedMiscEvent) →
      Option (Except JsError (List IndexedMiscEvent))
  | 0, _, _, _ => none
  | fuel + 1, number, offset, out =>
    match query number { request with offset } with
    | .error err => some (.error err)
    | .ok page =>
      let collected := out ++ miscEventsOf page
      if maxEvents.below collected.length then some (.error (tooManyEvents maxEvents))
      else if page.length < request.limit then some (.ok collected)
      else collectPages query request maxEvents fuel (number + 1) (offset + request.limit) collected

/-- Largest number of events fetched by default. -/
def defaultMaxEvents : JsNumber := .int 4096

/-- Every `Misc` event of a contract (optionally of one transaction), following pages until a short
page; `none` when the fuel runs out. -/
def miscEvents (query : EventsQuery) (address : JsString) (options : MiscEventsOptions)
    (fuel : ℕ) : Option (Except JsError (List IndexedMiscEvent)) :=
  match miscEventsRequest address options with
  | .error err => some (.error err)
  | .ok request => collectPages query request (options.maxEvents.getD defaultMaxEvents) fuel 0 0 []

/-! ### A list that grows at its end -/

section Growing

variable {lists : ℕ → List RawEvent} {final : List RawEvent}

/-- The list before each query: it grows at its end only and is never more than the final list. -/
structure AppendOnly (lists : ℕ → List RawEvent) (final : List RawEvent) : Prop where
  grows : ∀ number, lists number <+: lists (number + 1)
  within : ∀ number, lists number <+: final

/-- The server answers every query with `list.slice(offset, offset + limit)` of its list. -/
def ServesPages (query : EventsQuery) (lists : ℕ → List RawEvent) : Prop :=
  ∀ number request, query number request =
    .ok (((lists number).drop request.offset).take request.limit)

/-- The list never shrinks. -/
lemma AppendOnly.prefix_of_le (h : AppendOnly lists final) {m n : ℕ} (hle : m ≤ n) :
    lists m <+: lists n := by
  induction n, hle using Nat.le_induction with
  | base => exact List.prefix_refl _
  | succ n _ ih => exact ih.trans (h.grows n)

/-- What has been read before a query: the events up to the offset, all there at that query. -/
structure PagesRead (lists : ℕ → List RawEvent) (number offset : ℕ)
    (out : List IndexedMiscEvent) : Prop where
  reached : offset ≤ (lists number).length
  read : out = miscEventsOf ((lists number).take offset)

/-- Nothing has been read before the first query. -/
lemma pagesRead_start (lists : ℕ → List RawEvent) : PagesRead lists 0 0 [] :=
  ⟨Nat.zero_le _, by simp [miscEventsOf]⟩

section Page

variable {number offset limit : ℕ} {out : List IndexedMiscEvent}

/-- A page and what was read before it are the events up to the end of the page. -/
lemma PagesRead.append_page (h : PagesRead lists number offset out) (limit : ℕ) :
    out ++ miscEventsOf (((lists number).drop offset).take limit) =
      miscEventsOf ((lists number).take (offset + limit)) := by
  unfold miscEventsOf
  rw [h.read, List.take_add, List.filterMap_append]
  rfl

/-- After a full page the next query starts where it ended. -/
lemma PagesRead.next (h : PagesRead lists number offset out) (hlists : AppendOnly lists final)
    (hfull : ¬(((lists number).drop offset).take limit).length < limit) :
    PagesRead lists (number + 1) (offset + limit)
      (out ++ miscEventsOf (((lists number).drop offset).take limit)) := by
  have hreached : offset + limit ≤ (lists number).length := by
    rw [List.length_take, List.length_drop] at hfull
    have := h.reached
    omega
  obtain ⟨appended, happended⟩ := hlists.grows number
  constructor
  · rw [← happended, List.length_append]
    omega
  · rw [h.append_page, ← happended, List.take_append_of_le_length hreached]

/-- A short page ends at the end of the list. -/
lemma PagesRead.last (h : PagesRead lists number offset out)
    (hshort : (((lists number).drop offset).take limit).length < limit) :
    out ++ miscEventsOf (((lists number).drop offset).take limit) =
      miscEventsOf (lists number) := by
  have hend : (lists number).length ≤ offset + limit := by
    rw [List.length_take, List.length_drop] at hshort
    omega
  rw [h.append_page, List.take_of_length_le hend]

end Page

/-- How a run ends: with the `Misc` events of the list at its last query, no more than allowed, or
with the refusal of more. -/
def PagingOutcome (lists : ℕ → List RawEvent) (final : List RawEvent) (maxEvents : JsNumber)
    (result : Option (Except JsError (List IndexedMiscEvent))) : Prop :=
  (∃ events, result = some (.ok events) ∧ events <+: miscEventsOf final ∧
      miscEventsOf (lists 0) <+: events ∧ maxEvents.below events.length = false) ∨
    ∃ collected, result = some (.error (tooManyEvents maxEvents)) ∧
      collected <+: miscEventsOf final ∧ maxEvents.below collected.length = true

/-- **The run lemma.**  From whatever pages were read before, with fuel for the rest of the final
list, the loop ends as a run may end. -/
lemma collectPages_outcome {query : EventsQuery} {request : EventsRequest} {maxEvents : JsNumber}
    (hserves : ServesPages query lists) (hlists : AppendOnly lists final)
    {fuel number offset : ℕ} {out : List IndexedMiscEvent}
    (hread : PagesRead lists number offset out)
    (hfuel : final.length < offset + fuel * request.limit) :
    PagingOutcome lists final maxEvents
      (collectPages query request maxEvents fuel number offset out) := by
  induction fuel generalizing number offset out with
  | zero =>
    have hreached := hread.reached.trans (hlists.within number).length_le
    omega
  | succ fuel ih =>
    unfold collectPages
    rw [hserves number]
    simp only
    split_ifs with hmany hshort
    · right
      refine ⟨_, rfl, ?_, hmany⟩
      rw [hread.append_page]
      exact (((List.take_prefix _ _).trans (hlists.within number)).filterMap _)
    · left
      rw [Bool.not_eq_true] at hmany
      refine ⟨_, rfl, ?_, ?_, hmany⟩
      · rw [hread.last hshort]
        exact (hlists.within number).filterMap _
      · rw [hread.last hshort]
        exact (hlists.prefix_of_le (Nat.zero_le number)).filterMap _
    · apply ih (hread.next hlists hshort)
      rw [Nat.succ_mul] at hfuel
      omega

/-- **Paging neither loses nor repeats an event while the chain grows.**  With fuel for the final
list the run returns, in order, the `Misc` events of a prefix of the final list that holds
everything there at the first query, and no more events than allowed; or it refuses because it
collected more.  When the list does not grow it succeeds exactly when the list has no more `Misc`
events than allowed. -/
theorem miscEvents_append_only {query : EventsQuery} {address : JsString}
    {options : MiscEventsOptions} {request : EventsRequest} {fuel : ℕ}
    (hrequest : miscEventsRequest address options = .ok request)
    (hserves : ServesPages query lists) (hlists : AppendOnly lists final)
    (hfuel : final.length / request.limit < fuel) :
    PagingOutcome lists final (options.maxEvents.getD defaultMaxEvents)
      (miscEvents query address options fuel) ∧
    ((∀ number, lists number = final) →
      ((∃ events, miscEvents query address options fuel = some (.ok events)) ↔
        (options.maxEvents.getD defaultMaxEvents).below (miscEventsOf final).length = false)) := by
  have hpositive : 0 < request.limit := (miscEventsRequest_eq_ok_iff.mp hrequest).1.2.1
  have houtcome : PagingOutcome lists final (options.maxEvents.getD defaultMaxEvents)
      (miscEvents query address options fuel) := by
    unfold miscEvents
    rw [hrequest]
    apply collectPages_outcome hserves hlists (pagesRead_start lists)
    rw [Nat.zero_add]
    exact (Nat.div_lt_iff_lt_mul hpositive).mp hfuel
  refine ⟨houtcome, ?_⟩
  intro hsame
  rcases houtcome with ⟨events, hresult, hprefix, hfirst, hfew⟩ |
      ⟨collected, hresult, hprefix, hmany⟩
  · rw [hsame 0] at hfirst
    have hall : events = miscEventsOf final := hprefix.eq_of_length_le hfirst.length_le
    rw [← hall]
    exact iff_of_true ⟨events, hresult⟩ hfew
  · refine iff_of_false ?_ ?_
    · intro h
      obtain ⟨events, hevents⟩ := h
      rw [hresult] at hevents
      cases hevents
    · rw [Bool.not_eq_false]
      exact JsNumber.below_mono hprefix.length_le hmany

/-- A server whose list grows from one `Misc` event to two after the first query, read with pages of
one event. -/
theorem miscEvents_append_only_grown :
    let event : ℤ → RawEvent := fun id => ⟨js "MiscContractEvent", .int id, none, none, none, none⟩
    let lists : ℕ → List RawEvent := fun number =>
      if number = 0 then [event 3] else [event 3, event 4]
    let query : EventsQuery := fun number request =>
      .ok (((lists number).drop request.offset).take request.limit)
    PagingOutcome lists [event 3, event 4] (.int 2)
      (miscEvents query (js "0xAA") ⟨none, some (.int 1), some (.int 2)⟩ 3) := by
  intro event lists query
  have hrequest : miscEventsRequest (js "0xAA") ⟨none, some (.int 1), some (.int 2)⟩ =
      .ok ⟨js "aa", none, 1, 0⟩ := by rfl
  have hlists : AppendOnly lists [event 3, event 4] := by
    constructor
    · intro number
      by_cases hfirst : number = 0
      · simp [lists, hfirst]
      · simp [lists, hfirst]
    · intro number
      by_cases hfirst : number = 0
      · simp [lists, hfirst]
      · simp [lists, hfirst]
  exact (miscEvents_append_only hrequest (fun _ _ => rfl) hlists (by decide)).1

end Growing

end MultiPartEvent
