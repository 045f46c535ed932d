import MultiPartEvent.Indexer.Paging

/-!
# When following the pages ends

The loop of `IndexerClient.miscEvents` has no bound of its own.  It ends at a short page, or when
the cap on the collected events refuses more; but what is not a `MiscContractEvent` is skipped
before it is counted.  Against a sequence of pages that keep no rule, the run therefore ends within
some number of requests exactly when one of these pages is short or their `Misc` events are too
many (`collectPages_stops_iff`).  A server that honours the type filter always gets there, one
whose full pages hold other events never does.
-/

namespace MultiPartEvent

/-- A server that answers with these pages, one after another, whatever it is asked. -/
def answering (pages : ℕ → List RawEvent) : EventsQuery := fun number _ => .ok (pages number)

/-- `miscEvents` returns or refuses after at most this many page requests: each takes one unit of
fuel. -/
def StopsWithin (pages : ℕ → List RawEvent) (address : JsString) (options : MiscEventsOptions)
    (requests : ℕ) : Prop :=
  miscEvents (answering pages) address options requests ≠ none

/-- One of the pages from `number` on is short, or together they hold more `Misc` events than
`room`. -/
def EndsPaging (pages : ℕ → List RawEvent) (limit : ℕ) (number count room : ℕ) : Prop :=
  (∃ i, i < count ∧ (pages (number + i)).length < limit) ∨
    room < (miscEventsOf ((List.range' number count).flatMap pages)).length

section Ends

variable {pages : ℕ → List RawEvent} {limit number count room : ℕ}

/-- No pages end nothing. -/
lemma not_endsPaging_zero : ¬EndsPaging pages limit number 0 room := by
  unfold EndsPaging
  simp [miscEventsOf]

/-- A short page ends the paging. -/
lemma endsPaging_of_short (hshort : (pages number).length < limit) :
    EndsPaging pages limit number (count + 1) room :=
  Or.inl ⟨0, Nat.succ_pos count, hshort⟩

/-- Too many events on the first page end the paging. -/
lemma endsPaging_of_many (hmany : room < (miscEventsOf (pages number)).length) :
    EndsPaging pages limit number (count + 1) room := by
  apply Or.inr
  rw [List.range'_succ, List.flatMap_cons]
  unfold miscEventsOf at hmany ⊢
  rw [List.filterMap_append, List.length_append]
  omega

/-- After a full page that leaves room, the pages after it have to end the paging. -/
lemma endsPaging_succ (hfull : ¬(pages number).length < limit) :
    EndsPaging pages limit number (count + 1) room ↔
      EndsPaging pages limit (number + 1) count (room - (miscEventsOf (pages number)).length) ∨
        room < (miscEventsOf (pages number)).length := by
  unfold EndsPaging miscEventsOf
  rw [List.range'_succ, List.flatMap_cons, List.filterMap_append, List.length_append]
  constructor
  · intro h
    rcases h with ⟨i, hi, hshort⟩ | hmany
    · cases i with
      | zero => exact absurd hshort hfull
      | succ i =>
        refine Or.inl (Or.inl ⟨i, by omega, ?_⟩)
        rwa [show number + 1 + i = number + (i + 1) by omega]
    · omega
  · intro h
    rcases h with (⟨i, hi, hshort⟩ | hmany) | hmany
    · refine Or.inl ⟨i + 1, by omega, ?_⟩
      rwa [show number + (i + 1) = number + 1 + i by omega]
    · right
      omega
    · right
      omega

/-- Pages of `Misc` events only, of any length, end the paging once they could hold more than the
room. -/
lemma endsPaging_of_filtered
    (hmisc : ∀ i, ∀ event ∈ pages i, event.typename = js "MiscContractEvent")
    (hroom : room < count * limit) : EndsPaging pages limit number count room := by
  by_cases hshort : ∃ i, i < count ∧ (pages (number + i)).length < limit
  · exact Or.inl hshort
  · right
    have hall : ∀ events : List RawEvent,
        (∀ event ∈ events, event.typename = js "MiscContractEvent") →
          (miscEventsOf events).length = events.length := by
      intro events hevents
      rw [miscEventsOf, List.length_filterMap_eq_countP, List.countP_eq_length]
      intro event hevent
      simp [RawEvent.miscEvent?, hevents event hevent]
    have hfull : ∀ n, n ∈ List.range' number count → limit ≤ (pages n).length := by
      intro n hn
      obtain ⟨i, hi, rfl⟩ := List.mem_range'.mp hn
      by_contra hlt
      exact hshort ⟨i, hi, by rw [Nat.one_mul] at hlt; omega⟩
    rw [hall]
    · rw [List.length_flatMap]
      calc room < count * limit := hroom
        _ = ((List.range' number count).map fun _ => limit).sum := by simp
        _ ≤ ((List.range' number count).map fun n => (pages n).length).sum :=
            List.sum_le_sum hfull
    · intro event hevent
      obtain ⟨n, _, hn⟩ := List.mem_flatMap.mp hevent
      exact hmisc n event hn

end Ends

/-- **The run lemma.**  With what was collected still within the cap, the loop ends on its fuel
exactly when the pages it can still request end the paging. -/
lemma collectPages_stops_iff {pages : ℕ → List RawEvent} {request : EventsRequest}
    {maxEvents fuel number offset : ℕ} {out : List IndexedMiscEvent}
    (hroom : out.length ≤ maxEvents) :
    collectPages (answering pages) request (.int maxEvents) fuel number offset out ≠ none ↔
      EndsPaging pages request.limit number fuel (maxEvents - out.length) := by
  induction fuel generalizing number offset out with
  | zero => exact iff_of_false (not_not_intro rfl) not_endsPaging_zero
  | succ fuel ih =>
    unfold collectPages answering
    simp only
    split_ifs with hmany hshort
    · apply iff_of_true (Option.some_ne_none _)
      rw [JsNumber.below_int, List.length_append, Nat.cast_lt] at hmany
      apply endsPaging_of_many
      omega
    · exact iff_of_true (Option.some_ne_none _) (endsPaging_of_short hshort)
    · rw [JsNumber.below_int, List.length_append, Nat.cast_lt, not_lt] at hmany
      rw [← List.length_append] at hmany
      have hnext := @ih (number + 1) (offset + request.limit) _ hmany
      unfold answering at hnext
      rw [hnext, endsPaging_succ hshort, List.length_append, Nat.sub_sub]
      rw [List.length_append] at hmany
      have hleaves : ¬maxEvents - out.length < (miscEventsOf (pages number)).length := by omega
      simp only [hleaves, or_false]

/-- `miscEvents` stops within some number of requests exactly when it makes none or the pages end
the paging. -/
lemma stopsWithin_iff {pages : ℕ → List RawEvent} {address : JsString}
    {transactionHash : Option JsString} {pageSize maxEvents requests : ℕ} :
    StopsWithin pages address ⟨transactionHash, some (.int pageSize), some (.int maxEvents)⟩
        requests ↔
      (∃ err, miscEventsRequest address
        ⟨transactionHash, some (.int pageSize), some (.int maxEvents)⟩ = .error err) ∨
      EndsPaging pages pageSize 0 requests maxEvents := by
  unfold StopsWithin miscEvents
  split
  next err herr => exact iff_of_true (Option.some_ne_none _) (Or.inl ⟨err, herr⟩)
  next request hrequest =>
    have hlimit : request.limit = pageSize := by
      have hsize := (miscEventsRequest_eq_ok_iff.mp hrequest).1.1
      simpa using hsize.symm
    have hruns : ¬∃ err, miscEventsRequest address
        ⟨transactionHash, some (.int pageSize), some (.int maxEvents)⟩ = .error err := by
      intro h
      obtain ⟨err, herr⟩ := h
      rw [hrequest] at herr
      cases herr
    rw [Option.getD_some, collectPages_stops_iff (Nat.zero_le maxEvents), hlimit]
    simp [hruns]

/-- **When paging ends.**  A run with pages of `pageSize` events and a cap of `maxEvents` stops
within `maxEvents / pageSize + 2` requests exactly when it makes no request at all, or one of that
many pages is short, or they hold more `Misc` events than the cap. -/
theorem miscEvents_stops_iff (pages : ℕ → List RawEvent) (address : JsString)
    (transactionHash : Option JsString) (pageSize maxEvents : ℕ) :
    StopsWithin pages address ⟨transactionHash, some (.int pageSize), some (.int maxEvents)⟩
        (maxEvents / pageSize + 2) ↔
      (∃ err, miscEventsRequest address
        ⟨transactionHash, some (.int pageSize), some (.int maxEvents)⟩ = .error err) ∨
      EndsPaging pages pageSize 0 (maxEvents / pageSize + 2) maxEvents :=
  stopsWithin_iff

/-- With the type filter honoured the paging always ends in time. -/
theorem miscEvents_stops_of_filtered {pages : ℕ → List RawEvent}
    (hmisc : ∀ i, ∀ event ∈ pages i, event.typename = js "MiscContractEvent")
    (address : JsString) (transactionHash : Option JsString) (pageSize maxEvents : ℕ) :
    StopsWithin pages address ⟨transactionHash, some (.int pageSize), some (.int maxEvents)⟩
      (maxEvents / pageSize + 2) := by
  rw [stopsWithin_iff]
  rcases Nat.eq_zero_or_pos pageSize with rfl | hpositive
  · left
    exact ⟨_, rfl⟩
  · right
    apply endsPaging_of_filtered hmisc
    rw [← Nat.div_lt_iff_lt_mul hpositive]
    omega

/-- A server that ignores the type filter and has one event of another type on every page of one
event: no number of requests is enough. -/
theorem miscEvents_never_stops :
    let event : RawEvent := ⟨js "ZswapContractEvent", .int 1, none, none, none, none⟩
    ∀ requests, ¬StopsWithin (fun _ => [event]) (js "0xAA") ⟨none, some (.int 1), some (.int 1)⟩
      requests := by
  intro event requests
  have hmakes : ¬∃ err, miscEventsRequest (js "0xAA") ⟨none, some (.int 1), some (.int 1)⟩ =
      .error err := by
    intro h
    obtain ⟨err, herr⟩ := h
    cases herr
  have hother : ∀ events : List ℕ,
      miscEventsOf (events.flatMap fun _ => [event]) = [] := by
    intro events
    rw [miscEventsOf, List.filterMap_eq_nil_iff]
    intro served hserved
    obtain ⟨_, _, hevent⟩ := List.mem_flatMap.mp hserved
    rw [List.mem_singleton.mp hevent]
    rfl
  intro h
  rcases stopsWithin_iff.mp h with hrefused | hends
  · exact hmakes hrefused
  · rcases hends with ⟨i, _, hshort⟩ | hmany
    · exact absurd hshort (lt_irrefl 1)
    · rw [hother] at hmany
      exact absurd hmany (Nat.not_lt_zero 1)

end MultiPartEvent
