import MultiPartEvent.Indexer.Conversion

/-!
# Every served item is accounted for

An item the indexer serves for a contract should either become a part event or raise an issue:
a reader that is told nothing takes an incomplete package for a complete one.  The conversion of
one item is stated here in terms of what its raw bytes decode to.  It accounts for every item but
those whose raw bytes decode to an event that is not a `Misc` event of the contract, which
`partEventsFromLedgerEvents` skips and `partEventsFromIndexer` does not report.
-/

namespace MultiPartEvent

/-! ### Cells and typed fields -/

/-- A `Bytes<288>` cell that stores the given bytes, its trailing zero bytes possibly removed. -/
def IsMiscCell (data : EncodedStateValue) (stored : Bytes) : Prop :=
  data = .cell [.atom (.bytes eventLength)] [stored] ∧ stored.length ≤ eventLength

/-- Only the atom of a `Bytes<288>` cell is read. -/
lemma cellAtom_eventLength_iff {data : EncodedStateValue} {stored : Bytes} :
    cellAtom data (some eventLength) = .ok stored ↔ IsMiscCell data stored := by
  constructor
  · intro h
    unfold cellAtom at h
    split at h
    · rename_i length atoms
      split_ifs at h with hwidth
      have hlength : eventLength = length := by simpa using hwidth
      split at h
      · split_ifs at h with hlong
        cases h
        exact ⟨by rw [hlength], by rw [hlength]; exact not_lt.mp hlong⟩
      · cases h
    · cases h
    · cases h
  · intro h
    obtain ⟨rfl, hlength⟩ := h
    simpa [cellAtom] using hlength

/-- A logged value decodes exactly when it is a `Bytes<288>` cell, and then to its zero-extended
bytes. -/
lemma decodeMiscValue_eq_ok_iff {data : EncodedStateValue} {value : Bytes} :
    decodeMiscValue data = .ok value ↔
      ∃ stored, IsMiscCell data stored ∧ value = zeroExtend eventLength stored := by
  unfold decodeMiscValue
  cases hatom : cellAtom data (some eventLength) with
  | error err =>
    constructor
    · intro h
      cases h
    · intro h
      obtain ⟨stored, hcell, -⟩ := h
      rw [cellAtom_eventLength_iff.mpr hcell] at hatom
      cases hatom
  | ok atom =>
    have hcell := cellAtom_eventLength_iff.mp hatom
    constructor
    · intro h
      cases h
      exact ⟨atom, hcell, rfl⟩
    · intro h
      obtain ⟨stored, hstored, rfl⟩ := h
      rw [cellAtom_eventLength_iff.mpr hstored] at hatom
      cases hatom
      rfl

/-- The typed fields of an item stand for the value: they are hex, fit their widths, the name is
not empty and not short before a payload, and the value is both restored to their widths. -/
def IndexedMiscEvent.Types (item : IndexedMiscEvent) (value : Bytes) : Prop :=
  ∃ name payload, hexToBytes item.nameHex = .ok name ∧ hexToBytes item.payloadHex = .ok payload ∧
    0 < name.length ∧ name.length ≤ nameLength ∧ payload.length ≤ payloadLength ∧
    (name.length < nameLength → payload = []) ∧
    value = zeroExtend nameLength name ++ zeroExtend payloadLength payload

/-- The full value of a name and a payload is restored to that name and payload. -/
lemma splitEventValue_append {name payload : Bytes} (hname : name.length = nameLength)
    (hpayload : payload.length = payloadLength) :
    splitEventValue (name ++ payload) = .ok ⟨name, payload⟩ := by
  have hlength : (name ++ payload).length = eventLength := by
    rw [List.length_append, hname, hpayload]
    rfl
  have hrestored : restoreEventValue (name ++ payload) = .ok (name ++ payload) := by
    rw [restoreEventValue_ok hlength.le]
    exact congrArg Except.ok (zeroExtend_of_length_eq hlength)
  unfold splitEventValue
  rw [hrestored, ok_bind, ← hname, List.take_left', List.drop_left']
  · rfl
  · rfl
  · rfl

/-- A name and a payload that fit are extended to their widths. -/
lemma eventValue_of_le {name payload : Bytes} (hname : name.length ≤ nameLength)
    (hpayload : payload.length ≤ payloadLength) :
    eventValue name payload =
      .ok (zeroExtend nameLength name ++ zeroExtend payloadLength payload) := by
  unfold eventValue
  rw [if_neg (not_lt.mpr hname), if_neg (not_lt.mpr hpayload)]

/-- Splitting a restored value and joining its halves gives it back. -/
lemma eventValue_splitEventValue {name payload : Bytes} (hname : name.length ≤ nameLength)
    (hpayload : payload.length ≤ payloadLength) :
    (do
      let typed ← splitEventValue (← eventValue name payload)
      eventValue typed.name typed.payload) =
        .ok (zeroExtend nameLength name ++ zeroExtend payloadLength payload) := by
  have hname' := length_zeroExtend hname
  have hpayload' := length_zeroExtend hpayload
  rw [eventValue_of_le hname hpayload, ok_bind, splitEventValue_append hname' hpayload', ok_bind]
  exact eventValue_ok hname' hpayload'

/-- The typed value is the one the typed fields stand for. -/
lemma typedValue_eq_ok_iff {item : IndexedMiscEvent} {value : Bytes} :
    item.typedValue = .ok value ↔ item.Types value := by
  unfold IndexedMiscEvent.typedValue restoreIndexerMiscEvent IndexedMiscEvent.Types
  simp only [bind_assoc]
  constructor
  · intro h
    obtain ⟨name, hname, h⟩ := bind_eq_ok_iff.mp h
    obtain ⟨payload, hpayload, h⟩ := bind_eq_ok_iff.mp h
    obtain ⟨_, hnonempty, h⟩ := bind_eq_ok_iff.mp h
    obtain ⟨_, hnameFits, h⟩ := bind_eq_ok_iff.mp h
    obtain ⟨_, hpayloadFits, h⟩ := bind_eq_ok_iff.mp h
    obtain ⟨_, hshort, h⟩ := bind_eq_ok_iff.mp h
    rw [throwIf_eq_ok_iff, not_lt] at hnameFits hpayloadFits
    rw [throwIf_eq_ok_iff] at hnonempty hshort
    rw [eventValue_splitEventValue hnameFits hpayloadFits] at h
    cases h
    refine ⟨name, payload, hname, hpayload, Nat.pos_of_ne_zero hnonempty, hnameFits, hpayloadFits,
      ?_, rfl⟩
    intro hlt
    by_contra hne
    exact hshort ⟨hlt, List.length_pos_iff.mpr hne⟩
  · intro h
    obtain ⟨name, payload, hname, hpayload, hpos, hnameFits, hpayloadFits, hshort, rfl⟩ := h
    have hnotShort : ¬(name.length < nameLength ∧ payload.length > 0) := by
      intro hboth
      rw [hshort hboth.1] at hboth
      exact Nat.lt_irrefl 0 hboth.2
    rw [hname, ok_bind, hpayload, ok_bind, (throwIf_eq_ok_iff (u := ())).mpr hpos.ne', ok_bind,
      (throwIf_eq_ok_iff (u := ())).mpr (not_lt.mpr hnameFits), ok_bind,
      (throwIf_eq_ok_iff (u := ())).mpr (not_lt.mpr hpayloadFits), ok_bind,
      (throwIf_eq_ok_iff (u := ())).mpr hnotShort, ok_bind]
    exact eventValue_splitEventValue hnameFits hpayloadFits

/-! ### One item -/

section Item

variable {ledger : LedgerModule} {options : IndexerEventOptions} {item : IndexedMiscEvent}
  {event : LedgerEvent} {data : EncodedStateValue} {stored : Bytes}

/-- The raw bytes of the item decode to a `Misc` event of the contract that logs `data`. -/
def IndexedMiscEvent.LogsMisc (ledger : LedgerModule) (options : IndexerEventOptions)
    (item : IndexedMiscEvent) (event : LedgerEvent) (data : EncodedStateValue) : Prop :=
  item.ledgerEvent ledger = .ok event ∧
    event.content = .contractLog options.contract (js "misc") data

/-- The part event of an item whose raw event stores the given bytes. -/
def IndexedMiscEvent.partEvent (options : IndexerEventOptions) (item : IndexedMiscEvent)
    (event : LedgerEvent) (stored : Bytes) : PartEvent where
  network := options.network
  contract := options.contract
  transactionHash := event.transactionHash
  segment := .int event.physicalSegment
  position := item.id
  value := zeroExtend eventLength stored

/-- The raw bytes of the item decode, but not to a `Misc` event of the contract: it is an event of
another contract, of another type or of another kind. -/
def Skipped (ledger : LedgerModule) (options : IndexerEventOptions) (item : IndexedMiscEvent) :
    Prop :=
  ∃ event, item.ledgerEvent ledger = .ok event ∧
    ∀ data, event.content ≠ .contractLog options.contract (js "misc") data

/-- Bytes that do not decode are reported. -/
lemma convertItem_of_error {err : JsError} (h : item.ledgerEvent ledger = .error err) :
    convertItem ledger options item =
      ⟨[], [item.label ++ js ": raw bytes do not decode; its intent is unknown"]⟩ := by
  unfold convertItem
  rw [h]

/-- An event that is not a `Misc` event of the contract leaves no trace. -/
lemma convertItem_of_skipped (h : Skipped ledger options item) :
    convertItem ledger options item = ⟨[], []⟩ := by
  obtain ⟨event, hevent, hcontent⟩ := h
  have hskip : partEventOf ⟨options.network, some [options.contract], some fun _ _ => item.id⟩
      (event, 0) = (none, none) := by
    unfold partEventOf
    cases hkind : event.content with
    | other tag => simp [hkind]
    | contractLog address eventType data =>
      simp only [hkind]
      split_ifs with haddress htype
      · rfl
      · rfl
      · have hsame : address = options.contract := by simpa using haddress
        rw [ne_eq, not_not] at htype
        exact absurd (by rw [hkind, hsame, htype]) (hcontent data)
  unfold convertItem
  rw [hevent]
  simp [partEventsFromLedgerEvents, hskip]

/-- A `Misc` event of the contract whose value does not decode is reported. -/
lemma convertItem_of_decode_error {err : JsError} (h : item.LogsMisc ledger options event data)
    (hdata : decodeMiscValue data = .error err) :
    convertItem ledger options item =
      ⟨[], [item.label ++ js ": " ++
        (js "event at position " ++ item.id.text ++ js ": " ++ err.message)]⟩ := by
  unfold convertItem
  rw [h.1]
  simp [partEventsFromLedgerEvents, partEventOf, h.2, hdata]

/-- A `Misc` event of the contract with a `Bytes<288>` cell gives one part event. -/
lemma convertItem_of_cell (h : item.LogsMisc ledger options event data)
    (hcell : IsMiscCell data stored) :
    convertItem ledger options item =
      ⟨[item.partEvent options event stored],
        eventIssues item (item.partEvent options event stored)⟩ := by
  have hdata := decodeMiscValue_eq_ok_iff.mpr ⟨stored, hcell, rfl⟩
  unfold convertItem
  rw [h.1]
  simp [partEventsFromLedgerEvents, partEventOf, h.2, hdata, IndexedMiscEvent.partEvent]

/-- An item is skipped, or does not decode, or is a `Misc` event of the contract. -/
lemma item_cases (ledger : LedgerModule) (options : IndexerEventOptions)
    (item : IndexedMiscEvent) :
    (∃ err, item.ledgerEvent ledger = .error err) ∨ Skipped ledger options item ∨
      ∃ event data, item.LogsMisc ledger options event data := by
  cases hevent : item.ledgerEvent ledger with
  | error err => exact .inl ⟨err, rfl⟩
  | ok event =>
    right
    by_cases hmisc : ∃ data, event.content = .contractLog options.contract (js "misc") data
    · obtain ⟨data, hdata⟩ := hmisc
      exact .inr ⟨event, data, hevent, hdata⟩
    · exact .inl ⟨event, hevent, fun data hdata => hmisc ⟨data, hdata⟩⟩

/-- Nothing is reported of a part event exactly when it has the hash of the item and the value the
typed fields stand for. -/
lemma eventIssues_eq_nil_iff {part : PartEvent} :
    eventIssues item part = [] ↔
      part.transactionHash = item.transactionHash ∧ item.Types part.value := by
  rw [← typedValue_eq_ok_iff]
  unfold eventIssues
  cases item.typedValue with
  | error err => simp
  | ok value =>
    by_cases hhash : part.transactionHash = item.transactionHash
    · by_cases hvalue : value = part.value
      · simp [hhash, hvalue]
      · simp [hhash, hvalue]
    · simp [hhash]

/-- Every issue of a part event names the item. -/
lemma label_prefix_of_mem_eventIssues {part : PartEvent} {issue : JsString}
    (h : issue ∈ eventIssues item part) : item.label ++ js ": " <+: issue := by
  unfold eventIssues at h
  rcases List.mem_append.mp h with h | h
  · split_ifs at h
    · rw [List.mem_singleton.mp h, List.prefix_append_right_inj]
      decide
    · cases h
  · cases hvalue : item.typedValue with
    | error err =>
      simp only [hvalue, List.mem_singleton] at h
      rw [h, List.append_assoc, List.prefix_append_right_inj]
      exact List.IsPrefix.trans (by decide) (List.prefix_append _ _)
    | ok value =>
      simp only [hvalue] at h
      split_ifs at h
      · cases h
      · rw [List.mem_singleton.mp h, List.prefix_append_right_inj]
        decide

/-- Every issue of an item names it. -/
lemma label_prefix_of_mem_issues {issue : JsString}
    (h : issue ∈ (convertItem ledger options item).issues) :
    item.label ++ js ": " <+: issue := by
  rcases item_cases ledger options item with ⟨err, herr⟩ | hskipped | ⟨event, data, hmisc⟩
  · rw [convertItem_of_error herr] at h
    rw [List.mem_singleton.mp h, List.prefix_append_right_inj]
    decide
  · rw [convertItem_of_skipped hskipped] at h
    cases h
  · cases hdata : decodeMiscValue data with
    | error err =>
      rw [convertItem_of_decode_error hmisc hdata] at h
      rw [List.mem_singleton.mp h]
      exact List.prefix_append _ _
    | ok value =>
      obtain ⟨stored, hcell, -⟩ := decodeMiscValue_eq_ok_iff.mp hdata
      rw [convertItem_of_cell hmisc hcell] at h
      exact label_prefix_of_mem_eventIssues h

/-- What is added and reported for an item accounts for it: its one part event is added or an
issue names it, and nothing is reported exactly of a consistent `Misc` event of the contract. -/
structure AccountedFor (ledger : LedgerModule) (options : IndexerEventOptions)
    (item : IndexedMiscEvent) (added : List PartEvent) (reported : List JsString) : Prop where
  /-- One part event is added, or an issue names the item. -/
  traced : (∃ event data stored, item.LogsMisc ledger options event data ∧
      IsMiscCell data stored ∧ added = [item.partEvent options event stored]) ∨
    ∃ issue ∈ reported, item.label ++ js ": " <+: issue
  /-- No issue means a `Misc` event of the contract, with the indexer's hash and typed fields. -/
  consistent : reported = [] ↔ ∃ event data stored, item.LogsMisc ledger options event data ∧
    IsMiscCell data stored ∧ event.transactionHash = item.transactionHash ∧
    item.Types (zeroExtend eventLength stored)

/-- A skipped item is not accounted for. -/
lemma not_accountedFor_of_skipped (h : Skipped ledger options item) :
    ¬AccountedFor ledger options item (convertItem ledger options item).events
      (convertItem ledger options item).issues := by
  intro haccounted
  rw [convertItem_of_skipped h] at haccounted
  rcases haccounted.traced with ⟨event, data, stored, -, -, hadded⟩ | ⟨issue, hissue, -⟩
  · cases hadded
  · cases hissue

/-- An item that is reported and is no consistent event is accounted for. -/
lemma accountedFor_of_reported {added : List PartEvent} {issue : JsString}
    (hname : item.label ++ js ": " <+: issue)
    (hnot : ¬∃ event data stored, item.LogsMisc ledger options event data ∧
      IsMiscCell data stored) : AccountedFor ledger options item added [issue] where
  traced := .inr ⟨issue, List.mem_singleton_self issue, hname⟩
  consistent := by
    constructor
    · intro h
      cases h
    · intro h
      obtain ⟨event, data, stored, hmisc, hcell, -⟩ := h
      exact absurd ⟨event, data, stored, hmisc, hcell⟩ hnot

/-- The raw event of an item and what it stores are unique. -/
lemma IndexedMiscEvent.LogsMisc.unique {event' : LedgerEvent} {data' : EncodedStateValue}
    (h : item.LogsMisc ledger options event data)
    (h' : item.LogsMisc ledger options event' data') : event' = event ∧ data' = data := by
  obtain ⟨hevent, hcontent⟩ := h
  obtain ⟨hevent', hcontent'⟩ := h'
  rw [hevent] at hevent'
  cases hevent'
  rw [hcontent] at hcontent'
  cases hcontent'
  exact ⟨rfl, rfl⟩

/-- Every other item is accounted for. -/
lemma accountedFor_of_not_skipped (h : ¬Skipped ledger options item) :
    AccountedFor ledger options item (convertItem ledger options item).events
      (convertItem ledger options item).issues := by
  have hnames : ∀ issue ∈ (convertItem ledger options item).issues,
      item.label ++ js ": " <+: issue := fun issue hissue => label_prefix_of_mem_issues hissue
  rcases item_cases ledger options item with ⟨err, herr⟩ | hskipped | ⟨event, data, hmisc⟩
  · rw [convertItem_of_error herr] at hnames ⊢
    apply accountedFor_of_reported (hnames _ (List.mem_singleton_self _))
    intro hnot
    obtain ⟨event, data, stored, hmisc, -⟩ := hnot
    rw [hmisc.1] at herr
    cases herr
  · exact absurd hskipped h
  · cases hdata : decodeMiscValue data with
    | error err =>
      rw [convertItem_of_decode_error hmisc hdata] at hnames ⊢
      apply accountedFor_of_reported (hnames _ (List.mem_singleton_self _))
      intro hnot
      obtain ⟨event', data', stored, hmisc', hcell⟩ := hnot
      rw [(hmisc.unique hmisc').2] at hcell
      rw [decodeMiscValue_eq_ok_iff.mpr ⟨stored, hcell, rfl⟩] at hdata
      cases hdata
    | ok value =>
      obtain ⟨stored, hcell, -⟩ := decodeMiscValue_eq_ok_iff.mp hdata
      rw [convertItem_of_cell hmisc hcell]
      refine ⟨.inl ⟨event, data, stored, hmisc, hcell, rfl⟩, ?_⟩
      rw [eventIssues_eq_nil_iff]
      constructor
      · intro hconsistent
        exact ⟨event, data, stored, hmisc, hcell, hconsistent⟩
      · intro hconsistent
        obtain ⟨event', data', stored', hmisc', hcell', hconsistent⟩ := hconsistent
        obtain ⟨rfl, rfl⟩ := hmisc.unique hmisc'
        obtain ⟨rfl, -⟩ := hcell
        obtain ⟨hsame, -⟩ := hcell'
        cases hsame
        exact hconsistent

end Item

/-! ### A whole list -/

/-- Every item of the list adds to the events and to the issues what accounts for it. -/
def AllAccountedFor (ledger : LedgerModule) (options : IndexerEventOptions)
    (indexed : List IndexedMiscEvent) : Prop :=
  ∀ before item after, indexed = before ++ item :: after →
    ∃ added reported,
      (partEventsFromIndexer ledger indexed options).events =
        (partEventsFromIndexer ledger before options).events ++ added ++
          (partEventsFromIndexer ledger after options).events ∧
      (partEventsFromIndexer ledger indexed options).issues =
        (partEventsFromIndexer ledger before options).issues ++ reported ++
          (partEventsFromIndexer ledger after options).issues ∧
      AccountedFor ledger options item added reported

/-- **No fetched event disappears silently, but for the skipped ones.**  Every served item is
accounted for exactly when the raw bytes of none decode to an event that is not a `Misc` event of
the contract. -/
theorem allAccountedFor_iff (ledger : LedgerModule) (options : IndexerEventOptions)
    (indexed : List IndexedMiscEvent) :
    AllAccountedFor ledger options indexed ↔ ∀ item ∈ indexed, ¬Skipped ledger options item := by
  have hparts : ∀ before item after,
      (partEventsFromIndexer ledger (before ++ item :: after) options).events =
        (partEventsFromIndexer ledger before options).events ++
          (convertItem ledger options item).events ++
          (partEventsFromIndexer ledger after options).events ∧
      (partEventsFromIndexer ledger (before ++ item :: after) options).issues =
        (partEventsFromIndexer ledger before options).issues ++
          (convertItem ledger options item).issues ++
          (partEventsFromIndexer ledger after options).issues := by
    intro before item after
    simp [partEventsFromIndexer]
  constructor
  · intro h item hitem hskipped
    obtain ⟨before, after, rfl⟩ := List.append_of_mem hitem
    obtain ⟨added, reported, hevents, hissues, haccounted⟩ := h before item after rfl
    rw [(hparts before item after).1, List.append_cancel_right_eq,
      List.append_cancel_left_eq] at hevents
    rw [(hparts before item after).2, List.append_cancel_right_eq,
      List.append_cancel_left_eq] at hissues
    rw [← hevents, ← hissues] at haccounted
    exact not_accountedFor_of_skipped hskipped haccounted
  · intro h before item after hindexed
    rw [hindexed]
    refine ⟨(convertItem ledger options item).events, (convertItem ledger options item).issues,
      (hparts before item after).1, (hparts before item after).2, ?_⟩
    apply accountedFor_of_not_skipped
    apply h item
    simp [hindexed]

/-- A ledger module that reads every event as a `Misc` event of the contract `bb`. -/
def foreignLedger : LedgerModule where
  deserialize := fun _ _ => .error (.error (js "no transaction"))
  deserializeEvent := fun _ => .ok
    ⟨.contractLog (js "bb") (js "misc") (.cell [.atom (.bytes 288)] [[97]]), js "cc", 1⟩
  deserializeState := fun _ => .error (.error (js "no state"))

/-- An item served for the contract `aa` whose raw bytes are an event of the contract `bb`. -/
def foreignItem : IndexedMiscEvent where
  id := .int 7
  nameHex := js "61"
  payloadHex := []
  rawHex := js "00"
  transactionHash := js "cc"
  blockHeight := 1
  blockHash := js "dd"

/-- The item of another contract disappears without an issue. -/
theorem foreign_item_dropped :
    partEventsFromIndexer foreignLedger [foreignItem] ⟨js "preview", js "aa"⟩ = ⟨[], []⟩ ∧
      ¬AllAccountedFor foreignLedger ⟨js "preview", js "aa"⟩ [foreignItem] := by
  have hdropped : partEventsFromIndexer foreignLedger [foreignItem] ⟨js "preview", js "aa"⟩ =
      ⟨[], []⟩ := rfl
  refine ⟨hdropped, ?_⟩
  intro h
  obtain ⟨added, reported, hevents, hissues, haccounted⟩ := h [] foreignItem [] rfl
  rw [hdropped] at hevents hissues
  rcases haccounted.traced with ⟨event, data, stored, -, -, hadded⟩ | ⟨issue, hissue, -⟩
  · rw [hadded] at hevents
    simp at hevents
  · simp only [List.nil_eq, List.append_eq_nil_iff] at hissues
    rw [hissues.1.2] at hissue
    cases hissue

end MultiPartEvent
