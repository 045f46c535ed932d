import MultiPartEvent.Reader.Transaction

/-!
# Misc events as the indexer serves them

The indexer serves each `Misc` event twice: as the raw ledger event and as typed fields.
`partEventsFromIndexer` reads the raw event and checks the typed fields, the transaction hash and
the value against it; every disagreement and every event that cannot be read is an issue.
-/

namespace MultiPartEvent

/-- A `Misc` contract event as the indexer reports it, hex fields as served. -/
structure IndexedMiscEvent where
  id : JsNumber
  nameHex : JsString
  payloadHex : JsString
  rawHex : JsString
  transactionHash : JsString
  blockHeight : ℤ
  blockHash : JsString

/-- Reader input built from indexer events, with the problems found. -/
structure IndexerEventConversion where
  events : List PartEvent
  /-- Events that could not be used, or whose typed fields disagree with `raw`. -/
  issues : List JsString

/-- Where the events are from. -/
structure IndexerEventOptions where
  network : JsString
  contract : JsString

/-- How an item is named in its issues. -/
def IndexedMiscEvent.label (item : IndexedMiscEvent) : JsString :=
  js "indexer event " ++ item.id.text

/-- The raw ledger event of an item. -/
def IndexedMiscEvent.ledgerEvent (ledger : LedgerModule) (item : IndexedMiscEvent) :
    Except JsError LedgerEvent := do
  ledger.deserializeEvent (← hexToBytes item.rawHex)

/-- The value the typed fields of an item stand for. -/
def IndexedMiscEvent.typedValue (item : IndexedMiscEvent) : Except JsError Bytes := do
  let typed ← restoreIndexerMiscEvent ⟨item.nameHex, item.payloadHex⟩
  eventValue typed.name typed.payload

/-- The issues of an item's event: another transaction hash, and typed fields that disagree. -/
def eventIssues (item : IndexedMiscEvent) (event : PartEvent) : List JsString :=
  (if event.transactionHash ≠ item.transactionHash then
      [item.label ++ js ": raw transaction hash differs from the indexer's transaction"]
    else []) ++
    match item.typedValue with
    | .error error => [item.label ++ js ": typed fields: " ++ error.message]
    | .ok value =>
      if bytesEqual value event.value then []
      else [item.label ++ js ": typed name/payload disagree with the raw event"]

/-- One item: its part event, if it has one, and its issues. -/
def convertItem (ledger : LedgerModule) (options : IndexerEventOptions) (item : IndexedMiscEvent) :
    IndexerEventConversion :=
  match item.ledgerEvent ledger with
  | .error _ => ⟨[], [item.label ++ js ": raw bytes do not decode; its intent is unknown"]⟩
  | .ok ledgerEvent =>
    let converted := partEventsFromLedgerEvents [ledgerEvent]
      ⟨options.network, some [options.contract], some fun _ _ => item.id⟩
    { events := converted.events
      issues := (converted.issues.map fun issue => item.label ++ js ": " ++ issue) ++
        converted.events.flatMap (eventIssues item) }

/-- Turn indexer `Misc` events into reader input. -/
def partEventsFromIndexer (ledger : LedgerModule) (indexed : List IndexedMiscEvent)
    (options : IndexerEventOptions) : IndexerEventConversion where
  events := indexed.flatMap fun item => (convertItem ledger options item).events
  issues := indexed.flatMap fun item => (convertItem ledger options item).issues

end MultiPartEvent
