import MultiPartEvent.Cli.Soundness
import MultiPartEvent.Indexer.Conversion

/-!
# The indexer as a verification source

`indexerSource` groups the events the indexer serves by the transaction the indexer names, and
files the issues of each group under that name.  The part events themselves carry the hash of
their raw ledger event.  The lemmas below say both in terms of the served items alone: which
items a part event comes from, and under which hashes an issue is found.
-/

namespace MultiPartEvent

/-- A transaction as the indexer reports it. -/
structure IndexedTransaction where
  hash : JsString
  rawHex : JsString
  /-- Absent for system transactions. -/
  status : Option JsString
  block : BlockRef

/-- The queries of the indexer client that verification makes. -/
structure IndexerClient where
  url : JsString
  /-- `miscEvents(address, { transactionHash, maxEvents })`. -/
  miscEvents : (address : JsString) → (transactionHash : Option JsString) →
    (maxEvents : JsNumber) → Except JsError (List IndexedMiscEvent)
  transactionsByHash : JsString → Except JsError (List IndexedTransaction)
  /-- `contractState(address, blockHash)`: the hex of the state, if there is one. -/
  contractState : (address : JsString) → (blockHash : Option JsString) →
    Except JsError (Option JsString)

/-- Options of `indexerSource`. -/
structure IndexerSourceOptions where
  network : JsString
  /-- The node's answer to `rawTransactionInBlock`, when a node is given. -/
  rawTransactionInBlock : Option ((blockHash : JsString) → (rawHex : JsString) →
    Except JsError (Option JsNumber))
  /-- Largest number of events fetched. -/
  maxEvents : Option JsNumber

/-- The served items, by the transaction the indexer names. -/
def itemsByTransaction (indexed : List IndexedMiscEvent) :
    InsertionMap JsString (List IndexedMiscEvent) :=
  indexed.foldl (fun byTransaction item => byTransaction.upsert item.transactionHash
    fun items => items.getD [] ++ [item]) .empty

/-- The block of each transaction the indexer names. -/
def itemBlocks (indexed : List IndexedMiscEvent) : InsertionMap JsString BlockRef :=
  indexed.foldl (fun blocks item =>
    if item.blockHash.length > 0 ∧ item.blockHeight ≥ 0 then
      blocks.set item.transactionHash ⟨item.blockHash, item.blockHeight⟩
    else blocks) .empty

/-- File the issues of a transaction, if it has any. -/
def fileIssues (issues : InsertionMap JsString (List JsString))
    (group : JsString × IndexerEventConversion) : InsertionMap JsString (List JsString) :=
  if group.2.issues.length > 0 then issues.set group.1 group.2.issues else issues

/-- The events of a contract as the indexer source gives them. -/
def indexerEvents (ledger : LedgerModule) (options : IndexerEventOptions)
    (indexed : List IndexedMiscEvent) : SourceEvents :=
  let converted := (itemsByTransaction indexed).entries.map fun group =>
    (group.1, partEventsFromIndexer ledger group.2 options)
  { events := converted.flatMap fun group => group.2.events
    issues := converted.foldl fileIssues .empty
    blocks := itemBlocks indexed
    count := .int indexed.length }

/-- The public indexer, and optionally a node, as a verification source. -/
def indexerSource (ledger : LedgerModule) (client : IndexerClient)
    (options : IndexerSourceOptions) : VerifySource where
  description := js "indexer " ++ client.url
  events := fun contract transactionHash => do
    let indexed ← client.miscEvents contract transactionHash
      (options.maxEvents.getD defaultReaderLimits.maxEvents)
    return indexerEvents ledger ⟨options.network, contract⟩ indexed
  transaction := fun hash => do
    match ← client.transactionsByHash hash with
    | [] => return none
    | found :: _ =>
      let raw ← hexToBytes found.rawHex
      return some ⟨found.hash, raw, found.status.getD [], some found.block⟩
  contractState := fun contract block => do
    match ← client.contractState contract (block.map BlockRef.hash) with
    | none => return none
    | some stateHex => return some (← hexToBytes stateHex)
  nodeHolds := options.rawTransactionInBlock.map fun holds blockHash raw =>
    holds blockHash (bytesToHex raw)

section Items

variable {ledger : LedgerModule} {options : IndexerEventOptions} {indexed : List IndexedMiscEvent}

/-- An issue is raised for the item. -/
def Raises (ledger : LedgerModule) (options : IndexerEventOptions) (item : IndexedMiscEvent) :
    Prop :=
  (convertItem ledger options item).issues ≠ []

/-- The items of a transaction are those the indexer names it for, in served order. -/
lemma get?_itemsByTransaction (indexed : List IndexedMiscEvent) (hash : JsString) :
    ((itemsByTransaction indexed).get? hash).getD [] =
      indexed.filter (fun item => item.transactionHash = hash) := by
  have hcollect : itemsByTransaction indexed = InsertionMap.collect IndexedMiscEvent.transactionHash
      (fun items item => items.getD [] ++ [item]) .empty indexed := rfl
  have hfold : ∀ (items : List IndexedMiscEvent) (start : Option (List IndexedMiscEvent)),
      (items.foldl (fun found item => some (found.getD [] ++ [item])) start).getD [] =
        start.getD [] ++ items := by
    intro items
    induction items with
    | nil => simp
    | cons item items ih =>
      intro start
      rw [List.foldl_cons, ih]
      simp
  rw [hcollect, InsertionMap.get?_collect, hfold]
  simp

/-- A group is filed under a hash exactly when it is the group of that hash. -/
lemma mem_entries_itemsByTransaction {hash : JsString} {items : List IndexedMiscEvent}
    (h : (hash, items) ∈ (itemsByTransaction indexed).entries) :
    items = indexed.filter (fun item => item.transactionHash = hash) := by
  rw [← get?_itemsByTransaction, InsertionMap.get?_eq_some_iff.mpr h, Option.getD_some]

/-- Every served item is in the group of its hash. -/
lemma exists_group {item : IndexedMiscEvent} (h : item ∈ indexed) :
    (item.transactionHash,
      indexed.filter (fun other => other.transactionHash = item.transactionHash)) ∈
        (itemsByTransaction indexed).entries := by
  rw [← InsertionMap.get?_eq_some_iff]
  have hgroup := get?_itemsByTransaction indexed item.transactionHash
  cases hget : (itemsByTransaction indexed).get? item.transactionHash with
  | some items =>
    rw [hget, Option.getD_some] at hgroup
    rw [hgroup]
  | none =>
    rw [hget, Option.getD_none] at hgroup
    have hmem :
        item ∈ indexed.filter fun other => other.transactionHash = item.transactionHash := by
      simp [h]
    rw [← hgroup] at hmem
    cases hmem

/-- The part events of the source are those of the served items. -/
theorem mem_indexerEvents {e : PartEvent} :
    e ∈ (indexerEvents ledger options indexed).events ↔
      ∃ item ∈ indexed, e ∈ (convertItem ledger options item).events := by
  simp only [indexerEvents, List.mem_flatMap, List.mem_map, exists_exists_and_eq_and,
    partEventsFromIndexer]
  constructor
  · intro h
    obtain ⟨⟨hash, items⟩, hgroup, item, hitem, he⟩ := h
    rw [mem_entries_itemsByTransaction hgroup] at hitem
    exact ⟨item, (List.mem_filter.mp hitem).1, he⟩
  · intro h
    obtain ⟨item, hitem, he⟩ := h
    exact ⟨_, exists_group hitem, item, by simp [hitem], he⟩

/-- Nothing is filed under a hash exactly when nothing was and no group of it has issues. -/
lemma getD_foldl_fileIssues (groups : List (JsString × IndexerEventConversion))
    (issues : InsertionMap JsString (List JsString)) (hash : JsString) :
    ((groups.foldl fileIssues issues).get? hash).getD [] = [] ↔
      (issues.get? hash).getD [] = [] ∧ ∀ group ∈ groups, group.1 = hash → group.2.issues = [] := by
  induction groups generalizing issues with
  | nil => simp
  | cons group groups ih =>
    rw [List.foldl_cons, ih, List.forall_mem_cons, ← and_assoc]
    refine and_congr_left fun _ => ?_
    unfold fileIssues
    split_ifs with hissues
    · rw [gt_iff_lt, List.length_pos_iff] at hissues
      rw [InsertionMap.get?_set]
      split_ifs with hhash
      · simp [hhash, hissues]
      · simp [Ne.symm hhash]
    · rw [gt_iff_lt, List.length_pos_iff, not_not] at hissues
      simp [hissues]

/-- Issues are found under a hash exactly when one is raised for an item the indexer names it
for. -/
theorem getD_issues_eq_nil_iff {hash : JsString} :
    ((indexerEvents ledger options indexed).issues.get? hash).getD [] = [] ↔
      ∀ item ∈ indexed, Raises ledger options item → item.transactionHash ≠ hash := by
  have hissues : (indexerEvents ledger options indexed).issues =
      ((itemsByTransaction indexed).entries.map fun group =>
        (group.1, partEventsFromIndexer ledger group.2 options)).foldl fileIssues .empty := rfl
  rw [hissues, getD_foldl_fileIssues]
  simp only [InsertionMap.get?_empty, Option.getD_none, true_and, List.forall_mem_map]
  constructor
  · intro h item hitem hraises hhash
    apply hraises
    have hempty := h _ (exists_group hitem) hhash
    simp only [partEventsFromIndexer, List.flatMap_eq_nil_iff] at hempty
    exact hempty item (by simp [hitem])
  · intro h group hgroup hhash
    obtain ⟨hash', items⟩ := group
    rw [mem_entries_itemsByTransaction hgroup]
    simp only [partEventsFromIndexer, List.flatMap_eq_nil_iff]
    intro item hitem
    obtain ⟨hmem, hname⟩ := List.mem_filter.mp hitem
    by_contra hne
    exact h item hmem hne ((of_decide_eq_true hname).trans hhash)

end Items

end MultiPartEvent
