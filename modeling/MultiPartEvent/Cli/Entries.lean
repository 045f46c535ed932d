import MultiPartEvent.Cli.Levels

/-!
# The packages that are verified

Verification collects its entries in one map: first the packages of the events, then, from
Level 2 on, those that only the raw bytes of a transaction show.  `CollectedFrom` is the
invariant of that loop over the transactions: no package of the events is lost or replaced, each
transaction's facts are on record, and no package the raw bytes show is without an entry.
-/

namespace MultiPartEvent

/-! ### Keys of entries -/

/-- Texts that agree around a separator agree on both sides of its last occurrence. -/
lemma append_separator_inj {u : CodeUnit} {l l' tail tail' : JsString} (htail : u ∉ tail)
    (htail' : u ∉ tail') (h : l ++ u :: tail = l' ++ u :: tail') : l = l' ∧ tail = tail' := by
  rcases List.append_eq_append_iff.mp h with ⟨middle, hl, hrest⟩ | ⟨middle, hl, hrest⟩
  · cases middle with
    | nil =>
      rw [List.nil_append, List.cons.injEq] at hrest
      exact ⟨by simpa using hl.symm, hrest.2⟩
    | cons v middle =>
      rw [List.cons_append, List.cons.injEq] at hrest
      exact absurd (hrest.2 ▸ by simp) htail
  · cases middle with
    | nil =>
      rw [List.nil_append, List.cons.injEq] at hrest
      exact ⟨by simpa using hl, hrest.2.symm⟩
    | cons v middle =>
      rw [List.cons_append, List.cons.injEq] at hrest
      exact absurd (hrest.2 ▸ by simp) htail'

/-- The separator of a key is not a digit. -/
lemma separator_notMem_decimal (n : ℕ) : charUnit '#' ∉ decimal n := by
  intro h
  have hdigit := mem_decimal h
  exact absurd hdigit.1 (by decide)

/-- A key determines the transaction and the segment. -/
theorem entryKey_inj {hash hash' : JsString} {segment segment' : ℕ} :
    entryKey hash segment = entryKey hash' segment' ↔ hash = hash' ∧ segment = segment' := by
  constructor
  · intro h
    have hseparated : hash ++ charUnit '#' :: decimal segment =
        hash' ++ charUnit '#' :: decimal segment' := by
      simpa [entryKey, js] using h
    obtain ⟨hhash, hdecimal⟩ := append_separator_inj (separator_notMem_decimal segment)
      (separator_notMem_decimal segment') hseparated
    exact ⟨hhash, decimal_injective hdecimal⟩
  · intro h
    rw [h.1, h.2]

/-- The key of a package of the events. -/
def Package.entryKey (pkg : Package) : JsString :=
  MultiPartEvent.entryKey pkg.transactionHash pkg.segment

/-- The key an entry is stored under. -/
def Entry.key (entry : Entry) : JsString := entryKey entry.transactionHash entry.segment

/-! ### The entries of the events -/

/-- The entries of the events are built by setting one key after the other. -/
lemma eventEntries_eq_collect (packages : List Package) :
    eventEntries packages =
      InsertionMap.collect Package.entryKey (fun _ pkg => eventEntry pkg) .empty packages := rfl

/-- Every entry of the events is that of a package, under its key. -/
lemma get?_eventEntries {packages : List Package} {key : JsString} {entry : Entry}
    (h : (eventEntries packages).get? key = some entry) :
    ∃ pkg ∈ packages, key = pkg.entryKey ∧ entry = eventEntry pkg := by
  rw [eventEntries_eq_collect, InsertionMap.get?_collect, InsertionMap.get?_empty] at h
  rcases List.eq_nil_or_concat (packages.filter fun pkg => pkg.entryKey = key) with hnil | hlast
  · rw [hnil] at h
    cases h
  · obtain ⟨earlier, pkg, hlast⟩ := hlast
    have hmem : pkg ∈ packages.filter fun pkg => pkg.entryKey = key := by
      rw [hlast]
      simp
    rw [hlast, List.concat_eq_append, List.foldl_append] at h
    obtain ⟨hpkg, hkey⟩ := List.mem_filter.mp hmem
    exact ⟨pkg, hpkg, (of_decide_eq_true hkey).symm, (Option.some.inj h).symm⟩

/-- Packages with different keys keep their entries. -/
lemma get?_eventEntries_of_nodup {packages : List Package}
    (hnodup : (packages.map Package.entryKey).Nodup) {pkg : Package} (hpkg : pkg ∈ packages) :
    (eventEntries packages).get? pkg.entryKey = some (eventEntry pkg) := by
  have hkey : pkg.entryKey ∈ (eventEntries packages).keys := by
    rw [eventEntries_eq_collect, InsertionMap.mem_keys_collect]
    exact .inr ⟨pkg, hpkg, rfl⟩
  obtain ⟨entry, hentry⟩ := InsertionMap.mem_keys_iff.mp hkey
  obtain ⟨other, hother, hsame, rfl⟩ := get?_eventEntries hentry
  rw [List.inj_on_of_nodup_map hnodup hpkg hother hsame]
  rw [← hsame, hentry]

/-! ### The entries of the raw bytes -/

section RawEntries

variable {hash : JsString} {raws : List Package} {entries : InsertionMap JsString Entry}

/-- Adding packages of the raw bytes keeps every entry. -/
lemma get?_foldl_addRawEntry {key : JsString} {entry : Entry} (h : entries.get? key = some entry) :
    (raws.foldl (addRawEntry hash) entries).get? key = some entry := by
  induction raws generalizing entries with
  | nil => exact h
  | cons pkg raws ih =>
    rw [List.foldl_cons]
    apply ih
    unfold addRawEntry
    split_ifs with hmem
    · exact h
    · have hne : key ≠ entryKey hash pkg.segment := by
        intro heq
        exact hmem (InsertionMap.mem_keys_iff.mpr ⟨entry, heq ▸ h⟩)
      rw [InsertionMap.get?_set, if_neg hne]
      exact h

/-- An entry is an earlier one or that of a package of the raw bytes. -/
lemma get?_foldl_addRawEntry_cases {key : JsString} {entry : Entry}
    (h : (raws.foldl (addRawEntry hash) entries).get? key = some entry) :
    entries.get? key = some entry ∨
      ∃ pkg ∈ raws, key = entryKey hash pkg.segment ∧ entry = rawEntry hash pkg := by
  induction raws generalizing entries with
  | nil => exact .inl h
  | cons pkg raws ih =>
    rw [List.foldl_cons] at h
    rcases ih h with hstep | ⟨other, hother, hkey, hentry⟩
    · unfold addRawEntry at hstep
      split_ifs at hstep with hmem
      · exact .inl hstep
      · rw [InsertionMap.get?_set] at hstep
        split_ifs at hstep with hkey
        · exact .inr ⟨pkg, by simp, hkey, (Option.some.inj hstep).symm⟩
        · exact .inl hstep
    · exact .inr ⟨other, List.mem_cons_of_mem _ hother, hkey, hentry⟩

/-- Every package of the raw bytes has an entry. -/
lemma mem_keys_foldl_addRawEntry {pkg : Package} (hpkg : pkg ∈ raws) :
    entryKey hash pkg.segment ∈ (raws.foldl (addRawEntry hash) entries).keys := by
  induction raws generalizing entries with
  | nil => simp at hpkg
  | cons first raws ih =>
    rw [List.foldl_cons]
    rcases List.mem_cons.mp hpkg with rfl | hrest
    · have hadded : entryKey hash pkg.segment ∈ (addRawEntry hash entries pkg).keys := by
        unfold addRawEntry
        split_ifs with hmem
        · exact hmem
        · simp
      obtain ⟨entry, hentry⟩ := InsertionMap.mem_keys_iff.mp hadded
      exact InsertionMap.mem_keys_iff.mpr ⟨entry, get?_foldl_addRawEntry hentry⟩
    · exact ih hrest

end RawEntries

/-! ### The loop over the transactions -/

section Collecting

variable {env : VerifyEnv} {source : VerifySource} {request : VerifyRequest} {name : Bytes}
  {packages : List Package}

/-- The source has the transaction, with raw bytes that decode. -/
def RawOf (env : VerifyEnv) (source : VerifySource) (hash : JsString) (decoded : Transaction) :
    Prop :=
  ∃ transaction, source.transaction hash = .ok (some transaction) ∧
    deserializeTransaction env.ledger transaction.raw = .ok decoded

/-- The facts of a transaction hold the decoded bytes exactly when the source has them. -/
lemma TransactionFacts.Records.decoded_eq_some_iff {hash : JsString} {fact : TransactionFacts}
    (h : fact.Records env source request hash) {decoded : Transaction} :
    fact.decoded = some decoded ↔ RawOf env source hash decoded := by
  unfold RawOf
  rw [h.decoded, h.transaction]
  simp [Option.bind_eq_some_iff, toOption_eq_some_iff]

/-- What has been collected from the packages of the events and some transactions. -/
structure CollectedFrom (env : VerifyEnv) (source : VerifySource) (request : VerifyRequest)
    (name : Bytes) (packages : List Package) (hashes : List JsString) (st : Collected) : Prop where
  /-- The facts are those of the transactions. -/
  facts : ∀ hash fact, st.facts.get? hash = some fact ↔
    hash ∈ hashes ∧ transactionFacts env source request hash = .ok fact
  known : ∀ hash ∈ hashes, ∃ fact, st.facts.get? hash = some fact
  /-- Every entry is under its key. -/
  keys : ∀ key entry, st.entries.get? key = some entry → key = entry.key
  /-- Every entry is of the events or of the raw bytes of a transaction. -/
  origin : ∀ entry ∈ st.entries.values, (∃ pkg ∈ packages, entry = eventEntry pkg) ∨
    ∃ hash ∈ hashes, ∃ decoded raws, RawOf env source hash decoded ∧
      rawPackages request name hash decoded = .ok raws ∧ ∃ pkg ∈ raws, entry = rawEntry hash pkg
  /-- No package of the events is lost or replaced. -/
  events : ∀ pkg ∈ packages, st.entries.get? pkg.entryKey = some (eventEntry pkg)
  /-- Every package of the raw bytes has an entry. -/
  raws : ∀ hash ∈ hashes, ∀ decoded, RawOf env source hash decoded →
    ∃ raws, rawPackages request name hash decoded = .ok raws ∧
      ∀ pkg ∈ raws, entryKey hash pkg.segment ∈ st.entries.keys

/-- Before the loop only the events have entries. -/
lemma collectedFrom_nil (hnodup : (packages.map Package.entryKey).Nodup) :
    CollectedFrom env source request name packages [] ⟨.empty, eventEntries packages⟩ := by
  refine ⟨by simp, by simp, ?_, ?_, fun pkg hpkg => get?_eventEntries_of_nodup hnodup hpkg, by simp⟩
  · intro key entry hentry
    obtain ⟨pkg, -, rfl, rfl⟩ := get?_eventEntries hentry
    rfl
  · intro entry hentry
    obtain ⟨key, hkey⟩ := InsertionMap.mem_values_iff.mp hentry
    obtain ⟨pkg, hpkg, -, rfl⟩ := get?_eventEntries hkey
    exact .inl ⟨pkg, hpkg, rfl⟩

/-- The facts after one more transaction. -/
lemma CollectedFrom.facts_set {hashes : List JsString} {st : Collected} {hash : JsString}
    {fact : TransactionFacts} (h : CollectedFrom env source request name packages hashes st)
    (hfact : transactionFacts env source request hash = .ok fact) (key : JsString)
    (value : TransactionFacts) : (st.facts.set hash fact).get? key = some value ↔
      key ∈ hashes ++ [hash] ∧ transactionFacts env source request key = .ok value := by
  rw [InsertionMap.get?_set, List.mem_append, List.mem_singleton]
  split_ifs with hkey
  · subst hkey
    simp [hfact]
  · rw [h.facts]
    simp [hkey]

/-- One transaction of the loop. -/
lemma CollectedFrom.step {hashes : List JsString} {st st' : Collected} {hash : JsString}
    (h : CollectedFrom env source request name packages hashes st)
    (hstep : addTransaction env source request name st hash = .ok st') :
    CollectedFrom env source request name packages (hashes ++ [hash]) st' := by
  unfold addTransaction at hstep
  obtain ⟨fact, hfact, hstep⟩ := bind_eq_ok_iff.mp hstep
  have hrecords := transactionFacts_records hfact
  have horigin : ∀ entry ∈ st.entries.values, (∃ pkg ∈ packages, entry = eventEntry pkg) ∨
      ∃ hash' ∈ hashes ++ [hash], ∃ decoded raws, RawOf env source hash' decoded ∧
        rawPackages request name hash' decoded = .ok raws ∧
          ∃ pkg ∈ raws, entry = rawEntry hash' pkg := by
    intro entry hentry
    rcases h.origin entry hentry with hevents | ⟨hash', hhash', hraw⟩
    · exact .inl hevents
    · exact .inr ⟨hash', List.mem_append_left _ hhash', hraw⟩
  have hknown :
      ∀ hash' ∈ hashes ++ [hash], ∃ fact', (st.facts.set hash fact).get? hash' = some fact' := by
    intro hash' hhash'
    rw [InsertionMap.get?_set]
    split_ifs with hsame
    · exact ⟨fact, rfl⟩
    · have hold : hash' ∈ hashes := by simpa [hsame] using hhash'
      exact h.known hash' hold
  cases hdecoded : fact.decoded with
  | none =>
    simp only [hdecoded, pure_eq_ok_iff] at hstep
    subst hstep
    refine ⟨h.facts_set hfact, hknown, h.keys, horigin, h.events, ?_⟩
    intro hash' hhash' decoded hraw
    rcases List.mem_append.mp hhash' with hold | hnew
    · exact h.raws hash' hold decoded hraw
    · rw [List.mem_singleton] at hnew
      subst hnew
      have hsome := hrecords.decoded_eq_some_iff.mpr hraw
      rw [hdecoded] at hsome
      cases hsome
  | some decoded =>
    have hraw := hrecords.decoded_eq_some_iff.mp hdecoded
    simp only [hdecoded] at hstep
    obtain ⟨raws, hraws, hstep⟩ := bind_eq_ok_iff.mp hstep
    rw [pure_eq_ok_iff] at hstep
    subst hstep
    refine ⟨h.facts_set hfact, hknown, ?_, ?_, ?_, ?_⟩
    · intro key entry hentry
      rcases get?_foldl_addRawEntry_cases hentry with hold | ⟨pkg, -, rfl, rfl⟩
      · exact h.keys key entry hold
      · rfl
    · intro entry hentry
      obtain ⟨key, hkey⟩ := InsertionMap.mem_values_iff.mp hentry
      rcases get?_foldl_addRawEntry_cases hkey with hold | ⟨pkg, hpkg, -, rfl⟩
      · exact horigin entry (InsertionMap.mem_values_iff.mpr ⟨key, hold⟩)
      · exact .inr ⟨hash, by simp, decoded, raws, hraw, hraws, pkg, hpkg, rfl⟩
    · intro pkg hpkg
      exact get?_foldl_addRawEntry (h.events pkg hpkg)
    · intro hash' hhash' decoded' hraw'
      rcases List.mem_append.mp hhash' with hold | hnew
      · obtain ⟨raws', hraws', hkeys⟩ := h.raws hash' hold decoded' hraw'
        refine ⟨raws', hraws', fun pkg hpkg => ?_⟩
        obtain ⟨entry, hentry⟩ := InsertionMap.mem_keys_iff.mp (hkeys pkg hpkg)
        exact InsertionMap.mem_keys_iff.mpr ⟨entry, get?_foldl_addRawEntry hentry⟩
      · rw [List.mem_singleton] at hnew
        subst hnew
        have hsome := hrecords.decoded_eq_some_iff.mpr hraw'
        rw [hdecoded, Option.some.injEq] at hsome
        subst hsome
        exact ⟨raws, hraws, fun pkg hpkg => mem_keys_foldl_addRawEntry hpkg⟩

/-- What the loop over all transactions collects. -/
lemma collectedFrom_foldlM {hashes : List JsString} {st : Collected}
    (hnodup : (packages.map Package.entryKey).Nodup)
    (h : hashes.foldlM (addTransaction env source request name) ⟨.empty, eventEntries packages⟩ =
      .ok st) : CollectedFrom env source request name packages hashes st := by
  have hrun := foldlM_invariant
    (I := fun i st => CollectedFrom env source request name packages (hashes.take i) st)
    (collectedFrom_nil hnodup)
    (fun i hash st st' hhash hst hstep => by
      rw [List.take_add_one, hhash]
      exact hst.step hstep)
    le_rfl (i := hashes.length) (by rwa [List.take_length])
  rwa [List.take_length] at hrun

end Collecting

end MultiPartEvent
