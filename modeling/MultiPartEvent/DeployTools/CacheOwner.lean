import MultiPartEvent.DeployTools.CacheSaving

/-!
# The owner of a wallet cache

A cache file belongs to the wallet whose identity it names.  Loads and saves refuse it to every
other wallet, and a load restores only what a current envelope of its own wallet holds: that is the
`CacheContract` of the next call.  After every sequence of calls, whether they return or throw, the
contract holds and a cache is never taken from its owner (`cache_kept`).
-/

namespace MultiPartEvent

variable {files : Files} {outcomes : Outcomes} {cwd path : JsString}

/-! ### What an envelope holds -/

/-- The envelope has the current format version and SDK. -/
def IsCurrent (members : Members) : Prop :=
  isOne (member? members (js "version")) = true ∧
    isText (member? members (js "sdk")) walletCacheSdk = true

/-- The envelope has the four string fields, with these values. -/
structure Holds (members : Members) (savedAt : JsString) (snapshots : WalletSnapshots) : Prop where
  shielded : member? members (js "shielded") = some (.string snapshots.shielded)
  unshielded : member? members (js "unshielded") = some (.string snapshots.unshielded)
  dust : member? members (js "dust") = some (.string snapshots.dust)
  savedAt : member? members (js "savedAt") = some (.string savedAt)

/-- An envelope is restorable when it is current and complete, with what it holds. -/
lemma loadEnvelope_eq_restorable_iff {members : Members} {savedAt : JsString}
    {snapshots : WalletSnapshots} : loadEnvelope members = .restorable savedAt snapshots ↔
      IsCurrent members ∧ Holds members savedAt snapshots := by
  unfold loadEnvelope IsCurrent
  constructor
  · intro h
    split_ifs at h with hcurrent
    split at h
    · rename_i hshielded hunshielded hdust hsavedAt
      cases h
      exact ⟨hcurrent, hshielded, hunshielded, hdust, hsavedAt⟩
    · cases h
  · intro h
    obtain ⟨hcurrent, hholds⟩ := h
    rw [if_neg (not_not.mpr hcurrent), hholds.shielded, hholds.unshielded, hholds.dust,
      hholds.savedAt]

/-- An envelope that is not restorable is stale. -/
lemma loadEnvelope_stale {members : Members}
    (h : ¬∃ savedAt snapshots, IsCurrent members ∧ Holds members savedAt snapshots) :
    ∃ reason, loadEnvelope members = .stale reason := by
  cases hload : loadEnvelope members with
  | stale reason => exact ⟨reason, rfl⟩
  | restorable savedAt snapshots =>
    exact absurd ⟨savedAt, snapshots, loadEnvelope_eq_restorable_iff.mp hload⟩ h
  | absent =>
    unfold loadEnvelope at hload
    split_ifs at hload
    split at hload <;> cases hload

/-- A cache file belongs to one wallet. -/
lemma OwnedBy.unique {identity identity' : WalletCacheIdentity} {entry : FileEntry}
    (h : OwnedBy identity entry) (h' : OwnedBy identity' entry) : identity = identity' := by
  obtain ⟨members, hcache, hbelongs⟩ := h
  obtain ⟨members', hcache', hbelongs'⟩ := h'
  rw [hcache'.unique hcache] at hbelongs'
  have htext :
      ∀ (value : Option Json) (s t : JsString), isText value s = true → isText value t = true →
      s = t := by
    intro value s t hs ht
    unfold isText at hs ht
    split at hs
    · simp only [decide_eq_true_eq] at hs ht
      rw [← hs, ht]
    · cases hs
  simp only [belongsTo, WalletCacheIdentity.fields, List.all_cons, List.all_nil, Bool.and_true,
    Bool.and_eq_true] at hbelongs hbelongs'
  obtain ⟨hnetwork, hcoin, hencryption, hunshielded, hdust⟩ := hbelongs
  obtain ⟨hnetwork', hcoin', hencryption', hunshielded', hdust'⟩ := hbelongs'
  exact WalletCacheIdentity.ext (htext _ _ _ hnetwork hnetwork') (htext _ _ _ hcoin hcoin')
    (htext _ _ _ hencryption hencryption') (htext _ _ _ hunshielded hunshielded')
    (htext _ _ _ hdust hdust')

/-! ### Calls by any wallets -/

/-- A call by some wallet, and how its file-system calls turn out. -/
inductive CacheCall where
  | load (identity : WalletCacheIdentity) (allowInsideRepository : Bool) (outcomes : Outcomes)
  | save (request : SaveRequest) (outcomes : Outcomes)

/-- The files after a call, whether it returns or throws. -/
def CacheCall.after (cwd path : JsString) (files : Files) : CacheCall → Files
  | .load identity allow outcomes =>
    (loadWalletCache (fileSystem outcomes) cwd path identity allow files).2
  | .save request outcomes => (saveWalletCache (fileSystem outcomes) cwd path request files).2

/-- The files after a sequence of calls. -/
def runCalls (cwd path : JsString) (start : Files) (calls : List CacheCall) : Files :=
  calls.foldl (CacheCall.after cwd path) start

/-- What holds of the next call, whatever it is. -/
structure CacheContract (cwd path : JsString) (files : Files) : Prop where
  /-- A load changes nothing. -/
  load_unchanged : ∀ outcomes identity allow,
    (loadWalletCache (fileSystem outcomes) cwd path identity allow files).2 = files
  /-- A load refuses what is no cache file of the caller. -/
  load_refused : ∀ outcomes identity allow entry, files path = some entry →
    ¬OwnedBy identity entry →
    ∃ detail, (loadWalletCache (fileSystem outcomes) cwd path identity allow).Throws files
      (.walletCacheError path detail) files
  /-- A save refuses what is no cache file of the caller, and leaves it. -/
  save_refused : ∀ outcomes request entry, files path = some entry →
    ¬OwnedBy request.identity entry →
    ∃ detail, (saveWalletCache (fileSystem outcomes) cwd path request).Throws files
      (.walletCacheError path detail) files
  /-- A load returns the snapshots of a current and complete envelope of the caller only. -/
  restorable : ∀ outcomes identity allow savedAt snapshots files',
    (loadWalletCache (fileSystem outcomes) cwd path identity allow).Returns files
      (.restorable savedAt snapshots) files' →
    ∃ entry members, files path = some entry ∧ CacheAt entry members ∧
      belongsTo members identity = true ∧ IsCurrent members ∧ Holds members savedAt snapshots
  /-- Any other envelope of the caller is stale, when its calls let the load return. -/
  stale : ∀ outcomes identity allow entry members, files path = some entry → CacheAt entry members →
    belongsTo members identity = true →
    (¬∃ savedAt snapshots, IsCurrent members ∧ Holds members savedAt snapshots) →
    (∀ result files', (loadWalletCache (fileSystem outcomes) cwd path identity allow).Returns files
      result files' → ∃ reason, result = .stale reason) ∧
    (LocationAccepted outcomes cwd path allow → Accepted outcomes (some entry) (some members) →
      ∃ result,
      (loadWalletCache (fileSystem outcomes) cwd path identity allow).Returns files result files)
  /-- The caller's save replaces a cache file of the caller, when its calls do their work. -/
  replaced : ∀ outcomes request savedAt entry, files path = some entry →
    OwnedBy request.identity entry → CallsSucceed outcomes cwd path request savedAt files →
    (saveWalletCache (fileSystem outcomes) cwd path request).Returns files ()
      (Function.update files path (some (savedFile outcomes
        (envelopeText request.identity savedAt request.snapshots))))
  /-- A cache file has one owner. -/
  one_owner : ∀ identity identity' entry, OwnedBy identity entry → OwnedBy identity' entry →
    identity = identity'

/-- A load changes nothing. -/
lemma load_unchanged (outcomes : Outcomes) (cwd path : JsString) (identity : WalletCacheIdentity)
    (allow : Bool) (files : Files) :
    (loadWalletCache (fileSystem outcomes) cwd path identity allow files).2 = files := by
  rcases Action.returns_or_throws
      (loadWalletCache (fileSystem outcomes) cwd path identity allow) files
    with ⟨result, files', h⟩ | ⟨err, files', h⟩
  · obtain ⟨-, -, rfl⟩ := returns_loadWalletCache_iff.mp h
    rw [h]
  · obtain ⟨-, rfl⟩ := throws_loadWalletCache h
    rw [h]

/-- What a load accepts at a path that holds an entry is a cache file. -/
lemma Accepted.ownedBy {entry : FileEntry} {found : Option Members} {identity : WalletCacheIdentity}
    (h : Accepted outcomes (some entry) found)
    (hbelongs : ∀ members, found = some members → belongsTo members identity = true) :
    OwnedBy identity entry := by
  obtain ⟨-, h⟩ := h
  cases found with
  | none => exact absurd h id
  | some members => exact ⟨members, h.1, hbelongs members rfl⟩

/-- A load refuses what is no cache file of the caller. -/
lemma load_refused {identity : WalletCacheIdentity} {allow : Bool} {entry : FileEntry}
    (hentry : files path = some entry) (hforeign : ¬OwnedBy identity entry) :
    ∃ detail, (loadWalletCache (fileSystem outcomes) cwd path identity allow).Throws files
      (.walletCacheError path detail) files := by
  rcases Action.returns_or_throws
      (loadWalletCache (fileSystem outcomes) cwd path identity allow) files
    with ⟨result, files', h⟩ | ⟨err, files', h⟩
  · obtain ⟨-, hfound, -⟩ := returns_loadWalletCache_iff.mp h
    rw [hentry] at hfound
    rcases hfound with ⟨haccepted, -⟩ | ⟨members, haccepted, hbelongs, -⟩
    · exact absurd haccepted.2 id
    · exact absurd (haccepted.ownedBy fun _ hsome => Option.some.inj hsome ▸ hbelongs) hforeign
  · obtain ⟨⟨detail, rfl⟩, rfl⟩ := throws_loadWalletCache h
    exact ⟨detail, h⟩

/-- A save refuses what is no cache file of the caller. -/
lemma save_refused {request : SaveRequest} {entry : FileEntry} (hentry : files path = some entry)
    (hforeign : ¬OwnedBy request.identity entry) :
    ∃ detail, (saveWalletCache (fileSystem outcomes) cwd path request).Throws files
      (.walletCacheError path detail) files := by
  rcases saveWalletCache_spec outcomes cwd path request files with ⟨-, hresult⟩ | ⟨hpass, -⟩
  · exact hresult
  · obtain ⟨found, haccepted, hbelongs⟩ := hpass.accepted
    rw [hentry] at haccepted
    exact absurd (haccepted.ownedBy hbelongs) hforeign

/-- The contract holds of every call on every files. -/
lemma cacheContract (cwd path : JsString) (files : Files) : CacheContract cwd path files where
  load_unchanged outcomes identity allow := load_unchanged outcomes cwd path identity allow files
  load_refused _ _ _ _ := load_refused
  save_refused _ _ _ := save_refused
  restorable := by
    intro outcomes identity allow savedAt snapshots files' h
    obtain ⟨-, hfound, -⟩ := returns_loadWalletCache_iff.mp h
    rcases hfound with ⟨-, habsent⟩ | ⟨members, haccepted, hbelongs, hload⟩
    · cases habsent
    obtain ⟨hcurrent, hholds⟩ := loadEnvelope_eq_restorable_iff.mp hload.symm
    obtain ⟨entry, hentry, hcache⟩ := haccepted.cacheAt
    exact ⟨entry, members, hentry, hcache, hbelongs, hcurrent, hholds⟩
  stale := by
    intro outcomes identity allow entry members hentry hcache hbelongs hstale
    obtain ⟨reason, hreason⟩ := loadEnvelope_stale hstale
    refine ⟨?_, ?_⟩
    · intro result files' h
      obtain ⟨-, hfound, -⟩ := returns_loadWalletCache_iff.mp h
      rw [hentry] at hfound
      rcases hfound with ⟨haccepted, -⟩ | ⟨members', haccepted, -, hload⟩
      · exact absurd haccepted.2 id
      · rw [haccepted.2.1.unique hcache, hreason] at hload
        exact ⟨reason, hload⟩
    · intro hlocated haccepted
      refine ⟨_, returns_loadWalletCache_iff.mpr ⟨hlocated, Or.inr ⟨members, ?_, hbelongs, rfl⟩,
        rfl⟩⟩
      rwa [hentry]
  replaced := by
    intro outcomes request savedAt entry hentry howned hsucceed
    refine returns_saveWalletCache_iff.mpr ⟨hsucceed.checksPass ?_, hsucceed.writes, savedAt,
      hsucceed.time, rfl⟩
    intro entry' hentry'
    rw [hentry] at hentry'
    exact Option.some.inj hentry' ▸ howned
  one_owner _ _ _ h h' := h.unique h'

/-- A call by another wallet leaves what the path holds. -/
lemma CacheCall.after_kept {entry : FileEntry} (hentry : files path = some entry) {call : CacheCall}
    (hforeign : ∀ request outcomes, call = .save request outcomes →
      ¬OwnedBy request.identity entry) :
    call.after cwd path files path = some entry := by
  cases call with
  | load identity allow outcomes =>
    rw [CacheCall.after, load_unchanged]
    exact hentry
  | save request outcomes =>
    obtain ⟨detail, hrefused⟩ := @save_refused files outcomes cwd path request entry hentry
      (hforeign request outcomes rfl)
    rw [CacheCall.after, hrefused]
    exact hentry

/-- **A cache file is never taken from its owner**: after every sequence of calls the contract holds
of the next one, and what the path held at first is still there unless its owner has saved. -/
theorem cache_kept (cwd path : JsString) (start : Files) (calls : List CacheCall) :
    CacheContract cwd path (runCalls cwd path start calls) ∧
      ∀ entry, start path = some entry →
        (∀ request outcomes, .save request outcomes ∈ calls → ¬OwnedBy request.identity entry) →
          runCalls cwd path start calls path = some entry := by
  refine ⟨cacheContract cwd path _, ?_⟩
  intro entry hentry hforeign
  induction calls generalizing start with
  | nil => exact hentry
  | cons call calls ih =>
    have hkept : call.after cwd path start path = some entry := by
      refine CacheCall.after_kept hentry ?_
      rintro request outcomes rfl
      exact hforeign request outcomes List.mem_cons_self
    exact ih _ hkept fun request outcomes hmem =>
      hforeign request outcomes (List.mem_cons_of_mem _ hmem)

end MultiPartEvent
