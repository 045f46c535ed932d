import MultiPartEvent.DeployTools.CommandSteps

/-!
# Runs that share the path of their record

A command tests that there is no file at the path of its record, and writes its first record there
much later, by a renaming that replaces what is there.  Two runs with one path can both pass the
test, and the record of the one then replaces that of the other (`record_replaced`).

The renaming is all that can go wrong.  If no run renames its first record onto a file, at most one
of them ever writes a record, and the file keeps it (`submitted_records_kept`).
-/

namespace MultiPartEvent

/-! ### What a run does to the files -/

/-- The records a history has written to a path. -/
def recordsAt (path : JsString) (history : History) : List CommandRecord :=
  history.filterMap (savedAt path)

/-- A transaction has been submitted. -/
def HasSubmitted (history : History) : Prop := history.countP isSubmission ≠ 0

instance (history : History) : Decidable (HasSubmitted history) :=
  inferInstanceAs (Decidable (_ ≠ _))

/-- What a step of a run does: it keeps every file but the record and the temporary file; it leaves
the record alone, or writes the next one; and it submits only after a record. -/
structure OwnStep (out temporary : JsString) (s s' : CommandState) : Prop where
  files : ∀ path, path ≠ out → path ≠ temporary → s.files path ≠ none →
    s'.files path = s.files path
  record : (recordsAt out s'.history = recordsAt out s.history ∧
      (s.files out ≠ none → s'.files out = s.files out)) ∨
    ∃ record, recordsAt out s'.history = recordsAt out s.history ++ [record] ∧
      s'.files out = some (.record record)
  submission : HasSubmitted s'.history → HasSubmitted s.history ∨ recordsAt out s.history ≠ []

/-- What others do meanwhile: they keep the temporary file. -/
structure Meanwhile (temporary : JsString) (s s' : CommandState) : Prop where
  history : s'.history = s.history
  temporary : s.files temporary ≠ none → s'.files temporary = s.files temporary

/-- Since `start`, no file has been changed, no record written and nothing submitted. -/
structure Undisturbed (out : JsString) (start s : CommandState) : Prop where
  files : ∀ path, start.files path ≠ none → s.files path = start.files path
  records : recordsAt out s.history = recordsAt out start.history
  submissions : s.history.countP isSubmission = start.history.countP isSubmission

/-- A record has been written if one is asked for. -/
def Written (out : JsString) (asked : Bool) (s : CommandState) : Prop :=
  asked = true → recordsAt out s.history ≠ []

section Rules

variable {out temporary : JsString} {asked : Bool} {start s s' t : CommandState}

/-- Calls that submit nothing and new files disturb nothing. -/
lemma undisturbed_steady : Steady (Undisturbed out start) := by
  constructor
  · intro s calls hcalls h
    have hrecords : ∀ past, (calls.map fun call => CommandEvent.called call past).filterMap
        (savedAt out) = [] := by
      intro past
      rw [List.filterMap_eq_nil_iff]
      intro event hevent
      obtain ⟨call, -, rfl⟩ := List.mem_map.mp hevent
      rfl
    have hcounts : ∀ past, (calls.map fun call => CommandEvent.called call past).countP
        isSubmission = 0 := by
      intro past
      rw [List.countP_eq_zero]
      intro event hevent
      obtain ⟨call, hcall, rfl⟩ := List.mem_map.mp hevent
      rw [hcalls call hcall past]
      exact Bool.false_ne_true
    refine ⟨h.files, ?_, ?_⟩
    · rw [← h.records, recordsAt, List.filterMap_append, hrecords, List.append_nil]
      rfl
    · rw [← h.submissions, List.countP_append, hcounts, add_zero]
  · intro s path hnone h
    refine ⟨?_, ?_, ?_⟩
    · intro other hother
      have hne : other ≠ path := by
        rintro rfl
        rw [h.files other hother] at hnone
        exact hother hnone
      exact (if_neg hne).trans (h.files other hother)
    · rw [← h.records, recordsAt, CommandState.wrote, List.filterMap_append]
      exact List.append_nil _
    · rw [← h.submissions, CommandState.wrote, List.countP_append]
      rfl

/-- Nothing has happened since the start. -/
lemma Undisturbed.refl (out : JsString) (s : CommandState) : Undisturbed out s s :=
  ⟨fun _ _ => rfl, rfl, rfl⟩

/-- Where nothing is disturbed, a step does what a run may do. -/
lemma Undisturbed.ownStep (h : Undisturbed out s s') : OwnStep out temporary s s' := by
  refine ⟨fun path _ _ hpath => h.files path hpath, Or.inl ⟨h.records, h.files out⟩, ?_⟩
  intro hsubmitted
  left
  unfold HasSubmitted at hsubmitted ⊢
  rw [← h.submissions]
  exact hsubmitted

/-- What has been written is not undone by others. -/
lemma Written.of_meanwhile (h : Written out asked s) (hmeanwhile : Meanwhile temporary s t) :
    Written out asked t := by
  unfold Written at h ⊢
  rw [hmeanwhile.history]
  exact h

/-- What others do is nothing, or what they do one after the other. -/
lemma Meanwhile.refl (temporary : JsString) (s : CommandState) : Meanwhile temporary s s :=
  ⟨rfl, fun _ => rfl⟩

/-- What other runs do in two stretches of time, they do in both together. -/
lemma Meanwhile.trans (h : Meanwhile temporary s s') (h' : Meanwhile temporary s' t) :
    Meanwhile temporary s t := by
  refine ⟨h'.history.trans h.history, ?_⟩
  intro hfile
  have hkept := h.temporary hfile
  rw [← hkept]
  exact h'.temporary (by rw [hkept]; exact hfile)

/-! ### One step -/

variable {α β : Type} {f : α → CommandProcess β}

/-- After a step that disturbs nothing, the run goes on. -/
lemma obeys_quiet_bind {x : Command α} (hx : ∀ start, Action.Keeps (Undisturbed out start) x)
    (hnext : ∀ a,
      Process.Obeys (Meanwhile temporary) (OwnStep out temporary) (Written out asked) (f a)) :
    Process.Obeys (Meanwhile temporary) (OwnStep out temporary) (Written out asked)
      ((MonadLiftT.monadLift x : CommandProcess α) >>= f) := by
  have hquiet : ∀ s, Undisturbed out s (x s).2 := fun s => hx s s (.refl out s)
  refine Process.obeys_keeps_bind (fun _ _ => Written.of_meanwhile) (fun s _ => (hquiet s).ownStep)
    ?_ hnext
  intro s hs hasked
  rw [(hquiet s).records]
  exact hs hasked

/-- Writing a file that is not the record. -/
lemma ownStep_wrote (hpath : temporary ≠ out) (s : CommandState) (content : FileContent) :
    OwnStep out temporary s (s.wrote temporary content) ∧
      recordsAt out (s.wrote temporary content).history = recordsAt out s.history := by
  have hsaves : savedAt out (.wrote temporary content) = none := by
    cases content with
    | record record => exact if_neg hpath
    | other => rfl
  have hrecords : recordsAt out (s.wrote temporary content).history = recordsAt out s.history := by
    rw [recordsAt, CommandState.wrote, List.filterMap_append, List.filterMap_cons, hsaves]
    exact List.append_nil _
  refine ⟨⟨?_, Or.inl ⟨hrecords, fun _ => if_neg hpath.symm⟩, ?_⟩, hrecords⟩
  · intro path _ hne _
    exact if_neg hne
  · intro hsubmitted
    left
    unfold HasSubmitted at hsubmitted ⊢
    rw [CommandState.wrote, List.countP_append] at hsubmitted
    exact hsubmitted

/-- Renaming the temporary file onto the record. -/
lemma ownStep_renamed (s : CommandState) (record : CommandRecord) :
    OwnStep out temporary s ((s.without temporary).wrote out (.record record)) ∧
      recordsAt out ((s.without temporary).wrote out (.record record)).history =
        recordsAt out s.history ++ [record] := by
  have hsaves : savedAt out (.wrote out (.record record)) = some record := if_pos rfl
  have hrecords : recordsAt out ((s.without temporary).wrote out (.record record)).history =
      recordsAt out s.history ++ [record] := by
    rw [recordsAt, CommandState.wrote, List.filterMap_append, List.filterMap_cons, hsaves]
    rfl
  refine ⟨⟨?_, Or.inr ⟨record, hrecords, if_pos rfl⟩, ?_⟩, hrecords⟩
  · intro path hout htemporary _
    exact (if_neg hout).trans (if_neg htemporary)
  · intro hsubmitted
    left
    unfold HasSubmitted at hsubmitted ⊢
    rw [CommandState.wrote, List.countP_append] at hsubmitted
    exact hsubmitted

/-- **After a record has been written**, the run goes on. -/
lemma obeys_writeRecord_bind {machine : Machine} {record : CommandRecord}
    {g : Unit → CommandProcess β}
    (htemporary : temporary = out ++ js ".tmp-" ++ decimal machine.pid)
    (hnext :
      Process.Obeys (Meanwhile temporary) (OwnStep out temporary) (Written out true) (g ())) :
    Process.Obeys (Meanwhile temporary) (OwnStep out temporary) (Written out asked)
      (writeRecordSteps machine out record >>= g) := by
  have hpath : temporary ≠ out := by
    rw [htemporary]
    exact temporary_ne out machine.pid
  unfold writeRecordSteps
  simp only
  rw [Process.bind_assoc, ← htemporary]
  refine Process.obeys_lift_bind (fun _ _ => Written.of_meanwhile) ?_ fun _ => ?_
  · intro s _
    unfold writeFileSync writeAs
    cases machine.writeFileSync s.history temporary with
    | done => exact (ownStep_wrote hpath s _).1
    | failed error left =>
      cases left with
      | false => exact (Undisturbed.refl out s).ownStep
      | true => exact (ownStep_wrote hpath s _).1
  -- others keep the temporary file, so it still holds the record when it is renamed
  have hrename : Process.Obeys (Meanwhile temporary) (OwnStep out temporary)
      (fun s => s.files temporary = some (.record record))
      ((MonadLiftT.monadLift (renameSync machine temporary out) : CommandProcess Unit) >>= g) := by
    refine Process.obeys_lift_bind ?_ ?_ fun _ => hnext.of_imp ?_
    · intro s t hs hmeanwhile
      rw [← hs]
      exact hmeanwhile.temporary (by rw [hs]; exact Option.some_ne_none _)
    · intro s hs
      unfold renameSync
      rw [hs]
      cases machine.renameSync s.history temporary out with
      | some error => exact (Undisturbed.refl out s).ownStep
      | none => exact (ownStep_renamed s record).1
    · intro s' h _
      obtain ⟨s, hs, hreturns⟩ := h
      rw [renameSync_returns hs hreturns, (ownStep_renamed s record).2]
      simp
  refine hrename.of_imp ?_
  intro s' h
  obtain ⟨s, _, hreturns⟩ := h
  rw [writeFileSync_returns hreturns]
  exact if_pos rfl

/-- **A run submits after its record.** -/
lemma obeys_submit_bind (run : History → Run Transaction α)
    (hnext : ∀ a,
      Process.Obeys (Meanwhile temporary) (OwnStep out temporary) (Written out true) (f a)) :
    Process.Obeys (Meanwhile temporary) (OwnStep out temporary) (Written out true)
      ((MonadLiftT.monadLift (callServices .submitTx run) : CommandProcess α) >>= f) := by
  have hrecords : ∀ s, recordsAt out (callServices .submitTx run s).2.history =
      recordsAt out s.history := by
    intro s
    have hnone :
        ((run s.history).calls.map fun c => CommandEvent.called (.submitTx c) s.files).filterMap
        (savedAt out) = [] := by
      rw [List.filterMap_eq_nil_iff]
      intro event hevent
      obtain ⟨call, -, rfl⟩ := List.mem_map.mp hevent
      rfl
    rw [recordsAt, callServices, List.filterMap_append, hnone, List.append_nil]
    rfl
  refine Process.obeys_keeps_bind (fun _ _ => Written.of_meanwhile) ?_ ?_ hnext
  · intro s hs
    exact ⟨fun _ _ _ _ => rfl, Or.inl ⟨hrecords s, fun _ => rfl⟩, fun _ => Or.inr (hs rfl)⟩
  · intro s hs hasked
    rw [hrecords s]
    exact hs hasked

/-- After code that changes nothing, the run goes on. -/
lemma obeys_except_bind (result : Except CommandError α)
    (hnext : ∀ a,
      Process.Obeys (Meanwhile temporary) (OwnStep out temporary) (Written out asked) (f a)) :
    Process.Obeys (Meanwhile temporary) (OwnStep out temporary) (Written out asked)
      ((MonadLiftT.monadLift result : CommandProcess α) >>= f) :=
  obeys_quiet_bind (fun _ => Action.keeps_lift result) hnext

end Rules

/-! ### The commands -/

section Commands

variable {tools : CommandTools} {machine : Machine} {services : ChainServices}
  {I : CommandState → Prop}

/-- Waiting for an inclusion. -/
lemma keeps_reportedInclusion (hI : Steady I) (identifiers : List JsString) (ttl : JsDate)
    (notSeen : JsString) :
    Action.Keeps I (reportedInclusion machine services identifiers ttl notSeen) := by
  unfold reportedInclusion
  refine (Action.keeps_look _).bind fun timeoutMs => ?_
  refine (keeps_ask hI (fun _ => rfl) _).bind fun inclusion => ?_
  exact Action.keeps_lift _

/-- Checking the deployed state. -/
lemma keeps_checkDeployed (options : DeployOptions) (built : BuiltDeploy)
    (key : SignatureVerifyingKey) (authority stateBytes : Bytes) :
    Action.Keeps I (checkDeployed tools options built key authority stateBytes) := by
  unfold checkDeployed
  refine (keeps_compute _).bind fun deployed => ?_
  split
  · exact Action.keeps_fail _
  · refine (Action.keeps_failIf _ _).bind fun _ => ?_
    refine (keeps_compute _).bind fun view => ?_
    exact Action.keeps_failIf _ _

/-- Building a pin. -/
lemma keeps_buildPin (hI : Steady I) (options : PinOptions) :
    Action.Keeps I (buildPin tools machine services options) := by
  unfold buildPin
  refine (Action.keeps_failIf _ _).bind fun _ => ?_
  refine (Action.keeps_failIf _ _).bind fun _ => ?_
  refine (keeps_readWitnessSecret _).bind fun secret => ?_
  refine (keeps_requiredCircuit _ _ _).bind fun pin => ?_
  refine (keeps_ask hI (fun _ => rfl) _).bind fun before => ?_
  refine (keeps_compute _).bind fun countBefore => ?_
  refine (keeps_ask hI (fun _ => rfl) _).bind fun built => ?_
  exact Action.keeps_pure _

/-- The temporary file of a run's record. -/
def temporaryOf (machine : Machine) (out : JsString) : JsString :=
  out ++ js ".tmp-" ++ decimal machine.pid

/-- The run does what a run may do. -/
abbrev RunObeys {α : Type} (machine : Machine) (out : JsString) (p : CommandProcess α) : Prop :=
  Process.Obeys (Meanwhile (temporaryOf machine out)) (OwnStep out (temporaryOf machine out))
    (Written out false) p

/-- A deployment does what a run may do. -/
lemma runDeploySteps_obeys (options : DeployOptions) :
    RunObeys machine options.out (runDeploySteps tools machine services options) := by
  have hquiet : ∀ start, Steady (Undisturbed options.out start) := fun _ => undisturbed_steady
  unfold runDeploySteps
  refine obeys_quiet_bind (fun _ => keeps_assertNewRecord _) fun _ => ?_
  refine obeys_quiet_bind (fun _ => keeps_deployAuthority (hquiet _) options) fun authority => ?_
  refine obeys_quiet_bind (fun _ => keeps_maintenanceKey (hquiet _) options) fun key => ?_
  refine obeys_quiet_bind (fun _ => keeps_buildDeployment (hquiet _) options _ _) fun pinned => ?_
  refine obeys_writeRecord_bind rfl ?_
  refine obeys_quiet_bind (fun _ => keeps_logLine (hquiet _) _) fun _ => ?_
  refine obeys_quiet_bind (fun _ => keeps_callServices (hquiet _) (fun _ _ => rfl) _)
    fun finalized => ?_
  refine obeys_writeRecord_bind rfl ?_
  refine obeys_submit_bind _ fun submittedId => ?_
  refine obeys_writeRecord_bind rfl ?_
  refine obeys_quiet_bind (fun _ => keeps_logLine (hquiet _) _) fun _ => ?_
  refine obeys_quiet_bind (fun _ => keeps_reportedInclusion (hquiet _) _ _ _) fun inclusion => ?_
  refine obeys_writeRecord_bind rfl ?_
  refine obeys_quiet_bind (fun _ => keeps_logLine (hquiet _) _) fun _ => ?_
  refine obeys_quiet_bind (fun _ => Action.keeps_failIf _ _) fun _ => ?_
  refine obeys_quiet_bind (fun _ => keeps_ask (hquiet _) (fun _ => rfl) _) fun state => ?_
  refine obeys_except_bind _ fun stateBytes => ?_
  refine obeys_quiet_bind (fun _ => keeps_checkDeployed _ _ _ _ _) fun _ => ?_
  refine obeys_writeRecord_bind rfl ?_
  refine obeys_quiet_bind (fun _ => keeps_logLine (hquiet _) _) fun _ => ?_
  exact Process.obeys_pure _

/-- A publication does what a run may do. -/
lemma runPublishSteps_obeys (options : PublishOptions) :
    RunObeys machine options.out (runPublishSteps tools machine services options) := by
  have hquiet : ∀ start, Steady (Undisturbed options.out start) := fun _ => undisturbed_steady
  unfold runPublishSteps
  refine obeys_quiet_bind (fun _ => keeps_assertNewRecord _) fun _ => ?_
  refine obeys_quiet_bind (fun _ => keeps_buildPublication (hquiet _) options) fun built => ?_
  refine obeys_quiet_bind (fun _ => keeps_logLine (hquiet _) _) fun _ => ?_
  refine obeys_quiet_bind (fun _ => keeps_callServices (hquiet _) (fun _ _ => rfl) _)
    fun finalized => ?_
  refine obeys_quiet_bind (fun _ => keeps_compute _) fun record => ?_
  refine obeys_writeRecord_bind rfl ?_
  refine obeys_quiet_bind (fun _ => keeps_logLine (hquiet _) _) fun _ => ?_
  split
  · exact Process.obeys_pure _
  refine obeys_submit_bind _ fun submittedId => ?_
  refine obeys_writeRecord_bind rfl ?_
  refine obeys_quiet_bind (fun _ => keeps_logLine (hquiet _) _) fun _ => ?_
  refine obeys_quiet_bind (fun _ => keeps_reportedInclusion (hquiet _) _ _ _) fun inclusion => ?_
  refine obeys_quiet_bind (fun _ => keeps_compute _) fun included => ?_
  refine obeys_writeRecord_bind rfl ?_
  refine obeys_quiet_bind (fun _ => Action.keeps_failIf _ _) fun _ => ?_
  refine obeys_quiet_bind (fun _ => keeps_compute _) fun verification => ?_
  refine obeys_quiet_bind (fun _ => keeps_compute _) fun packages => ?_
  refine obeys_writeRecord_bind rfl ?_
  refine obeys_quiet_bind (fun _ => keeps_logLine (hquiet _) _) fun _ => ?_
  refine obeys_quiet_bind (fun _ => keeps_logPackages (hquiet _) packages) fun _ => ?_
  refine obeys_quiet_bind (fun _ => Action.keeps_failIf _ _) fun _ => ?_
  exact Process.obeys_pure _

/-- A pin does what a run may do. -/
lemma runPinSteps_obeys (options : PinOptions) :
    RunObeys machine options.out (runPinSteps tools machine services options) := by
  have hquiet : ∀ start, Steady (Undisturbed options.out start) := fun _ => undisturbed_steady
  unfold runPinSteps
  refine obeys_quiet_bind (fun _ => keeps_assertNewRecord _) fun _ => ?_
  refine obeys_quiet_bind (fun _ => keeps_buildPin (hquiet _) options) fun pinned => ?_
  refine obeys_quiet_bind (fun _ => keeps_callServices (hquiet _) (fun _ _ => rfl) _)
    fun finalized => ?_
  refine obeys_writeRecord_bind rfl ?_
  refine obeys_submit_bind _ fun submittedId => ?_
  refine obeys_writeRecord_bind rfl ?_
  refine obeys_quiet_bind (fun _ => keeps_logLine (hquiet _) _) fun _ => ?_
  refine obeys_quiet_bind (fun _ => keeps_reportedInclusion (hquiet _) _ _ _) fun inclusion => ?_
  refine obeys_writeRecord_bind rfl ?_
  refine obeys_quiet_bind (fun _ => keeps_logLine (hquiet _) _) fun _ => ?_
  refine obeys_quiet_bind (fun _ => Action.keeps_failIf _ _) fun _ => ?_
  refine obeys_quiet_bind (fun _ => keeps_ask (hquiet _) (fun _ => rfl) _) fun after => ?_
  refine obeys_except_bind _ fun count => ?_
  refine obeys_writeRecord_bind rfl ?_
  refine obeys_quiet_bind (fun _ => keeps_logLine (hquiet _) _) fun _ => ?_
  exact Process.obeys_pure _

/-- **Every command does what a run may do**, whatever others do meanwhile. -/
lemma steps_obey (command : ChainCommand) :
    RunObeys machine command.out (command.steps tools machine services) := by
  cases command with
  | deploy options => exact (runDeploySteps_obeys options).bind_pure _
  | publish options => exact (runPublishSteps_obeys options).bind_pure _
  | pin options => exact (runPinSteps_obeys options).bind_pure _

end Commands

/-! ### Interleaved runs -/

/-- The files are shared, and every run has its own history. -/
def sharedFiles : Sharing CommandState CommandFiles History where
  join := CommandState.mk
  shared := CommandState.files
  own := CommandState.history
  shared_join _ _ := rfl
  own_join _ _ := rfl
  join_self _ := rfl

/-- A run of a command, in a process of its own. -/
structure CommandRun where
  tools : CommandTools
  machine : Machine
  services : ChainServices
  command : ChainCommand

/-- Runs that share the files, the history of each, and what is left of each. -/
abbrev SharedRuns (ι : Type) :=
  Interleaved ι CommandError CommandState CommandFiles History CommandRecord

section Interleavings

variable {ι : Type} [DecidableEq ι]

/-- The runs before their first step. -/
def SharedRuns.start (runs : ι → CommandRun) (files : CommandFiles) : SharedRuns ι where
  shared := files
  own _ := []
  code i := (runs i).command.steps (runs i).tools (runs i).machine (runs i).services

/-- The next step of the run does not rename its first record onto a file. -/
def FirstRecordIsNew (out : JsString) (s : SharedRuns ι) (i : ι) : Prop :=
  ∀ s' ∈ interleavedStep sharedFiles s i,
    recordsAt out (s.own i) = [] → recordsAt out (s'.own i) ≠ [] → s.shared out = none

/-- The file holds the last record of every run that has written one, and there is at most one. -/
structure OneWriter (out : JsString) (s : SharedRuns ι) : Prop where
  file : ∀ i, recordsAt out (s.own i) ≠ [] →
    ∃ record, (recordsAt out (s.own i)).getLast? = some record ∧
      s.shared out = some (.record record)
  one : ∀ i j, recordsAt out (s.own i) ≠ [] → recordsAt out (s.own j) ≠ [] → i = j
  submitted : ∀ i, HasSubmitted (s.own i) → recordsAt out (s.own i) ≠ []

variable {out : JsString} {runs : ι → CommandRun} {s s' : SharedRuns ι} {i : ι}

omit [DecidableEq ι] in
/-- A step that leaves the records alone keeps the one writer and its file. -/
lemma OneWriter.of_same (h : OneWriter out s)
    (hrecords : ∀ j, recordsAt out (s'.own j) = recordsAt out (s.own j))
    (hfile : s.shared out ≠ none → s'.shared out = s.shared out)
    (hsubmitted : ∀ j, HasSubmitted (s'.own j) → recordsAt out (s.own j) ≠ []) :
    OneWriter out s' ∧ ∀ j, recordsAt out (s.own j) ≠ [] → s'.shared out = s.shared out := by
  have hstill : ∀ j, recordsAt out (s.own j) ≠ [] → s'.shared out = s.shared out := by
    intro j hj
    obtain ⟨record, _, hthere⟩ := h.file j hj
    exact hfile (by rw [hthere]; exact Option.some_ne_none _)
  refine ⟨⟨?_, ?_, ?_⟩, hstill⟩
  · intro j hj
    rw [hrecords] at hj ⊢
    rw [hstill j hj]
    exact h.file j hj
  · intro j k hj hk
    rw [hrecords] at hj hk
    exact h.one j k hj hk
  · intro j hj
    rw [hrecords]
    exact hsubmitted j hj

/-- A step that writes the next record of the only writer makes it the file. -/
lemma OneWriter.of_written {record : CommandRecord} (h : OneWriter out s)
    (hothers : ∀ j, j ≠ i → s'.own j = s.own j)
    (halone : ∀ j, j ≠ i → recordsAt out (s.own j) = [])
    (hrecords : recordsAt out (s'.own i) = recordsAt out (s.own i) ++ [record])
    (hfile : s'.shared out = some (.record record)) : OneWriter out s' := by
  have honly : ∀ j, recordsAt out (s'.own j) ≠ [] → j = i := by
    intro j hj
    by_contra hne
    rw [hothers j hne] at hj
    exact hj (halone j hne)
  refine ⟨?_, ?_, ?_⟩
  · intro j hj
    rw [honly j hj, hrecords, List.getLast?_concat]
    exact ⟨record, rfl, hfile⟩
  · intro j k hj hk
    rw [honly j hj, honly k hk]
  · intro j hj
    by_cases hne : j = i
    · rw [hne, hrecords]
      exact List.concat_ne_nil _ _
    · rw [hothers j hne] at hj ⊢
      exact h.submitted j hj

omit [DecidableEq ι] in
/-- A run that writes its first record only where there is no file is the only one to have
written. -/
lemma OneWriter.alone (h : OneWriter out s)
    (hnew : recordsAt out (s.own i) = [] → s.shared out = none) {j : ι} (hne : j ≠ i) :
    recordsAt out (s.own j) = [] := by
  by_contra hj
  by_cases hfirst : recordsAt out (s.own i) = []
  · obtain ⟨other, _, hthere⟩ := h.file j hj
    rw [hnew hfirst] at hthere
    cases hthere
  · exact hne (h.one j i hj hfirst)

/-- **The step lemma**: a step that does not rename a first record onto a file keeps the one
writer. -/
lemma OneWriter.step {temporary : JsString} (h : OneWriter out s)
    (hstep : interleavedStep sharedFiles s i = some s')
    (hown : OwnStep out temporary (s.seen sharedFiles i) (s'.seen sharedFiles i))
    (hnew : FirstRecordIsNew out s i) :
    OneWriter out s' ∧
      ∀ j, j ≠ i → recordsAt out (s.own j) ≠ [] → s'.shared out = s.shared out := by
  have hothers : ∀ j, j ≠ i → s'.own j = s.own j := fun j hne => own_of_step hstep hne
  have hwhat : (recordsAt out (s'.own i) = recordsAt out (s.own i) ∧
      (s.shared out ≠ none → s'.shared out = s.shared out)) ∨
      ∃ record, recordsAt out (s'.own i) = recordsAt out (s.own i) ++ [record] ∧
        s'.shared out = some (.record record) := hown.record
  rcases hwhat with ⟨hsame, hkept⟩ | ⟨record, hrecords, hfile⟩
  · -- the record is left alone
    have hall : ∀ j, recordsAt out (s'.own j) = recordsAt out (s.own j) := by
      intro j
      by_cases hne : j = i
      · rw [hne]
        exact hsame
      · rw [hothers j hne]
    have hsubmitted : ∀ j, HasSubmitted (s'.own j) → recordsAt out (s.own j) ≠ [] := by
      intro j hj
      by_cases hne : j = i
      · rw [hne] at hj ⊢
        exact (hown.submission hj).elim (h.submitted i) id
      · rw [hothers j hne] at hj
        exact h.submitted j hj
    obtain ⟨hwriter, hstill⟩ := h.of_same hall hkept hsubmitted
    exact ⟨hwriter, fun j _ hj => hstill j hj⟩
  · -- the run writes a record, and it is the only one that ever has
    have hwritten : recordsAt out (s'.own i) ≠ [] := by
      rw [hrecords]
      exact List.concat_ne_nil _ _
    have halone : ∀ j, j ≠ i → recordsAt out (s.own j) = [] :=
      fun j hne => h.alone (fun hfirst => hnew s' hstep hfirst hwritten) hne
    exact ⟨h.of_written hothers halone hrecords hfile, fun j hne hj => absurd (halone j hne) hj⟩

/-- Different processes have different temporary files. -/
lemma temporaryOf_ne {machine machine' : Machine} (hpid : machine.pid ≠ machine'.pid) :
    temporaryOf machine out ≠ temporaryOf machine' out := by
  intro hsame
  exact hpid (decimal_injective (List.append_cancel_left hsame))

/-- What a run does, the others may meet with. -/
lemma meanwhile_of_ownStep {machine machine' : Machine} {s s' : CommandState} {history : History}
    (hpid : machine'.pid ≠ machine.pid) (h : OwnStep out (temporaryOf machine out) s s') :
    Meanwhile (temporaryOf machine' out) ⟨s.files, history⟩ ⟨s'.files, history⟩ :=
  ⟨rfl, h.files _ (temporary_ne out _) (temporaryOf_ne hpid)⟩

variable (hout : ∀ i, (runs i).command.out = out)
  (hpids : ∀ i j, i ≠ j → (runs i).machine.pid ≠ (runs j).machine.pid)

include hout hpids

/-- In every interleaving every run does what a run may do. -/
lemma allGuard_of_reaches {files : CommandFiles} {allowed : SharedRuns ι → ι → Prop}
    (h : Reaches (interleavedStep sharedFiles) allowed (SharedRuns.start runs files) s) :
    AllGuard sharedFiles (fun i => Meanwhile (temporaryOf (runs i).machine out))
      (fun i => OwnStep out (temporaryOf (runs i).machine out)) s := by
  refine guards_of_reaches (fun i s => .refl _ s) (fun i _ _ _ => .trans) ?_ ?_ h
  · intro i j before after history hne hown
    exact meanwhile_of_ownStep (hpids j i hne) hown
  · intro i
    have hobeys : RunObeys (runs i).machine (runs i).command.out
      ((runs i).command.steps (runs i).tools (runs i).machine (runs i).services) := steps_obey _
    rw [hout i] at hobeys
    exact hobeys _ fun hasked => absurd hasked Bool.false_ne_true

/-- While no first record is renamed onto a file, there is one writer. -/
lemma oneWriter_of_reaches {files : CommandFiles}
    (h : Reaches (interleavedStep sharedFiles) (FirstRecordIsNew out)
      (SharedRuns.start runs files) s) :
    OneWriter out s := by
  induction h with
  | start =>
    have hnone : ∀ i, recordsAt out ((SharedRuns.start runs files).own i) = [] := fun _ => rfl
    refine ⟨fun i hi => absurd (hnone i) hi, fun i _ hi _ => absurd (hnone i) hi, ?_⟩
    intro i hsubmitted
    exact absurd rfl hsubmitted
  | step before hallowed hstep ih =>
    have hown := (guards_of_step (fun i s => .refl _ s)
      (allGuard_of_reaches hout hpids before) hstep).1
    exact (ih.step hstep hown hallowed).1

end Interleavings

/-- **Submitted records are kept** by runs that rename no first record onto a file: once a run has
submitted its transaction, it finds its own record at the path in every later state, and no step of
another run replaces the file there. -/
theorem submitted_records_kept {ι : Type} [DecidableEq ι] (runs : ι → CommandRun) (out : JsString)
    (hout : ∀ i, (runs i).command.out = out)
    (hpids : ∀ i j, i ≠ j → (runs i).machine.pid ≠ (runs j).machine.pid) (files : CommandFiles)
    (s : SharedRuns ι)
    (h : Reaches (interleavedStep sharedFiles) (FirstRecordIsNew out)
      (SharedRuns.start runs files) s)
    (i : ι) (hsubmitted : HasSubmitted (s.own i)) :
    (∃ record, (recordsAt out (s.own i)).getLast? = some record ∧
      s.shared out = some (.record record)) ∧
    ∀ j s', j ≠ i → FirstRecordIsNew out s j → interleavedStep sharedFiles s j = some s' →
      s'.shared out = s.shared out := by
  have hwriter := oneWriter_of_reaches hout hpids h
  have hwritten := hwriter.submitted i hsubmitted
  refine ⟨hwriter.file i hwritten, ?_⟩
  intro j s' hne hnew hstep
  have hown := (guards_of_step (fun i s => .refl _ s) (allGuard_of_reaches hout hpids h) hstep).1
  exact (hwriter.step hstep hown hnew).2 i hne.symm hwritten

/-! ### Two deployments -/

/-- The ledger's transaction of a deployment, by the nonce that its address and its bytes come
from. -/
def sampleTransaction (nonce : Byte) : Transaction where
  intents := InsertionMap.empty.set 1
    ⟨[.other (bytesToHex (List.replicate 32 nonce))], none, none, none, fun _ => bytesToHex [nonce]⟩
  fallibleOffer := .empty
  ownHash := some (bytesToHex [nonce])
  identifiers := [bytesToHex [nonce]]
  serialize := [nonce]

/-- A ledger that reads and writes these transactions, and deploys with the given nonce. -/
def sampleTools (nonce : Byte) : CommandTools where
  assembly := {
    ledger := {
      deserialize := fun _ bytes =>
        match bytes with
        | [nonce] => .ok (sampleTransaction nonce)
        | _ => .error (.error (js "invalid bytes"))
      deserializeEvent := fun _ => .error (.error (js "invalid bytes"))
      deserializeState := fun _ => .error (.error (js "invalid bytes")) }
    runtimeState := fun _ => .error (.error (js "invalid bytes"))
    sha256Hex := fun _ => bytesToHex (List.replicate 32 7)
    fromPartsRandomized := fun _ => sampleTransaction nonce
    addCalls := fun tx _ _ _ _ => .ok tx
    draws := fun _ => 1
    randomness := fun _ _ => [] }
  deploy := {
    deserializeState := fun _ => .ok ⟨⟨fun _ => none⟩, [], ⟨[], 1, 0⟩, []⟩
    setVerifierKey := fun operation key => .ok { operation with verifierKey := some key }
    contractDeploy := fun _ => ⟨bytesToHex (List.replicate 32 nonce), [nonce]⟩
    deployTransaction := fun _ _ _ => .ok (sampleTransaction nonce)
    deployOf := fun address => some ⟨address, [nonce]⟩
    sha256Hex := fun _ => bytesToHex (List.replicate 32 7) }
  normalizedCost := fun _ _ => .ok []
  toFixed := fun _ => js "0.0000"
  sha256 := fun _ => List.replicate 32 7
  sampleSigningKey := fun _ => ⟨js "schnorr", js "secret"⟩
  signatureVerifyingKey := fun key => .ok ⟨key.tag, js "public"⟩

/-- A machine on which no call of the file system fails. -/
def sampleMachine (pid : ℕ) : Machine where
  pid := pid
  now := fun _ => 1000
  randomBytes := fun _ => List.replicate 32 0
  writeFileSync := fun _ _ => .done
  renameSync := fun _ _ _ => none
  writeSecretFile := fun _ _ _ _ => .done
  readProtectedFile := fun _ path => .ok (
    if path = js "emitter.secret" then bytesToHex (List.replicate 32 0)
    else (Json.object [(js "kind", .string (js "maintenance-signing-key")),
      (js "tag", .string (js "schnorr")), (js "value", .string (js "secret"))]).stringify)

/-- Services that answer every call. -/
def sampleServices : ChainServices where
  network := js "undeployed"
  coinPublicKey := js "coin"
  proofTimeoutMs := .int 60000
  requireProofs := true
  allowSecretsInRepository := none
  stateSource := fun _ => ⟨.ok ⟨js "block", .int 1, .int 1000⟩, fun _ _ => .ok ⟨[], []⟩⟩
  currentParameters := fun _ => .ok (⟨js "block", .int 1, .int 1000⟩, [])
  providers := fun _ => ⟨fun tx _ => .ok (.transaction tx), fun tx _ => .ok (.transaction tx)⟩
  submitTx := fun _ tx => .ok (bytesToHex tx.serialize)
  waitForInclusion := fun _ _ _ => .ok none
  contractState := fun _ _ => .ok none
  log := fun _ _ => .ok ()

/-- A deployment with a secret and a maintenance key that are there already. -/
def sampleDeployment : DeployOptions where
  profile := ⟨.emitter, js "event", js "emitPart"⟩
  generated := {
    contract := .ok ⟨fun _ => none, fun _ authority => .ok authority⟩
    ledger := fun _ => .ok fun _ => .other
    emitterAuthorityOf := some fun _ => .ok (.bytes (List.replicate 32 7)) }
  verifierKeys := .empty
  emitterSecretFile := js "emitter.secret"
  reuseSecret := some true
  maintenanceKeyFile := js "maintenance.key"
  reuseMaintenanceKey := some true
  ttlSeconds := .int 1200
  out := js "deployment.json"

/-- Two deployments with one path, in processes of their own. -/
def twoDeployments (second : Bool) : CommandRun :=
  if second = true then ⟨sampleTools 2, sampleMachine 200, sampleServices, .deploy sampleDeployment⟩
  else ⟨sampleTools 1, sampleMachine 100, sampleServices, .deploy sampleDeployment⟩

/-- The state of the two deployments after steps that are allowed. -/
def afterSteps (allowed : SharedRuns Bool → Bool → Prop) [∀ s i, Decidable (allowed s i)]
    (steps : List Bool) : Option (SharedRuns Bool) :=
  steps.foldlM (fun s i => if allowed s i then interleavedStep sharedFiles s i else none)
    (SharedRuns.start twoDeployments fun _ => none)

/-- The address of a deployment's record. -/
def recordedAddress (content : Option FileContent) : JsString :=
  match content with
  | some (.record (.deployment record)) => record.address
  | _ => []

instance (out : JsString) (s : SharedRuns Bool) (i : Bool) : Decidable (FirstRecordIsNew out s i) :=
  inferInstanceAs (Decidable (∀ s' ∈ interleavedStep sharedFiles s i, _ → _ → _))

/-- The first deployment submits, and the second then finds the record of the first and ends. -/
theorem submitted_records_kept_two_deployments :
    ∃ s, Reaches (interleavedStep sharedFiles) (FirstRecordIsNew (js "deployment.json"))
        (SharedRuns.start twoDeployments fun _ => none) s ∧
      HasSubmitted (s.own false) ∧
      ∃ record, s.shared (js "deployment.json") = some (.record record) := by
  have hrun : ((afterSteps (FirstRecordIsNew (js "deployment.json"))
      (List.replicate 11 false ++ [true])).map fun s => decide (HasSubmitted (s.own false))) =
        some true := by decide +kernel
  obtain ⟨s, hs, hsubmitted⟩ := Option.map_eq_some_iff.mp hrun
  rw [decide_eq_true_eq] at hsubmitted
  have hreached := Reaches.of_actions _ .start hs
  have hkept := submitted_records_kept twoDeployments (js "deployment.json") (by decide +kernel)
    (by decide +kernel) (fun _ => none) s hreached false hsubmitted
  obtain ⟨record, _, hfile⟩ := hkept.1
  exact ⟨s, hreached, hsubmitted, record, hfile⟩

/-- Both deployments find no file.  The first goes on until it has submitted its transaction, and
then the second renames its first record onto the record of the first. -/
theorem record_replaced :
    ¬∀ (runs : Bool → CommandRun) (out : JsString), (∀ i, (runs i).command.out = out) →
      (∀ i j, i ≠ j → (runs i).machine.pid ≠ (runs j).machine.pid) → ∀ files s,
        Reaches (interleavedStep sharedFiles) (fun _ _ => True) (SharedRuns.start runs files) s →
        ∀ i, HasSubmitted (s.own i) →
          (∃ record, (recordsAt out (s.own i)).getLast? = some record ∧
            s.shared out = some (.record record)) ∧
          ∀ j s', j ≠ i → interleavedStep sharedFiles s j = some s' →
            s'.shared out = s.shared out := by
  intro hkept
  let steps := List.replicate 5 true ++ List.replicate 11 false
  have hrun : ((afterSteps (fun _ _ => True) steps).bind fun s =>
      (interleavedStep sharedFiles s true).map fun s' =>
        (decide (HasSubmitted (s.own false)), recordedAddress (s.shared (js "deployment.json")),
          recordedAddress (s'.shared (js "deployment.json")))) =
      some (true, bytesToHex (List.replicate 32 1), bytesToHex (List.replicate 32 2)) := by
    decide +kernel
  obtain ⟨s, hs, hrun⟩ := Option.bind_eq_some_iff.mp hrun
  obtain ⟨s', hstep, hrun⟩ := Option.map_eq_some_iff.mp hrun
  rw [Prod.mk.injEq, Prod.mk.injEq, decide_eq_true_eq] at hrun
  obtain ⟨hsubmitted, hbefore, hafter⟩ := hrun
  have hreached := Reaches.of_actions _ .start hs
  have hsame := (hkept twoDeployments (js "deployment.json") (by decide +kernel) (by decide +kernel)
    (fun _ => none) s hreached false hsubmitted).2 true s' (by decide) hstep
  rw [hsame, hbefore] at hafter
  exact absurd hafter (by decide +kernel)

end MultiPartEvent
