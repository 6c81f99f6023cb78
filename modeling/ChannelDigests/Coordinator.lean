import ChannelDigests.Intake
import ChannelDigests.Manifest

/-!
# The coordinator

`DigestCoordinator`: every way a run leaves its pending states, and the fan-out of one schedule
occurrence.

* `commitManifest`       the manifest, its messages and the recap request of a run;
* `completeEmptyRun`, `failRun`   a run that ends without a recap;
* `settleCompletion`, `settleFailure`   the two Knowledge facts, checked by separate reads before
                         their transaction;
* `acceptOccurrence`     one run for each owner with an active subscription.
-/

namespace ChannelDigests
open Lib

inductive CoordinatorError where
  | invalid
  | storage
  deriving DecidableEq

instance : FromReportError CoordinatorError where
  ofReport
    | .invalid => .invalid
    | .storage => .storage

/-- why a run ends without a recap. -/
inductive RunFailure where
  | providerUnavailable
  | manifestInvalid
  deriving DecidableEq

namespace RunFailure

def failureClass : RunFailure → String
  | .providerUnavailable => "provider_unavailable"
  | .manifestInvalid => "manifest_invalid"

def stage : RunFailure → String
  | .providerUnavailable => "acquiring"
  | .manifestInvalid => "manifest"

def code : RunFailure → String
  | .providerUnavailable => "channel_digest.provider_unavailable"
  | .manifestInvalid => "channel_digest.manifest_invalid"

def message : RunFailure → String
  | .providerUnavailable => "The channel posts could not be read from Telegram."
  | .manifestInvalid => "The selected posts cannot form a digest manifest."

def retryable : RunFailure → Bool
  | .providerUnavailable => true
  | .manifestInvalid => false

end RunFailure

/-! ## Updates of a run -/

/-- `update digest_runs set … where p`; the answer is the number of changed rows. -/
def updateRuns {ε : Type} (lost : ε) (p : Run → Bool) (u : Run → Run) : Sql ε Nat :=
  .change lost (fun d => { d with runs := updateWhere p u d.runs }) fun d => d.runs.countP p

/-- the run of this identity and owner in a state that `p` allows. -/
def Run.isOpen (runId ownerId : Uuid) (p : RunState → Bool) (r : Run) : Bool :=
  r.runId = runId && r.ownerId = ownerId && p r.state

/-- the run in a new state. -/
def Run.enter (state : RunState) (now : Instant) (r : Run) : Run :=
  { r with state, updatedAt := now }

/-- the run failed for a reason. -/
def Run.fail (failureClass : String) (now : Instant) (r : Run) : Run :=
  { r with state := .failed, safeFailureClass := some failureClass, updatedAt := now }

variable (C : Contracts)

/-! ## Manifests -/

/-- the manifest row of a canonical manifest. -/
def CanonicalManifest.row (manifest : CanonicalManifest) (now : Instant) : Manifest where
  manifestId := manifest.manifestId
  runId := manifest.runId
  ownerId := manifest.ownerId
  sha256 := manifest.sha256
  sourceCount := manifest.sourceCount
  channelCount := manifest.channelCount
  canonicalText := some manifest.text
  minimizedAt := none
  createdAt := now

/-- the link rows of a canonical manifest. -/
def CanonicalManifest.links (manifest : CanonicalManifest) : List ManifestSourceLink :=
  manifest.messages.map fun m => ⟨manifest.manifestId, m.1, m.2⟩

/-- the counts that the schema accepts. -/
def Manifest.countsOk (m : Manifest) : Bool :=
  decide (1 ≤ m.sourceCount) && decide (m.sourceCount ≤ 100) && decide (1 ≤ m.channelCount) &&
    decide (m.channelCount ≤ 20)

/-- `insert into digest_manifests … on conflict (run_id) do nothing returning manifest_id`. -/
def insertManifest (row : Manifest) : Sql CoordinatorError Bool :=
  .attempt .storage fun d =>
    if !row.countsOk then .error .storage
    else if d.manifests.any (fun m => m.runId = row.runId) then .ok (false, d)
    else if d.manifests.any (fun m => m.manifestId = row.manifestId) then .error .storage
    else if d.runs.all (fun r => r.runId ≠ row.runId) then .error .storage
    else .ok (true, { d with manifests := d.manifests ++ [row] })

/-- `insert into digest_manifest_sources …`; the primary key is all three columns. -/
def insertManifestSources (links : List ManifestSourceLink) : Sql CoordinatorError Unit :=
  .attempt .storage fun d =>
    if links.Nodup ∧ ∀ l ∈ links, l ∉ d.manifestSources then
      .ok ((), { d with manifestSources := d.manifestSources ++ links })
    else .error .storage

/-- the outbox row of a recap request. -/
def recapRequestRow (manifest : CanonicalManifest) (request : RecapRequested) (outboxId : Uuid)
    (now : Instant) : OutboxMessage where
  outboxId := outboxId
  key := .recapRequest manifest.runId
  ownerId := manifest.ownerId
  operationId := some request.operationId
  causationRef := none
  payload := .recapRequest request
  createdAt := now
  publishedAt := none
  attempts := 0
  nextAttemptAt := now
  safeFailureClass := none

/-- `insert into outbox_messages …` without a conflict clause. -/
def insertOutbox (row : OutboxMessage) : Sql CoordinatorError Unit :=
  .attempt .storage fun d =>
    if d.outboxHolds row.key || d.outbox.any (fun r => r.outboxId = row.outboxId) then
      .error .storage
    else .ok ((), { d with outbox := d.outbox ++ [row] })

/-- the recap request names the owner, run, identity, digest and counts of the manifest. -/
def RecapRequested.announces (request : RecapRequested) (manifest : CanonicalManifest) : Bool :=
  request.owner = manifest.ownerId && request.digestRunId = manifest.runId &&
    request.manifestRef = manifest.manifestId && request.manifestDigest = manifest.sha256 &&
    request.sourceCount = manifest.sourceCount && request.channelCount = manifest.channelCount

/-- `checked_recap_request`. -/
def checkedRecapRequest (manifest : CanonicalManifest) (raw : C.Bytes) :
    Except CoordinatorError RecapRequested :=
  match C.recapRequest.fromSlice raw with
  | none => .error .invalid
  | some request =>
    if !C.recapRequest.validForPublish request then .error .invalid
    else if request.announces manifest then .ok request
    else .error .invalid

/-- one past `i32::MAX`. -/
def i32End : Nat := 2147483648

def commitManifestTx (manifest : CanonicalManifest) (request : RecapRequested) (m : Moment) :
    Sql CoordinatorError (Fate IntakeOutcome) := do
  .mark .storage ()
  -- `i32::try_from` of the two counts.
  .check (decide (manifest.sourceCount < i32End) && decide (manifest.channelCount < i32End)) .invalid
  let inserted ← insertManifest (manifest.row m.now)
  if !inserted then
    let existing ← .read .storage fun d => d.manifests.find? fun r => r.runId = manifest.runId
    .mark .storage ()
    if existing.map (fun r => (r.manifestId, r.ownerId, r.sha256)) =
        some (manifest.manifestId, manifest.ownerId, manifest.sha256) then
      .drop .replayed
    else .throw .invalid
  else
    insertManifestSources manifest.links
    insertOutbox (recapRequestRow manifest request (m.ids 0) m.now)
    let changed ← updateRuns .storage (Run.isOpen manifest.runId manifest.ownerId RunState.pending)
      (Run.enter .waitingRecap m.now)
    if changed ≠ 1 then .throw .invalid
    else .commit .storage .applied

/-- `DigestCoordinator::commit_manifest`. -/
def commitManifest (manifest : CanonicalManifest) (recapRequest : C.Bytes) :
    Action CoordinatorError IntakeOutcome := do
  let request ← Prog.lift (checkedRecapRequest C manifest recapRequest)
  transaction (commitManifestTx manifest request)

/-! ## Runs that end without a recap -/

def completeEmptyRunTx (runId ownerId : Uuid) (m : Moment) : Sql CoordinatorError (Fate Unit) := do
  .mark .storage ()
  let changed ← updateRuns .storage (Run.isOpen runId ownerId RunState.pending)
    (Run.enter .completed m.now)
  if changed ≠ 1 then .throw .invalid
  else
    reportOwned C runId ownerId (fun operation => .new operation ownerId .succeeded "no_sources")
      (m.ids 0) m.now
    .commit .storage ()

/-- `DigestCoordinator::complete_empty_run`. -/
def completeEmptyRun (runId ownerId : Uuid) : Action CoordinatorError Unit :=
  transaction (completeEmptyRunTx C runId ownerId)

/-- the report of a run that ends without a recap. -/
def RunFailure.report (failure : RunFailure) (ownerId operation : Uuid) : OperationReportRow :=
  (OperationReportRow.new operation ownerId .failed failure.stage).withError failure.code
    failure.message failure.retryable

def failRunTx (runId ownerId : Uuid) (failure : RunFailure) (m : Moment) :
    Sql CoordinatorError (Fate Unit) := do
  .mark .storage ()
  let changed ← updateRuns .storage (Run.isOpen runId ownerId RunState.pending)
    (Run.fail failure.failureClass m.now)
  if changed ≠ 1 then .throw .invalid
  else
    reportOwned C runId ownerId (failure.report ownerId) (m.ids 0) m.now
    .commit .storage ()

/-- `DigestCoordinator::fail_run`. -/
def failRun (runId ownerId : Uuid) (failure : RunFailure) : Action CoordinatorError Unit :=
  transaction (failRunTx C runId ownerId failure)

/-! ## Knowledge facts -/

/-- one read outside a transaction. -/
def readDb {α : Type} (g : Db → α) : Action CoordinatorError α :=
  statement fun _ => .read .storage g

/-- the run of this identity and owner. -/
def Db.ownRun (d : Db) (runId ownerId : Uuid) : Option Run :=
  d.runs.find? fun r => r.runId = runId && r.ownerId = ownerId

/-- `select acquisition_incomplete …`, false without a row. -/
def Db.incompleteFlag (d : Db) (runId ownerId : Uuid) : Bool :=
  ((d.ownRun runId ownerId).map (·.acquisitionIncomplete)).getD false

/-- the manifest that a run holds. -/
def Db.manifestOf (d : Db) (runId : Uuid) : Option Manifest :=
  d.manifests.find? fun m => m.runId = runId

theorem ownRun_some {d : Db} {runId ownerId : Uuid} {r : Run} (h : d.ownRun runId ownerId = some r) :
    r ∈ d.runs ∧ r.runId = runId ∧ r.ownerId = ownerId :=
  ⟨List.mem_of_find?_eq_some h, by simpa using List.find?_some h⟩

theorem manifestOf_some {d : Db} {runId : Uuid} {m : Manifest} (h : d.manifestOf runId = some m) :
    m ∈ d.manifests ∧ m.runId = runId :=
  ⟨List.mem_of_find?_eq_some h, by simpa using List.find?_some h⟩

/-- a result joined with its manifest. -/
def Db.resultEvidence (d : Db) (resultId : Uuid) : Option (DigestResult × Digest) := do
  let r ← d.results.find? fun r => r.resultId = resultId
  let m ← d.manifests.find? fun m => m.manifestId = r.manifestId
  pure (r, m.sha256)

/-- a run joined with its manifest, both of the owner. -/
def Db.durable (d : Db) (runId ownerId : Uuid) : Option (Run × Manifest) := do
  let r ← d.ownRun runId ownerId
  let m ← d.manifestOf runId
  if m.ownerId = ownerId then pure (r, m) else none

/-- the outcome of a completion. -/
def completionOutcome (omitted : Nat) (incomplete : Bool) : Outcome :=
  if omitted = 0 && !incomplete then .completed else .partially

/-- the result row of a completion. -/
def RecapCompleted.result (fact : RecapCompleted) (analysisId manifestId ownerId : Uuid)
    (outcome : Outcome) (now : Instant) : DigestResult where
  resultId := fact.digestResultId
  runId := fact.digestRunId
  manifestId := manifestId
  ownerId := ownerId
  outcome := outcome
  recapId := some analysisId
  resultDigest := some fact.resultDigest
  citationCount := fact.includedCount
  safeFailureClass := none
  createdAt := now

/-- the stored result is the one that this completion would store. -/
def RecapCompleted.matches (fact : RecapCompleted) (analysisId : Uuid) (outcome : Outcome)
    (stored : DigestResult × Digest) : Bool :=
  stored.1.runId = fact.digestRunId && stored.1.ownerId = fact.owner &&
    stored.2 = fact.manifestDigest && stored.1.recapId = some analysisId &&
    stored.1.resultDigest = some fact.resultDigest && stored.1.outcome = outcome &&
    stored.1.citationCount = fact.includedCount

/-- the run waits for this completion. -/
def RecapCompleted.consistent (fact : RecapCompleted) (durable : Run × Manifest) : Bool :=
  durable.1.state = .waitingRecap && fact.manifestDigest = durable.2.sha256 &&
    fact.selectedCount = durable.2.sourceCount && fact.channelCount ≤ durable.2.channelCount

/-- `insert into digest_results …`; a taken result, run or manifest is refused. -/
def insertResult (row : DigestResult) : Sql CoordinatorError Unit :=
  .attempt .storage fun d =>
    if d.results.any fun r =>
        decide (r.resultId = row.resultId) || decide (r.runId = row.runId) ||
          decide (r.manifestId = row.manifestId) then .error .storage
    else if d.runs.all (fun r => r.runId ≠ row.runId) ||
        d.manifests.all (fun m => m.manifestId ≠ row.manifestId) then .error .storage
    else .ok ((), { d with results := d.results ++ [row] })

def settleCompletionTx (fact : RecapCompleted) (analysisId messageId : Uuid) (sha : Digest)
    (incomplete : Bool) (m : Moment) : Sql CoordinatorError (Fate IntakeOutcome) := do
  let outcome := completionOutcome fact.omittedCount incomplete
  .mark .storage ()
  let inserted ← insertInbox .storage (.processing messageId .completed (.id fact.digestResultId) sha)
  if !inserted then
    .rollback .storage .replayed
  else
    -- The result is inserted from the join of the run and its manifest.
    let joined ← .read .storage fun d =>
      (d.ownRun fact.digestRunId fact.owner).bind fun r =>
        (d.manifestOf r.runId).map fun mf => (r, mf)
    match joined with
    | none => .throw .invalid
    | some (r, mf) =>
      insertResult (fact.result analysisId mf.manifestId r.ownerId outcome m.now)
      let changed ← updateRuns .storage
        (Run.isOpen fact.digestRunId fact.owner (· = .waitingRecap)) (Run.enter outcome.state m.now)
      if changed ≠ 1 then .throw .invalid
      else
        reportCompletion C fact.digestRunId fact.owner messageId fact.resultRef fact.omittedCount
          incomplete (m.ids 0) m.now
        completeInbox .storage messageId m.now
        .commit .storage .applied

/-- `DigestCoordinator::settle_completion`. -/
def settleCompletion (messageId : Uuid) (completion : C.Bytes) :
    Action CoordinatorError IntakeOutcome :=
  match C.completed.fromSlice completion with
  | none => Prog.fail .invalid
  | some fact =>
    if !C.completed.validForPublish fact then Prog.fail .invalid
    else
      match fact.analysisRef with
      | none => Prog.fail .invalid
      | some analysisId => do
        let incomplete ← readDb fun d => d.incompleteFlag fact.digestRunId fact.owner
        let outcome := completionOutcome fact.omittedCount incomplete
        match ← readDb fun d => d.resultEvidence fact.digestResultId with
        | some stored =>
          -- the row of a failure has null columns, which do not decode.
          if stored.1.recapId.isNone || stored.1.resultDigest.isNone then Prog.fail .storage
          else if fact.matches analysisId outcome stored then pure .replayed
          else Prog.fail .invalid
        | none =>
          match ← readDb fun d => d.durable fact.digestRunId fact.owner with
          | none => Prog.fail .invalid
          | some durable =>
            if !fact.consistent durable then Prog.fail .invalid
            else transaction (settleCompletionTx C fact analysisId messageId
              (C.bytesDigest completion) incomplete)

/-- `classify_failure`: the stored class, and whether a retry may succeed. -/
def classifyFailure : RecapFailureCode → String × Bool
  | .manifestUnavailable => ("manifest_unavailable", true)
  | .manifestIntegrity => ("manifest_integrity", false)
  | .unsupportedLanguage => ("unsupported_language", false)
  | .contextBudget => ("context_budget", false)
  | .providerUnavailable => ("provider_unavailable", true)
  | .providerTimeout => ("provider_timeout", true)
  | .invalidOutput => ("invalid_output", false)
  | .costBudget => ("cost_budget", false)
  | .cancelled => ("cancelled", false)

/-- the result row of a failure. -/
def RecapFailed.result (fact : RecapFailed) (resultId manifestId : Uuid) (now : Instant) :
    DigestResult where
  resultId := resultId
  runId := fact.digestRunId
  manifestId := manifestId
  ownerId := fact.owner
  outcome := .failed
  recapId := none
  resultDigest := none
  citationCount := 0
  safeFailureClass := some (classifyFailure fact.failureCode).1
  createdAt := now

def settleFailureTx (fact : RecapFailed) (manifestId messageId : Uuid) (sha : Digest)
    (m : Moment) : Sql CoordinatorError (Fate IntakeOutcome) := do
  .mark .storage ()
  let inserted ← insertInbox .storage (.processing messageId .failed (.id fact.digestRunId) sha)
  if !inserted then
    .rollback .storage .replayed
  else
    insertResult (fact.result (m.ids 0) manifestId m.now)
    let changed ← updateRuns .storage
      (Run.isOpen fact.digestRunId fact.owner (· = .waitingRecap))
      (Run.fail (classifyFailure fact.failureCode).1 m.now)
    if changed ≠ 1 then .throw .invalid
    else
      reportRecapFailure C fact.digestRunId fact.owner messageId (classifyFailure fact.failureCode).1
        (classifyFailure fact.failureCode).2 (m.ids 1) m.now
      completeInbox .storage messageId m.now
      .commit .storage .applied

/-- `DigestCoordinator::settle_failure`. -/
def settleFailure (messageId : Uuid) (failure : C.Bytes) : Action CoordinatorError IntakeOutcome :=
  match C.failed.fromSlice failure with
  | none => Prog.fail .invalid
  | some fact =>
    if !C.failed.validForPublish fact then Prog.fail .invalid
    else do
      match ← readDb fun d => d.durable fact.digestRunId fact.owner with
      | none => Prog.fail .invalid
      | some (run, manifest) =>
        if run.state = .failed then pure .replayed
        else if run.state ≠ .waitingRecap ∨ fact.manifestDigest ≠ manifest.sha256 then
          Prog.fail .invalid
        else transaction (settleFailureTx C fact manifest.manifestId messageId
          (C.bytesDigest failure))

/-! ## Schedule occurrences -/

structure OccurrenceRequest where
  messageId : Uuid
  payloadSha256 : Digest
  occurrenceKey : String
  previousDueAt : Instant
  dueAt : Instant
  operationId : Uuid
  ownerId : Uuid
  outputLanguage : OutputLanguage
  deriving DecidableEq

/-- `normalized_window(true, …)`: the start of a scheduled window. -/
def scheduledStart (activation previous due : Instant) : Instant :=
  let week := 7 * 24 * 3600 * second
  max activation (max previous (due - week))

/-- the owners with an enabled subscription activated before `due`, in order. -/
def dueOwners (subscriptions : List Subscription) (due : Instant) : List Uuid :=
  (((subscriptions.filter fun s => s.enabled && s.firstActivatedAt < due).map
    (·.ownerId)).dedup).insertionSort (· ≤ ·)

/-- the earliest such activation of an owner. -/
def activation (subscriptions : List Subscription) (due : Instant) (ownerId : Uuid) : Instant :=
  (((subscriptions.filter fun s =>
    s.enabled && s.firstActivatedAt < due && s.ownerId = ownerId).map
      (·.firstActivatedAt)).min?).getD due

/-- the scheduled run of one owner. -/
def OccurrenceRequest.run (o : OccurrenceRequest) (subscriptions : List Subscription)
    (runId ownerId : Uuid) (now : Instant) : Run :=
  .accepted runId ownerId o.operationId .scheduled o.occurrenceKey
    (scheduledStart (activation subscriptions o.dueAt ownerId) o.previousDueAt o.dueAt) o.dueAt
    o.outputLanguage now

/-- `insert into digest_runs … on conflict (natural key) do nothing`. -/
def insertScheduledRun (run : Run) : Sql CoordinatorError Unit :=
  guarded .storage fun d => (d.insertRun run).map (·.2)

/-- the loop of `fan_out`; fresh run identities are taken from `n` on. -/
def fanOutOwners (o : OccurrenceRequest) (subscriptions : List Subscription) (m : Moment) :
    List Uuid → Nat → Sql CoordinatorError Unit
  | [], _ => pure ()
  | ownerId :: owners, n => do
    -- the window of the owner is computed by a statement of its own.
    .mark .storage ()
    insertScheduledRun (o.run subscriptions (m.ids n) ownerId m.now)
    fanOutOwners o subscriptions m owners (n + 1)

/-- `fan_out`. -/
def fanOut (o : OccurrenceRequest) (m : Moment) : Sql CoordinatorError Unit := do
  let subscriptions ← .read .storage fun d => d.subscriptions
  fanOutOwners o subscriptions m (dueOwners subscriptions o.dueAt) 1

def fannedOutReport (o : OccurrenceRequest) : OperationReportRow :=
  (OperationReportRow.new o.operationId o.ownerId .succeeded "fanned_out").causedBy
    (.command o.messageId)

def occurrenceTx (o : OccurrenceRequest) (m : Moment) :
    Sql CoordinatorError (Fate IntakeOutcome) := do
  .mark .storage ()
  let inserted ← insertInbox .storage
    (.processing o.messageId .occurrence (.text o.occurrenceKey) o.payloadSha256)
  if !inserted then
    .rollback .storage .replayed
  else
    fanOut o m
    (fannedOutReport o).enqueue C (m.ids 0) m.now
    completeInbox .storage o.messageId m.now
    .commit .storage .applied

/-- `DigestCoordinator::accept_occurrence`. -/
def acceptOccurrence (o : OccurrenceRequest) : Action CoordinatorError IntakeOutcome :=
  if !("schedule-occurrence:".toList.isPrefixOf o.occurrenceKey.toList) then Prog.fail .invalid
  else transaction (occurrenceTx C o)

end ChannelDigests
