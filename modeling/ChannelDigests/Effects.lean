import ChannelDigests.Executor
import ChannelDigests.Reaper
import ChannelDigests.Outbox

/-!
# What one committed transaction does

For each transaction the conditions under which it commits and the database it leaves, one
structure a transaction.  Everything proved about runs of the system is proved from these.

* `Command`           the commands of the senders, with identity and operation;
* `Message`           a command or a Knowledge fact;
* `Offered`           an outbox after a report is queued once;
* `SubscriptionApplied`, `CommandRejected`, `RunCreated`, `RunRepeated`, `OccurrenceFanned`
                      the transactions of the intake;
* `AcquisitionBegun`, `RunCompletedEmpty`, `RunFailed`, `ManifestCommitted`   those of the executor;
* `CompletionSettled`, `FailureSettled`, `RunsReaped`   the facts and the reaper.
-/

namespace ChannelDigests
open Lib

/-! ## Commands -/

/-- a command of a sender. -/
inductive Command where
  | subscription (messageId : Uuid) (c : SubscriptionSetRequested)
  | run (messageId : Uuid) (c : RunRequested)
  | unreadable (messageId : Uuid) (kind : CommandKind) (operationId ownerId : Uuid)
  | occurrence (o : OccurrenceRequest)
  deriving DecidableEq

namespace Command

def messageId : Command → Uuid
  | .subscription id _ | .run id _ | .unreadable id _ _ _ => id
  | .occurrence o => o.messageId

def operationId : Command → Uuid
  | .subscription _ c => c.operationId
  | .run _ c => c.operationId
  | .unreadable _ _ operationId _ => operationId
  | .occurrence o => o.operationId

def ownerId : Command → Uuid
  | .subscription _ c => c.owner
  | .run _ c => c.owner
  | .unreadable _ _ _ ownerId => ownerId
  | .occurrence o => o.ownerId

def subject : Command → Subject
  | .subscription _ _ => .subscription
  | .run _ _ => .run
  | .unreadable _ kind _ _ => kind.subject
  | .occurrence _ => .occurrence

/-- the text under which the inbox knows the command. -/
def semanticKey : Command → String
  | .subscription _ c => c.idempotencyKey
  | .run _ c => c.idempotencyKey
  | .unreadable id _ _ _ => s!"invalid:{id}"
  | .occurrence o => o.occurrenceKey

end Command

/-- a message of one of the five subjects. -/
inductive Message where
  | command (c : Command)
  | completed (messageId : Uuid) (fact : RecapCompleted)
  | failed (messageId : Uuid) (fact : RecapFailed)
  deriving DecidableEq

def Message.messageId : Message → Uuid
  | .command c => c.messageId
  | .completed id _ | .failed id _ => id

/-- the rejection of a command for a reason. -/
def Command.rejection (c : Command) (sha : Digest) (reason : RejectionReason) : Rejection where
  messageId := c.messageId
  subject := c.subject
  semanticKey := c.semanticKey
  payloadSha256 := sha
  operationId := c.operationId
  ownerId := c.ownerId
  reason := reason

/-! ## Queueing -/

/-- `rows'` is the outbox `rows` after `row` is queued once for its key. -/
def Offered (rows : List OutboxMessage) (row : OutboxMessage) (rows' : List OutboxMessage) : Prop :=
  (rows' = rows ∧ ∃ r ∈ rows, r.key = row.key) ∨
    (rows' = rows ++ [row] ∧ (∀ r ∈ rows, r.key ≠ row.key) ∧
      ∀ r ∈ rows, r.outboxId ≠ row.outboxId)

/-- the outbox after the owning operation of a run, if there is one, is offered a report. -/
def OfferedOwned (rows : List OutboxMessage) (owned : Option Uuid)
    (report : Uuid → OperationReportRow) (outboxId : Uuid) (now : Instant)
    (rows' : List OutboxMessage) : Prop :=
  match owned with
  | none => rows' = rows
  | some operation => Offered rows ((report operation).outboxRow outboxId now) rows'

/-- the outbox after a list of reports is offered, one after the other. -/
def OfferedAll : List OutboxMessage → List OutboxMessage → List OutboxMessage → Prop
  | rows, [], rows' => rows' = rows
  | rows, row :: more, rows' => ∃ mid, Offered rows row mid ∧ OfferedAll mid more rows'

/-- the inbox row of a message whose handling succeeded. -/
def InboxMessage.handled (messageId : Uuid) (subject : Subject) (semanticKey : InboxKey)
    (sha : Digest) (now : Instant) : InboxMessage :=
  (InboxMessage.processing messageId subject semanticKey sha).complete now

/-! ## Intake -/

section
variable (m : Moment) (d d' : Db)

/-- `accept_subscription` applied a command. -/
structure SubscriptionApplied (c : SubscriptionSetRequested) (messageId : Uuid) (sha : Digest) :
    Prop where
  fresh : d.inboxHolds messageId .subscription (.text c.idempotencyKey) = false
  effect : ∃ s d₁ ob,
    ({ d with inbox := d.inbox ++
        [.processing messageId .subscription (.text c.idempotencyKey) sha] } : Db).setSubscription
      (m.ids 0) (m.ids 1) c.owner c.channelUsername c.active m.now = .row s d₁ ∧
    Offered d.outbox ((subscriptionReport c messageId).outboxRow (m.ids 2) m.now) ob ∧
    d' = { d with
      channels := d₁.channels
      subscriptions := d₁.subscriptions
      inbox := d.inbox ++
        [.handled messageId .subscription (.text c.idempotencyKey) sha m.now]
      outbox := ob }

/-- `reject` recorded a refusal. -/
structure CommandRejected (r : Rejection) : Prop where
  fresh : d.inboxHolds r.messageId r.subject (.text r.semanticKey) = false
  effect : ∃ ob, Offered d.outbox (r.report.outboxRow (m.ids 0) m.now) ob ∧
    d' = { d with inbox := d.inbox ++ [r.inboxRow m.now], outbox := ob }

/-- the outbox after an on-demand run command is queued. -/
def OfferedQueued (c : RunRequested) (messageId : Uuid) (rows rows' : List OutboxMessage) : Prop :=
  if c.trigger = .onDemand then
    Offered rows ((queuedReport c messageId).outboxRow (m.ids 0) m.now) rows'
  else rows' = rows

/-- `accept_run` created the run of a command. -/
structure RunCreated (c : RunRequested) (messageId : Uuid) (sha : Digest) : Prop where
  fresh : d.inboxHolds messageId .run (.text c.idempotencyKey) = false
  window : c.windowStart < c.windowEnd
  newKey : ∀ r ∈ d.runs, r.naturalKey ≠ (c.run m.now).naturalKey
  newId : ∀ r ∈ d.runs, r.runId ≠ c.digestRunId
  effect : ∃ ob, OfferedQueued m c messageId d.outbox ob ∧
    d' = { d with
      runs := d.runs ++ [{ c.run m.now with outputLanguage := c.outputLanguage }]
      inbox := d.inbox ++ [.handled messageId .run (.text c.idempotencyKey) sha m.now]
      outbox := ob }

/-- `accept_run` found the run of a command. -/
structure RunRepeated (c : RunRequested) (messageId : Uuid) (sha : Digest) : Prop where
  fresh : d.inboxHolds messageId .run (.text c.idempotencyKey) = false
  found : ∃ r ∈ d.runs, r.naturalKey = (c.run m.now).naturalKey ∧ r.runId = c.digestRunId
  effect : ∃ ob, OfferedQueued m c messageId d.outbox ob ∧
    d' = { d with
      runs := updateWhere (fun r => r.runId = c.digestRunId && r.ownerId = c.owner)
        (fun r => { r with outputLanguage := c.outputLanguage }) d.runs
      inbox := d.inbox ++ [.handled messageId .run (.text c.idempotencyKey) sha m.now]
      outbox := ob }

/-- the runs of one occurrence, appended one after the other when their natural key is new. -/
def FannedOut (o : OccurrenceRequest) (subscriptions : List Subscription) :
    List Uuid → Nat → List Run → List Run → Prop
  | [], _, runs, runs' => runs' = runs
  | ownerId :: owners, n, runs, runs' =>
    let run := o.run subscriptions (m.ids n) ownerId m.now
    run.windowStart < run.windowEnd ∧ ∃ mid,
      ((mid = runs ∧ ∃ r ∈ runs, r.naturalKey = run.naturalKey) ∨
        (mid = runs ++ [run] ∧ (∀ r ∈ runs, r.naturalKey ≠ run.naturalKey) ∧
          ∀ r ∈ runs, r.runId ≠ run.runId)) ∧
      FannedOut o subscriptions owners (n + 1) mid runs'

/-- `accept_occurrence` fanned an occurrence out. -/
structure OccurrenceFanned (o : OccurrenceRequest) : Prop where
  fresh : d.inboxHolds o.messageId .occurrence (.text o.occurrenceKey) = false
  effect : ∃ runs ob, FannedOut m o d.subscriptions (dueOwners d.subscriptions o.dueAt) 1 d.runs runs ∧
    Offered d.outbox ((fannedOutReport o).outboxRow (m.ids 0) m.now) ob ∧
    d' = { d with
      runs := runs
      inbox := d.inbox ++
        [.handled o.messageId .occurrence (.text o.occurrenceKey) o.payloadSha256 m.now]
      outbox := ob }

/-! ## Executor -/

/-- `begin_acquisition` moved a run to `acquiring`. -/
structure AcquisitionBegun (runId ownerId : Uuid) : Prop where
  once : d.runs.countP (Run.isAccepted runId) = 1
  effect : ∃ ob,
    OfferedOwned d.outbox (d.onDemandOperation runId ownerId)
      (fun operation => .new operation ownerId .running "acquiring") (m.ids 0) m.now ob ∧
    d' = { d with
      runs := updateWhere (Run.isAccepted runId) (Run.enter .acquiring m.now) d.runs
      outbox := ob }

/-- `complete_empty_run` completed a run. -/
structure RunCompletedEmpty (runId ownerId : Uuid) : Prop where
  once : d.runs.countP (Run.isOpen runId ownerId RunState.pending) = 1
  effect : ∃ ob,
    OfferedOwned d.outbox (d.onDemandOperation runId ownerId)
      (fun operation => .new operation ownerId .succeeded "no_sources") (m.ids 0) m.now ob ∧
    d' = { d with
      runs := updateWhere (Run.isOpen runId ownerId RunState.pending) (Run.enter .completed m.now)
        d.runs
      outbox := ob }

/-- `fail_run` failed a run. -/
structure RunFailed (runId ownerId : Uuid) (failure : RunFailure) : Prop where
  once : d.runs.countP (Run.isOpen runId ownerId RunState.pending) = 1
  effect : ∃ ob,
    OfferedOwned d.outbox (d.onDemandOperation runId ownerId) (failure.report ownerId)
      (m.ids 0) m.now ob ∧
    d' = { d with
      runs := updateWhere (Run.isOpen runId ownerId RunState.pending)
        (Run.fail failure.failureClass m.now) d.runs
      outbox := ob }

/-- the state after the completeness of a run is recorded. -/
def Db.record (d : Db) (runId : Uuid) (incomplete : Bool) : Db :=
  { d with
    runs := updateWhere (fun r => r.runId = runId)
      (fun r => { r with acquisitionIncomplete := incomplete }) d.runs }

/-- the run of this identity, owner and operation is stored. -/
def Db.holdsRun (d : Db) (runId ownerId operationId : Uuid) : Prop :=
  ∃ r ∈ d.runs, r.runId = runId ∧ r.ownerId = ownerId ∧ r.operationId = operationId

/-- `commit_manifest` committed a manifest. -/
structure ManifestCommitted (C : Contracts) (manifest : CanonicalManifest)
    (request : RecapRequested) : Prop where
  built : ∃ windowStart windowEnd sources, build C manifest.manifestId manifest.ownerId
    manifest.runId windowStart windowEnd sources = .ok manifest
  owned : d.holdsRun manifest.runId manifest.ownerId request.operationId
  announced : request.announces manifest = true
  counts : (manifest.row m.now).countsOk = true
  newRun : ∀ r ∈ d.manifests, r.runId ≠ manifest.runId
  newId : ∀ r ∈ d.manifests, r.manifestId ≠ manifest.manifestId
  links : manifest.links.Nodup ∧ ∀ l ∈ manifest.links, l ∉ d.manifestSources
  newKey : ∀ r ∈ d.outbox, r.key ≠ .recapRequest manifest.runId
  newOutboxId : ∀ r ∈ d.outbox, r.outboxId ≠ m.ids 0
  once : d.runs.countP (Run.isOpen manifest.runId manifest.ownerId RunState.pending) = 1
  effect : d' = { d with
    runs := updateWhere (Run.isOpen manifest.runId manifest.ownerId RunState.pending)
      (Run.enter .waitingRecap m.now) d.runs
    manifests := d.manifests ++ [manifest.row m.now]
    manifestSources := d.manifestSources ++ manifest.links
    outbox := d.outbox ++ [recapRequestRow manifest request (m.ids 0) m.now] }

/-! ## Knowledge facts and the reaper -/

/-- a result may be inserted: its identity, run and manifest are new in `digest_results`. -/
def Db.resultFree (d : Db) (row : DigestResult) : Prop :=
  ∀ r ∈ d.results, r.resultId ≠ row.resultId ∧ r.runId ≠ row.runId ∧ r.manifestId ≠ row.manifestId

/-- the run has a manifest of this owner and digest that `p` accepts. -/
def Db.evidence (d : Db) (runId ownerId : Uuid) (sha : Digest) (p : Manifest → Prop) : Prop :=
  ∃ m ∈ d.manifests, m.runId = runId ∧ m.ownerId = ownerId ∧ m.sha256 = sha ∧ p m

/-- the counts of a completion agree with the manifest. -/
def RecapCompleted.countsAgree (fact : RecapCompleted) (m : Manifest) : Prop :=
  fact.selectedCount = m.sourceCount ∧ fact.channelCount ≤ m.channelCount

/-- `settle_completion` settled a run. -/
structure CompletionSettled (fact : RecapCompleted) (analysisId messageId : Uuid) (sha : Digest)
    (incomplete : Bool) (run : Run) (manifest : Manifest) : Prop where
  fresh : d.inboxHolds messageId .completed (.id fact.digestResultId) = false
  run_eq : d.ownRun fact.digestRunId fact.owner = some run
  manifest_eq : d.manifestOf run.runId = some manifest
  evidence : d.evidence fact.digestRunId fact.owner fact.manifestDigest fact.countsAgree
  free : d.resultFree (fact.result analysisId manifest.manifestId run.ownerId
    (completionOutcome fact.omittedCount incomplete) m.now)
  once : d.runs.countP (Run.isOpen fact.digestRunId fact.owner (· = .waitingRecap)) = 1
  effect : ∃ ob,
    OfferedOwned d.outbox (d.onDemandOperation fact.digestRunId fact.owner)
      (fun operation => completionReport operation fact.owner messageId fact.resultRef
        fact.omittedCount incomplete) (m.ids 0) m.now ob ∧
    d' = { d with
      runs := updateWhere (Run.isOpen fact.digestRunId fact.owner (· = .waitingRecap))
        (Run.enter (completionOutcome fact.omittedCount incomplete).state m.now) d.runs
      results := d.results ++ [fact.result analysisId manifest.manifestId run.ownerId
        (completionOutcome fact.omittedCount incomplete) m.now]
      inbox := d.inbox ++ [.handled messageId .completed (.id fact.digestResultId) sha m.now]
      outbox := ob }

/-- `settle_failure` settled a run. -/
structure FailureSettled (fact : RecapFailed) (manifestId messageId : Uuid) (sha : Digest) :
    Prop where
  fresh : d.inboxHolds messageId .failed (.id fact.digestRunId) = false
  free : d.resultFree (fact.result (m.ids 0) manifestId m.now)
  evidence : d.evidence fact.digestRunId fact.owner fact.manifestDigest
    (·.manifestId = manifestId)
  once : d.runs.countP (Run.isOpen fact.digestRunId fact.owner (· = .waitingRecap)) = 1
  effect : ∃ ob,
    OfferedOwned d.outbox (d.onDemandOperation fact.digestRunId fact.owner)
      (fun operation => recapFailureReport operation fact.owner messageId
        (classifyFailure fact.failureCode).1 (classifyFailure fact.failureCode).2)
      (m.ids 1) m.now ob ∧
    d' = { d with
      runs := updateWhere (Run.isOpen fact.digestRunId fact.owner (· = .waitingRecap))
        (Run.fail (classifyFailure fact.failureCode).1 m.now) d.runs
      results := d.results ++ [fact.result (m.ids 0) manifestId m.now]
      inbox := d.inbox ++ [.handled messageId .failed (.id fact.digestRunId) sha m.now]
      outbox := ob }

/-- the run is one of those a reaper tick fails. -/
def Db.reaped (d : Db) (cutoff : Instant) (r : Run) : Bool :=
  ((d.overdueRuns cutoff).map (·.runId)).contains r.runId

/-- the outbox rows of the reaped on-demand runs; fresh identities are taken from `n` on. -/
def reapedReports : List Run → Nat → List OutboxMessage
  | [], _ => []
  | run :: runs, n =>
    (if run.trigger = .onDemand then [(deadlineReport run).outboxRow (m.ids n) m.now] else []) ++
      reapedReports runs (n + 1)

/-- `reap_once` failed the overdue runs. -/
structure RunsReaped (cutoff : Instant) : Prop where
  effect : ∃ ob, OfferedAll d.outbox (reapedReports m (d.runs.filter (d.reaped cutoff)) 0) ob ∧
    d' = { d with
      runs := updateWhere (d.reaped cutoff) (Run.fail "deadline_exceeded" m.now) d.runs
      outbox := ob }

end

end ChannelDigests
