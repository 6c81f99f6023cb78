import ChannelDigests.Acquisition
import ChannelDigests.Coordinator

/-!
# The run executor

`RunExecutor::execute_one`: one tick takes the oldest run that is accepted or acquiring, acquires
every subscribed channel, selects the sources and commits the outcome.

* `selectPending`, `beginAcquisition`, `subscribedChannels`   the start of a tick;
* `acquire`, `acquired`     the walks of a tick, and what their outcomes add up to;
* `Db.selectSources`        the statement that selects the sources of a manifest;
* `commit`                  completes an empty run, fails an unbuildable one, or commits a manifest;
* `tick`, `executeOne`      the whole tick; `tick` also answers what it saw.
-/

namespace ChannelDigests
open Lib

/-- `RunExecutionError` carries nothing. -/
inductive RunExecutionError where
  | unavailable
  deriving DecidableEq

instance : FromReportError RunExecutionError where
  ofReport _ := .unavailable

structure PendingRun where
  runId : Uuid
  ownerId : Uuid
  windowStart : Instant
  windowEnd : Instant
  language : OutputLanguage
  state : RunState
  operationId : Uuid
  deriving DecidableEq

/-- the run as the executor reads it, with its window in whole seconds. -/
def Run.pendingRun (r : Run) : PendingRun where
  runId := r.runId
  ownerId := r.ownerId
  windowStart := wholeSecond r.windowStart
  windowEnd := wholeSecond r.windowEnd
  language := r.outputLanguage
  state := r.state
  operationId := r.operationId

/-- a provider wait of the run is active. -/
def Db.floodWaiting (d : Db) (runId : Uuid) (now : Instant) : Bool :=
  d.leases.any fun l =>
    l.runId = runId && l.checkpoint.state = .floodWait && decide (now < l.expiresAt)

/-- the oldest pending run without an active wait. -/
def Db.selectPending (d : Db) (now : Instant) : Option PendingRun :=
  (((d.runs.filter fun r => r.state.pending && !d.floodWaiting r.runId now).insertionSort
    fun a b => toLex (a.createdAt, a.runId) ≤ toLex (b.createdAt, b.runId)).head?).map
      Run.pendingRun

def selectPending : Action RunExecutionError (Option PendingRun) :=
  statement fun m => .read .unavailable fun d => d.selectPending m.now

variable (C : Contracts)

/-- the run of this identity is accepted. -/
def Run.isAccepted (runId : Uuid) (r : Run) : Bool := r.runId = runId && r.state = .accepted

def beginAcquisitionTx (run : PendingRun) (m : Moment) : Sql RunExecutionError (Fate Bool) := do
  .mark .unavailable ()
  let changed ← updateRuns .unavailable (Run.isAccepted run.runId) (Run.enter .acquiring m.now)
  if changed ≠ 1 then .drop false
  else
    reportOwned C run.runId run.ownerId
      (fun operation => .new operation run.ownerId .running "acquiring") (m.ids 0) m.now
    .commit .unavailable true

def beginAcquisition (run : PendingRun) : Action RunExecutionError Bool :=
  transaction (beginAcquisitionTx C run)

/-- the enabled channels of an owner in the order of their usernames, at most 20. -/
def Db.subscribedChannels (d : Db) (ownerId : Uuid) : List (Uuid × String) :=
  ((((d.subscriptions.filter fun s => s.ownerId = ownerId && s.enabled).filterMap fun s =>
      d.channels.find? fun c => c.channelId = s.channelId).insertionSort
    fun a b => a.username ≤ b.username).take 20).map fun c => (c.channelId, c.username)

/-- `subscribed_channels`, with the state that the statement saw. -/
def subscribedChannels (ownerId : Uuid) : Action RunExecutionError (Db × List (Uuid × String)) :=
  statement fun _ => .read .unavailable fun d => (d, d.subscribedChannels ownerId)

/-! ## Acquiring -/

/-- what the walks of one tick add up to. -/
inductive Acquired where
  | complete
  | incomplete
  | deferred
  | unavailable
  deriving DecidableEq

/-- how the walk of each channel ended. -/
abbrev Outcomes := List (Uuid × Except AcquisitionError AcquisitionReport)

/-- the walk of this run over one channel. -/
def PendingRun.request (run : PendingRun) (channel : Uuid × String) : AcquisitionRequest where
  runId := run.runId
  channelId := channel.1
  username := channel.2
  windowStart := run.windowStart
  windowEnd := run.windowEnd
  maxPages := 20
  pageSize := 100

/-- `acquire`: the walks, one after the other; no outcome stops the loop. -/
def acquire (run : PendingRun) : List (Uuid × String) → Action RunExecutionError Outcomes
  | [] => pure []
  | channel :: channels => do
    let outcome ← (execute C (run.request channel)).outcome
    let rest ← acquire run channels
    pure ((channel.1, outcome) :: rest)

def isDeferred : Except AcquisitionError AcquisitionReport → Bool
  | .error .deferred => true
  | _ => false

/-- the walk ended with a report. -/
def isRead : Except AcquisitionError AcquisitionReport → Bool
  | .ok _ => true
  | _ => false

/-- the walk did not read its channel to the end of the window. -/
def isShort : Except AcquisitionError AcquisitionReport → Bool
  | .ok report => report.isPartial
  | .error .unavailable => true
  | .error .deferred => false

/-- the outcomes of all channels together. -/
def acquired (outcomes : Outcomes) : Acquired :=
  if outcomes.any fun o => isDeferred o.2 then .deferred
  else if !outcomes.isEmpty && !outcomes.any (fun o => isRead o.2) then .unavailable
  else if outcomes.any fun o => isShort o.2 then .incomplete
  else .complete

/-- `update digest_runs set acquisition_incomplete = … where run_id = …`. -/
def recordAcquisition (runId : Uuid) (incomplete : Bool) : Action RunExecutionError Unit :=
  statement fun _ =>
    .change .unavailable
      (fun d => { d with
        runs := updateWhere (fun r => r.runId = runId)
          (fun r => { r with acquisitionIncomplete := incomplete }) d.runs })
      fun _ => ()

/-! ## Selecting -/

/-- the channel is an enabled subscription of the owner. -/
def Db.enabled (d : Db) (ownerId channelId : Uuid) : Bool :=
  d.subscriptions.any fun s => s.ownerId = ownerId && s.enabled && s.channelId = channelId

/-- the revisions of the owner's enabled channels published inside the window. -/
def Db.windowRevisions (d : Db) (run : PendingRun) : List Revision :=
  d.revisions.filter fun r =>
    d.enabled run.ownerId r.channelId && decide (run.windowStart ≤ r.publishedAt) &&
      decide (r.publishedAt < run.windowEnd)

/-- two revisions of one message. -/
def Revision.sameMessage (a b : Revision) : Bool :=
  a.channelId = b.channelId && a.messageId = b.messageId

/-- `order by observed_at, revision_id`. -/
def Revision.before (a b : Revision) : Bool :=
  decide (toLex (a.observedAt, a.revisionId) < toLex (b.observedAt, b.revisionId))

/-- the text is there and not withdrawn. -/
def Revision.eligible (r : Revision) : Bool := r.body.isSome && r.deletedAt.isNone

/-- `distinct on (channel_id, provider_message_id)`: the latest eligible revision of each message. -/
def Db.latestRevisions (d : Db) (run : PendingRun) : List Revision :=
  let eligible := (d.windowRevisions run).filter fun r =>
    r.eligible && d.channels.any fun c => c.channelId = r.channelId
  eligible.filter fun r => !eligible.any fun o => r.sameMessage o && r.before o

/-- `row_number() over (partition by … order by observed_at, revision_id)`. -/
def Db.revisionIndex (d : Db) (run : PendingRun) (r : Revision) : Nat :=
  1 + (d.windowRevisions run).countP fun o => r.sameMessage o && o.before r

/-- `order by published_at desc, channel_id, provider_message_id desc, revision_id desc`. -/
def Revision.newer (a b : Revision) : Prop :=
  toLex (-a.publishedAt, toLex ((a.channelId : Int), toLex (-a.messageId, -(a.revisionId : Int)))) ≤
    toLex (-b.publishedAt, toLex ((b.channelId : Int), toLex (-b.messageId, -(b.revisionId : Int))))

instance : DecidableRel Revision.newer := fun _ _ => inferInstanceAs (Decidable (_ ≤ _))

/-- the manifest source of a selected revision. -/
def Db.manifestSource (d : Db) (run : PendingRun) (r : Revision) : ManifestSource :=
  let channel := d.channels.find? fun c => c.channelId = r.channelId
  { revisionId := r.revisionId
    channelId := r.channelId
    channelUsername := (channel.map (·.username)).getD ""
    channelDisplayName := channel.bind (·.displayName)
    messageId := r.messageId
    contentSha256 := r.contentSha256
    publishedAt := wholeSecond r.publishedAt
    canonicalLink := r.canonicalLink
    body := r.body.getD ""
    revisionIndex := d.revisionIndex run r }

/-- `with_source_count`: the configured source count within the manifest bound. -/
def sourceCap (configured : Nat) : Nat := max 1 (min configured maxSources)

structure Selection where
  sources : List ManifestSource
  /-- eligible messages before the cap. -/
  eligible : Nat
  deriving DecidableEq

/-- `select_sources`: the newest `cap` messages, oldest first. -/
def Db.selectSources (d : Db) (run : PendingRun) (cap : Nat) : Selection :=
  let latest := d.latestRevisions run
  { sources := (((latest.insertionSort Revision.newer).take cap).map
      (d.manifestSource run)).reverse
    eligible := latest.length }

/-- `select_sources`, with the state that the statement saw. -/
def selectSources (run : PendingRun) (cap : Nat) : Action RunExecutionError (Db × Selection) :=
  statement fun _ => .read .unavailable fun d => (d, d.selectSources run cap)

/-! ## Committing -/

/-- `recap_request`, before it is written to bytes. -/
def recapRequest (run : PendingRun) (manifest : CanonicalManifest) : RecapRequested where
  operationId := run.operationId
  owner := run.ownerId
  digestRunId := run.runId
  windowStart := run.windowStart
  windowEnd := run.windowEnd
  outputLanguage := run.language
  sourceCount := manifest.sourceCount
  channelCount := manifest.channelCount
  manifestRef := manifest.manifestId
  manifestDigest := manifest.sha256
  analysisFamily := "channel_digest_recap"
  analysisContract := "channel_digest_recap.v1"

/-- `fail_run` as the executor calls it. -/
def failWith (run : PendingRun) (failure : RunFailure) : Action RunExecutionError Unit :=
  (failRun C run.runId run.ownerId failure).mapError fun _ => .unavailable

/-- the part of `RunExecutor::commit` that builds and commits a manifest. -/
def commitSources (run : PendingRun) (sources : List ManifestSource) (manifestId : Uuid) :
    Action RunExecutionError Unit :=
  match build C manifestId run.ownerId run.runId run.windowStart run.windowEnd sources with
  | .error _ => failWith C run .manifestInvalid
  | .ok manifest =>
    match C.recapRequest.toVec (recapRequest run manifest) with
    | none => Prog.fail .unavailable
    | some request => do
      let _ ← (commitManifest C manifest request).mapError fun _ => RunExecutionError.unavailable
      pure ()

/-- `RunExecutor::commit`. -/
def commit (run : PendingRun) (sources : List ManifestSource) (incomplete : Bool) :
    Action RunExecutionError Unit :=
  if sources.isEmpty then
    if incomplete then failWith C run .providerUnavailable
    else (completeEmptyRun C run.runId run.ownerId).mapError fun _ => .unavailable
  else do
    let manifestId ← freshId
    commitSources C run sources manifestId

/-! ## One tick -/

/-- what a tick did, with what it saw: the run it took, the state in which the channels were
listed, the outcome of each walk, and the state in which the sources were selected. -/
inductive Tick where
  | idle
  | taken (run : PendingRun)
  | deferred (run : PendingRun) (listed : Db) (outcomes : Outcomes)
  | unavailable (run : PendingRun) (listed : Db) (outcomes : Outcomes)
  | proceeded (run : PendingRun) (listed : Db) (outcomes : Outcomes) (seen : Db)

/-- the completeness flag that a tick records. -/
def incompleteness (outcomes : Outcomes) (selection : Selection) : Bool :=
  decide (acquired outcomes = .incomplete) || decide (selection.sources.length < selection.eligible)

/-- the rest of a tick once every channel is acquired. -/
def proceed (sourceCount : Nat) (run : PendingRun) (listed : Db) (outcomes : Outcomes) :
    Action RunExecutionError Tick := do
  let (seen, selection) ← selectSources run (sourceCap sourceCount)
  let incomplete := incompleteness outcomes selection
  recordAcquisition run.runId incomplete
  commit C run selection.sources incomplete
  pure (.proceeded run listed outcomes seen)

/-- the tick on one run that is acquiring. -/
def acquireRun (sourceCount : Nat) (run : PendingRun) : Action RunExecutionError Tick := do
  let (listed, channels) ← subscribedChannels run.ownerId
  let outcomes ← acquire C run channels
  match acquired outcomes with
  | .deferred => pure (.deferred run listed outcomes)
  | .unavailable =>
    failWith C run .providerUnavailable
    pure (.unavailable run listed outcomes)
  | _ => proceed C sourceCount run listed outcomes

/-- `execute_one`, answering what it saw; `sourceCount` is the configured source count. -/
def tick (sourceCount : Nat) : Action RunExecutionError Tick := do
  match ← selectPending with
  | none => pure .idle
  | some run =>
    if run.state = .accepted then
      if ← beginAcquisition C run then acquireRun C sourceCount run else pure (.taken run)
    else acquireRun C sourceCount run

/-- `RunExecutor::execute_one`: whether there was a run. -/
def executeOne (sourceCount : Nat) : Action RunExecutionError Bool := do
  match ← tick C sourceCount with
  | .idle => pure false
  | _ => pure true

end ChannelDigests
