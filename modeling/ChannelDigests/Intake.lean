import ChannelDigests.Reports
import ChannelDigests.Subscriptions

/-!
# Command intake

`CommandIntake` of the service: each command claims its inbox row, takes its effect and queues its
report in one transaction.  A command refused for good is recorded by `reject` in a transaction of
its own, after the first one is rolled back.

* `acceptSubscription`, `acceptRun`   the two typed commands;
* `rejectUnreadable`                  a payload that names its operation and owner and nothing else;
* `subscriptionTx`, `runTx`, `rejectTx`  the three transactions.
-/

namespace ChannelDigests
open Lib

inductive IntakeOutcome where
  | applied
  | replayed
  deriving DecidableEq

inductive IntakeError where
  | invalid
  | storage
  deriving DecidableEq

instance : FromReportError IntakeError where
  ofReport
    | .invalid => .invalid
    | .storage => .storage

/-- the command that an unreadable payload claimed to be. -/
inductive CommandKind where
  | subscription
  | run
  deriving DecidableEq

def CommandKind.subject : CommandKind → Subject
  | .subscription => .subscription
  | .run => .run

inductive RejectionReason where
  | subscriptionLimit
  | commandInvalid
  deriving DecidableEq

namespace RejectionReason

def failureClass : RejectionReason → String
  | .subscriptionLimit => "subscription_limit"
  | .commandInvalid => "command_invalid"

def code : RejectionReason → String
  | .subscriptionLimit => "channel_digest.subscription_limit_reached"
  | .commandInvalid => "channel_digest.command_invalid"

def message : RejectionReason → String
  | .subscriptionLimit => "At most 20 channels can be active at the same time."
  | .commandInvalid => "The command was rejected because it is not valid."

end RejectionReason

/-- a command refused for good. -/
structure Rejection where
  messageId : Uuid
  subject : Subject
  semanticKey : String
  payloadSha256 : Digest
  operationId : Uuid
  ownerId : Uuid
  reason : RejectionReason

/-- the inbox row of a refused command. -/
def Rejection.inboxRow (r : Rejection) (now : Instant) : InboxMessage where
  messageId := r.messageId
  subject := r.subject
  semanticKey := .text r.semanticKey
  payloadSha256 := r.payloadSha256
  state := .failed
  completedAt := some now
  safeFailureClass := some r.reason.failureClass

/-- the report of a refused command. -/
def Rejection.report (r : Rejection) : OperationReportRow :=
  ((OperationReportRow.new r.operationId r.ownerId .failed "rejected").causedBy
    (.command r.messageId)).withError r.reason.code r.reason.message false

variable (C : Contracts)

def rejectTx (r : Rejection) (m : Moment) : Sql IntakeError (Fate IntakeOutcome) := do
  .mark .storage ()
  let inserted ← insertInbox .storage (r.inboxRow m.now)
  if !inserted then
    .rollback .storage .replayed
  else
    r.report.enqueue C (m.ids 0) m.now
    .commit .storage .applied

/-- `CommandIntake::reject`. -/
def reject (r : Rejection) : Action IntakeError IntakeOutcome :=
  transaction (rejectTx C r)

/-- how the first transaction of a command ends: with an outcome, or refused and rolled back. -/
inductive Verdict where
  | outcome (o : IntakeOutcome)
  | refused

/-! ## Subscription commands -/

/-- `select … from set_subscription(…)`; `none` is the raised limit, which aborts the
transaction. -/
def setSubscription (subscriptionId channelId ownerId : Uuid) (username : String) (enabled : Bool)
    (now : Instant) : Sql IntakeError (Option Subscription) :=
  .attempt .storage fun d =>
    match d.setSubscription subscriptionId channelId ownerId username enabled now with
    | .violation => .error .storage
    | .limit => .ok (none, d)
    | .row s d => .ok (some s, d)

def subscriptionReport (command : SubscriptionSetRequested) (messageId : Uuid) :
    OperationReportRow :=
  (OperationReportRow.new command.operationId command.owner .succeeded "applied").causedBy
    (.command messageId)

def subscriptionTx (command : SubscriptionSetRequested) (messageId : Uuid) (sha : Digest)
    (m : Moment) : Sql IntakeError (Fate Verdict) := do
  .mark .storage ()
  let inserted ← insertInbox .storage
    (.processing messageId .subscription (.text command.idempotencyKey) sha)
  if !inserted then
    .rollback .storage (.outcome .replayed)
  else
    match ← setSubscription (m.ids 0) (m.ids 1) command.owner command.channelUsername
      command.active m.now with
    | none => .rollback .storage .refused
    | some _ =>
      (subscriptionReport command messageId).enqueue C (m.ids 2) m.now
      completeInbox .storage messageId m.now
      .commit .storage (.outcome .applied)

/-- the rejection of a subscription command. -/
def subscriptionRejection (command : SubscriptionSetRequested) (messageId : Uuid) (sha : Digest)
    (reason : RejectionReason) : Rejection where
  messageId := messageId
  subject := .subscription
  semanticKey := command.idempotencyKey
  payloadSha256 := sha
  operationId := command.operationId
  ownerId := command.owner
  reason := reason

/-- `CommandIntake::accept_subscription`. -/
def acceptSubscription (messageId : Uuid) (payload : C.Bytes) :
    Action IntakeError IntakeOutcome :=
  match C.subscription.fromSlice payload with
  | none => Prog.fail .invalid
  | some command =>
    let sha := C.bytesDigest payload
    if !C.subscription.validForPublish command then
      reject C (subscriptionRejection command messageId sha .commandInvalid)
    else do
      match ← transaction (subscriptionTx C command messageId sha) with
      | .outcome o => pure o
      | .refused => reject C (subscriptionRejection command messageId sha .subscriptionLimit)

/-! ## Run commands -/

/-- the row of a run that has just been accepted. -/
def Run.accepted (runId ownerId operationId : Uuid) (trigger : Trigger) (idempotencyKey : String)
    (windowStart windowEnd : Instant) (outputLanguage : OutputLanguage) (now : Instant) : Run :=
  { runId, ownerId, operationId, trigger, idempotencyKey, windowStart, windowEnd, outputLanguage,
    state := .accepted, safeFailureClass := none, acquisitionIncomplete := false,
    createdAt := now, updatedAt := now }

/-- `insert into digest_runs … on conflict (natural key) do nothing returning run_id`; `none` when
the window is empty or the identity is taken. -/
def Db.insertRun (d : Db) (run : Run) : Option (Bool × Db) :=
  if !(run.windowStart < run.windowEnd) then none
  else if d.runs.any (fun r => r.naturalKey = run.naturalKey) then some (false, d)
  else if d.runs.any (fun r => r.runId = run.runId) then none
  else some (true, { d with runs := d.runs ++ [run] })

/-- `create_digest_run`: the identity of the run that has this natural key now. -/
def createDigestRun (run : Run) : Sql IntakeError (Option Uuid) :=
  .attempt .storage fun d =>
    match d.insertRun run with
    | none => .error .storage
    | some (true, d) => .ok (some run.runId, d)
    | some (false, d) =>
      .ok ((d.runs.find? fun r => r.naturalKey = run.naturalKey).map (·.runId), d)

def setOutputLanguage (runId ownerId : Uuid) (language : OutputLanguage) : Sql IntakeError Unit :=
  .change .storage
    (fun d => { d with
      runs := updateWhere (fun r => r.runId = runId && r.ownerId = ownerId)
        (fun r => { r with outputLanguage := language }) d.runs })
    (fun _ => ())

/-- the run that a command asks for, with the language that `digest_runs` defaults to. -/
def RunRequested.run (command : RunRequested) (now : Instant) : Run :=
  .accepted command.digestRunId command.owner command.operationId command.trigger
    command.idempotencyKey command.windowStart command.windowEnd .ru now

def queuedReport (command : RunRequested) (messageId : Uuid) : OperationReportRow :=
  (OperationReportRow.new command.operationId command.owner .queued "awaiting_acquisition").causedBy
    (.command messageId)

/-- the report of an accepted on-demand run; nothing acquires until the executor starts it. -/
def reportQueued (command : RunRequested) (messageId : Uuid) (m : Moment) : Sql IntakeError Unit :=
  if command.trigger = .onDemand then (queuedReport command messageId).enqueue C (m.ids 0) m.now
  else pure ()

def runTx (command : RunRequested) (messageId : Uuid) (sha : Digest) (m : Moment) :
    Sql IntakeError (Fate Verdict) := do
  .mark .storage ()
  let inserted ← insertInbox .storage
    (.processing messageId .run (.text command.idempotencyKey) sha)
  if !inserted then
    .rollback .storage (.outcome .replayed)
  else
    let selected ← createDigestRun (command.run m.now)
    if selected ≠ some command.digestRunId then
      .rollback .storage .refused
    else
      setOutputLanguage command.digestRunId command.owner command.outputLanguage
      reportQueued C command messageId m
      completeInbox .storage messageId m.now
      .commit .storage (.outcome .applied)

/-- the rejection of a run command. -/
def runRejection (command : RunRequested) (messageId : Uuid) (sha : Digest) : Rejection where
  messageId := messageId
  subject := .run
  semanticKey := command.idempotencyKey
  payloadSha256 := sha
  operationId := command.operationId
  ownerId := command.owner
  reason := .commandInvalid

/-- `CommandIntake::accept_run`. -/
def acceptRun (messageId : Uuid) (payload : C.Bytes) : Action IntakeError IntakeOutcome :=
  match C.run.fromSlice payload with
  | none => Prog.fail .invalid
  | some command =>
    let sha := C.bytesDigest payload
    if !C.run.validForPublish command then
      reject C (runRejection command messageId sha)
    else do
      match ← transaction (runTx C command messageId sha) with
      | .outcome o => pure o
      | .refused => reject C (runRejection command messageId sha)

/-! ## Unreadable commands -/

/-- the rejection of a payload that did not decode. -/
def unreadableRejection (messageId : Uuid) (kind : CommandKind) (sha : Digest)
    (operationId ownerId : Uuid) : Rejection where
  messageId := messageId
  subject := kind.subject
  semanticKey := s!"invalid:{messageId}"
  payloadSha256 := sha
  operationId := operationId
  ownerId := ownerId
  reason := .commandInvalid

/-- `CommandIntake::reject_unreadable`. -/
def rejectUnreadable (messageId : Uuid) (kind : CommandKind) (tenant : Uuid) (payload : C.Object) :
    Action IntakeError IntakeOutcome :=
  match C.operationIdOf payload, C.ownerOf payload with
  | some operationId, some owner =>
    if owner ≠ tenant then Prog.fail .invalid
    else
      match C.objectToVec payload with
      | none => Prog.fail .invalid
      | some bytes =>
        reject C (unreadableRejection messageId kind (C.bytesDigest bytes) operationId owner)
  | _, _ => Prog.fail .invalid

end ChannelDigests
