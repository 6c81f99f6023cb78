import ChannelDigests.Contracts

/-!
# Inbox rows and operation reports

The statements that every handler shares: claiming an inbox row, completing it, and queueing an
operation report in the transaction of the state that it reports.

* `insertInbox`, `completeInbox`    the two statements on `inbox_messages`;
* `OperationReportRow`              one report waiting to be queued;
* `OperationReportRow.enqueue`      the report is queued once for each operation and status;
* `onDemandOperation`               the operation that owns a run;
* `reportCompletion`, `reportRecapFailure`  the reports of the two Knowledge facts.
-/

namespace ChannelDigests
open Lib

/-! ## The inbox -/

/-- the row of a message that is being handled. -/
def InboxMessage.processing (messageId : Uuid) (subject : Subject) (semanticKey : InboxKey)
    (payloadSha256 : Digest) : InboxMessage :=
  { messageId, subject, semanticKey, payloadSha256,
    state := .processing, completedAt := none, safeFailureClass := none }

/-- the row once its message is handled. -/
def InboxMessage.complete (now : Instant) (row : InboxMessage) : InboxMessage :=
  { row with state := .completed, completedAt := some now }

/-- one of the two unique keys of the inbox is taken. -/
def Db.inboxHolds (d : Db) (messageId : Uuid) (subject : Subject) (semanticKey : InboxKey) : Bool :=
  d.inbox.any fun r =>
    decide (r.messageId = messageId) ||
      (decide (r.subject = subject) && decide (r.semanticKey = semanticKey))

/-- `insert into inbox_messages … on conflict do nothing returning message_id`. -/
def insertInbox {ε : Type} (lost : ε) (row : InboxMessage) : Sql ε Bool :=
  .change lost
    (fun d => if d.inboxHolds row.messageId row.subject row.semanticKey then d
      else { d with inbox := d.inbox ++ [row] })
    (fun d => !d.inboxHolds row.messageId row.subject row.semanticKey)

/-- `update inbox_messages set state = 'completed' … where message_id = …`. -/
def completeInbox {ε : Type} (lost : ε) (messageId : Uuid) (now : Instant) : Sql ε Unit :=
  .change lost
    (fun d => { d with
      inbox := updateWhere (fun r => r.messageId = messageId) (InboxMessage.complete now) d.inbox })
    (fun _ => ())

/-! ## Reports -/

inductive ReportError where
  | invalid
  | storage

/-- the conversion of a report error into the error of its caller. -/
class FromReportError (ε : Type) where
  ofReport : ReportError → ε

export FromReportError (ofReport)

structure OperationReportRow where
  operationId : Uuid
  ownerId : Uuid
  causation : Option Causation
  report : OperationReported

namespace OperationReportRow

def new (operationId ownerId : Uuid) (status : OperationStatus) (stage : String) :
    OperationReportRow where
  operationId := operationId
  ownerId := ownerId
  causation := none
  report :=
    { operationId, status, stage, results := [], error := none, warnings := [] }

def causedBy (row : OperationReportRow) (reference : Causation) : OperationReportRow :=
  { row with causation := some reference }

def withResult (row : OperationReportRow) (target : String) : OperationReportRow :=
  { row with report := { row.report with results := row.report.results ++ [target] } }

def withError (row : OperationReportRow) (code message : String) (retryable : Bool) :
    OperationReportRow :=
  { row with report := { row.report with error := some ⟨code, message, retryable⟩ } }

def withWarning (row : OperationReportRow) (code message : String) : OperationReportRow :=
  { row with report := { row.report with warnings := row.report.warnings ++ [⟨code, message⟩] } }

/-- what the builder parses and what `enqueue` validates; no statement lies between the two. -/
def accepted (C : Contracts) (r : OperationReported) : Bool :=
  C.operationStage r.stage && r.results.all C.entityRef &&
    (r.error.all fun e => C.errorCode e.code && C.safeMessage e.message) &&
    (r.warnings.all fun w => C.errorCode w.code && C.safeMessage w.message) && C.validReport r

/-- the outbox row of a report. -/
def outboxRow (row : OperationReportRow) (outboxId : Uuid) (now : Instant) : OutboxMessage where
  outboxId := outboxId
  key := .report row.operationId row.report.status
  ownerId := row.ownerId
  operationId := some row.operationId
  causationRef := row.causation
  payload := .report row.report
  createdAt := now
  publishedAt := none
  attempts := 0
  nextAttemptAt := now
  safeFailureClass := none

end OperationReportRow

/-- a row of the outbox has this key. -/
def Db.outboxHolds (d : Db) (key : OutboxKey) : Bool := d.outbox.any fun r => r.key = key

/-- `insert into outbox_messages … on conflict (subject, semantic_key) do nothing`; a taken
`outbox_id` is refused. -/
def insertOutboxOnce {ε : Type} (lost : ε) (row : OutboxMessage) : Sql ε Unit :=
  .attempt lost fun d =>
    if d.outboxHolds row.key then .ok ((), d)
    else if d.outbox.any (fun r => r.outboxId = row.outboxId) then .error lost
    else .ok ((), { d with outbox := d.outbox ++ [row] })

section
variable {ε : Type} [FromReportError ε] (C : Contracts)

/-- validate the report and queue it once for its operation and status. -/
def OperationReportRow.enqueue (row : OperationReportRow) (outboxId : Uuid) (now : Instant) :
    Sql ε Unit := do
  .check (accepted C row.report) (ofReport .invalid)
  insertOutboxOnce (ofReport .storage) (row.outboxRow outboxId now)

/-- the operation of an on-demand run, `none` for a scheduled one. -/
def operationIn (runs : List Run) (runId ownerId : Uuid) : Option Uuid :=
  (runs.find? fun r => r.runId = runId && r.ownerId = ownerId && r.trigger = .onDemand).map
    (·.operationId)

def Db.onDemandOperation (d : Db) (runId ownerId : Uuid) : Option Uuid :=
  operationIn d.runs runId ownerId

def onDemandOperation (runId ownerId : Uuid) : Sql ε (Option Uuid) :=
  .read (ofReport .storage) fun d => d.onDemandOperation runId ownerId

/-- queue a report for the operation that owns a run, when one does. -/
def reportOwned (runId ownerId : Uuid) (report : Uuid → OperationReportRow) (outboxId : Uuid)
    (now : Instant) : Sql ε Unit := do
  match ← onDemandOperation runId ownerId with
  | none => pure ()
  | some operation => (report operation).enqueue C outboxId now

/-- the terminal report of a Knowledge completion. -/
def completionReport (operation ownerId eventId : Uuid) (resultRef : String) (omitted : Nat)
    (acquisitionIncomplete : Bool) : OperationReportRow :=
  let status := if omitted = 0 && !acquisitionIncomplete then .succeeded else .partiallySucceeded
  let row := ((OperationReportRow.new operation ownerId status "completed").causedBy
    (.event eventId)).withResult resultRef
  let row := if 0 < omitted then
      row.withWarning "channel_digest.context_omitted"
        "Some selected posts did not fit the recap context and were left out."
    else row
  if acquisitionIncomplete then
    row.withWarning "channel_digest.acquisition_incomplete"
      "The digest does not cover every post of the window: some channels could not be read completely, or the window held more posts than one digest takes."
  else row

/-- `report_completion`. -/
def reportCompletion (runId ownerId eventId : Uuid) (resultRef : String) (omitted : Nat)
    (acquisitionIncomplete : Bool) (outboxId : Uuid) (now : Instant) : Sql ε Unit :=
  reportOwned C runId ownerId
    (fun operation =>
      completionReport operation ownerId eventId resultRef omitted acquisitionIncomplete)
    outboxId now

/-- the failed report of a Knowledge failure. -/
def recapFailureReport (operation ownerId eventId : Uuid) (failureClass : String)
    (retryable : Bool) : OperationReportRow :=
  ((OperationReportRow.new operation ownerId .failed "recap").causedBy (.event eventId)).withError
    ("channel_digest.recap." ++ failureClass) "The recap could not be produced." retryable

/-- `report_recap_failure`. -/
def reportRecapFailure (runId ownerId eventId : Uuid) (failureClass : String) (retryable : Bool)
    (outboxId : Uuid) (now : Instant) : Sql ε Unit :=
  reportOwned C runId ownerId
    (fun operation => recapFailureReport operation ownerId eventId failureClass retryable)
    outboxId now

end

end ChannelDigests
