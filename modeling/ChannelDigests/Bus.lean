import ChannelDigests.Coordinator

/-!
# The message handler

`WorkerMessageHandler::handle`: the envelope of a delivery is checked, its payload read, and the
command or fact handed to the intake or the coordinator.  The disposition tells the broker what to
do with the delivery.

* `handle`            the whole handler;
* `handleCommand`     the three Platform subjects;
* `handleEvent`       the two Knowledge subjects.
-/

namespace ChannelDigests
open Lib

/-- the disposition of a delivery. -/
inductive DeliveryDisposition where
  | ack
  | term
  | nak
  deriving DecidableEq

def platformProducer : String := "ratatoskr-platform"
def knowledgeProducer : String := "ratatoskr-knowledge"

/-- the transport subject, `cmd.` or `evt.` and the name of the contract. -/
def Subject.transport : Subject → String
  | .subscription => "cmd.channel_digest.subscription.set_requested.v1"
  | .run => "cmd.channel_digest.run.requested.v1"
  | .occurrence => "cmd.channel_digest.schedule.occurrence_requested.v1"
  | .completed => "evt.knowledge.channel_digest_recap.completed.v1"
  | .failed => "evt.knowledge.channel_digest_recap.failed.v1"

/-- `COMMAND_TYPE` and `EVENT_TYPE`: the name of the contract. -/
def Subject.contractType : Subject → String
  | .subscription => "channel_digest.subscription.set_requested.v1"
  | .run => "channel_digest.run.requested.v1"
  | .occurrence => "channel_digest.schedule.occurrence_requested.v1"
  | .completed => "knowledge.channel_digest_recap.completed.v1"
  | .failed => "knowledge.channel_digest_recap.failed.v1"

/-- a program of the handler: it has no error of its own. -/
abbrev Delivery := Action Empty DeliveryDisposition

/-- the disposition of an intake call. -/
def intakeDisposition (p : Action IntakeError IntakeOutcome) : Delivery :=
  p.next fun
    | .ok _ => pure .ack
    | .error .invalid => pure .term
    | .error .storage => pure .nak

/-- the disposition of a coordinator call. -/
def coordinatorDisposition (p : Action CoordinatorError IntakeOutcome) : Delivery :=
  p.next fun
    | .ok _ => pure .ack
    | .error .invalid => pure .term
    | .error .storage => pure .nak

variable (C : Contracts)

/-- `reject_unreadable` of the handler: without a tenant nothing is attributable. -/
def handleUnreadable (envelope : CommandEnvelope C.Object) (kind : CommandKind) : Delivery :=
  match envelope.tenant with
  | none => pure .term
  | some tenant =>
    intakeDisposition (rejectUnreadable C envelope.commandId kind tenant envelope.payload)

/-- the occurrence request of an envelope; its operation and owner are those of the envelope. -/
def occurrenceRequest (language : OutputLanguage) (envelope : CommandEnvelope C.Object)
    (command : ScheduleOccurrenceRequested) (payload : C.Bytes) (operationId ownerId : Uuid) :
    OccurrenceRequest where
  messageId := envelope.commandId
  payloadSha256 := C.bytesDigest payload
  occurrenceKey := command.occurrenceRef
  previousDueAt := command.previousDueAt
  dueAt := command.dueAt
  operationId := operationId
  ownerId := ownerId
  outputLanguage := language

def handleOccurrence (language : OutputLanguage) (envelope : CommandEnvelope C.Object) : Delivery :=
  match C.occurrence.payloadAs envelope.payload with
  | none => pure .term
  | some command =>
    if !C.occurrence.validForPublish command ∨ envelope.aggregateId ≠ command.occurrenceRef then
      pure .term
    else
      match C.occurrence.toVec command with
      | none => pure .term
      | some payload =>
        match envelope.correlationOperation, envelope.tenant with
        | some operationId, some ownerId =>
          coordinatorDisposition (acceptOccurrence C
            (occurrenceRequest C language envelope command payload operationId ownerId))
        | _, _ => pure .term

def handleSubscription (envelope : CommandEnvelope C.Object) : Delivery :=
  match C.subscription.payloadAs envelope.payload with
  | none => handleUnreadable C envelope .subscription
  | some command =>
    if envelope.tenant ≠ some command.owner then pure .term
    else
      match C.subscription.toVec command with
      | none => pure .term
      | some payload => intakeDisposition (acceptSubscription C envelope.commandId payload)

def handleRun (envelope : CommandEnvelope C.Object) : Delivery :=
  match C.run.payloadAs envelope.payload with
  | none => handleUnreadable C envelope .run
  | some command =>
    if envelope.tenant ≠ some command.owner then pure .term
    else
      match C.run.toVec command with
      | none => pure .term
      | some payload => intakeDisposition (acceptRun C envelope.commandId payload)

/-- `handle_command`: producer and command type first, then the payload of the subject. -/
def handleCommand (language : OutputLanguage) (subject : Subject) (bytes : C.Bytes) : Delivery :=
  match C.commandEnvelope bytes with
  | none => pure .term
  | some envelope =>
    if envelope.producer ≠ platformProducer then pure .term
    else if envelope.commandType ≠ subject.contractType then pure .term
    else
      match subject with
      | .occurrence => handleOccurrence C language envelope
      | .subscription => handleSubscription C envelope
      | .run => handleRun C envelope
      | _ => pure .term

def handleCompleted (envelope : EventEnvelope C.Object) : Delivery :=
  match C.completed.payloadAs envelope.payload with
  | none => pure .term
  | some fact =>
    if envelope.tenant ≠ some fact.owner then pure .term
    else
      match C.completed.toVec fact with
      | none => pure .term
      | some payload => coordinatorDisposition (settleCompletion C envelope.eventId payload)

def handleFailed (envelope : EventEnvelope C.Object) : Delivery :=
  match C.failed.payloadAs envelope.payload with
  | none => pure .term
  | some fact =>
    if envelope.tenant ≠ some fact.owner then pure .term
    else
      match C.failed.toVec fact with
      | none => pure .term
      | some payload => coordinatorDisposition (settleFailure C envelope.eventId payload)

/-- `handle_event`. -/
def handleEvent (subject : Subject) (bytes : C.Bytes) : Delivery :=
  match C.eventEnvelope bytes with
  | none => pure .term
  | some envelope =>
    if envelope.producer ≠ knowledgeProducer then pure .term
    else if envelope.eventType ≠ subject.contractType then pure .term
    else
      match subject with
      | .completed => handleCompleted C envelope
      | .failed => handleFailed C envelope
      | _ => pure .term

/-- the subject of a transport subject, when it is one of the five. -/
def Subject.ofTransport (text : String) : Option Subject :=
  [Subject.subscription, .run, .occurrence, .completed, .failed].find? fun s => s.transport = text

/-- `WorkerMessageHandler::handle`; `language` is that of scheduled runs. -/
def handle (language : OutputLanguage) (transport : String) (bytes : C.Bytes) : Delivery :=
  match Subject.ofTransport transport with
  | none => pure .term
  | some subject =>
    match subject with
    | .subscription | .run | .occurrence => handleCommand C language subject bytes
    | .completed | .failed => handleEvent C subject bytes

end ChannelDigests
