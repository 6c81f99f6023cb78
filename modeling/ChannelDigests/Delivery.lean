import ChannelDigests.Rules
import ChannelDigests.Effects

/-!
# What a delivery carries

`handle` either refuses a delivery for good without a statement, or hands one message to the intake
or the coordinator.

* `received`       the message that a delivery carries, none when it is refused;
* `Serves`         the program that serves a message;
* `handle_serves`  **the handler serves the message that it received**.
-/

namespace ChannelDigests
open Lib Prog

section
variable (C : Contracts)

/-- the message of an unreadable command, when its payload names an operation and the tenant. -/
def receivedUnreadable (envelope : CommandEnvelope C.Object) (kind : CommandKind) :
    Option Message := do
  let tenant ← envelope.tenant
  let operationId ← C.operationIdOf envelope.payload
  let owner ← C.ownerOf envelope.payload
  let _ ← C.objectToVec envelope.payload
  if owner = tenant then some (.command (.unreadable envelope.commandId kind operationId owner))
  else none

def receivedSubscription (envelope : CommandEnvelope C.Object) : Option Message :=
  match C.subscription.payloadAs envelope.payload with
  | none => receivedUnreadable C envelope .subscription
  | some command =>
    if envelope.tenant = some command.owner ∧ (C.subscription.toVec command).isSome then
      some (.command (.subscription envelope.commandId command))
    else none

def receivedRun (envelope : CommandEnvelope C.Object) : Option Message :=
  match C.run.payloadAs envelope.payload with
  | none => receivedUnreadable C envelope .run
  | some command =>
    if envelope.tenant = some command.owner ∧ (C.run.toVec command).isSome then
      some (.command (.run envelope.commandId command))
    else none

def receivedOccurrence (language : OutputLanguage) (envelope : CommandEnvelope C.Object) :
    Option Message := do
  let command ← C.occurrence.payloadAs envelope.payload
  let payload ← C.occurrence.toVec command
  let operationId ← envelope.correlationOperation
  let ownerId ← envelope.tenant
  if C.occurrence.validForPublish command ∧ envelope.aggregateId = command.occurrenceRef then
    some (.command (.occurrence
      (occurrenceRequest C language envelope command payload operationId ownerId)))
  else none

/-- the message of a command delivery. -/
def receivedCommand (language : OutputLanguage) (subject : Subject) (bytes : C.Bytes) :
    Option Message :=
  match C.commandEnvelope bytes with
  | none => none
  | some envelope =>
    if envelope.producer = platformProducer ∧ envelope.commandType = subject.contractType then
      match subject with
      | .subscription => receivedSubscription C envelope
      | .run => receivedRun C envelope
      | .occurrence => receivedOccurrence C language envelope
      | _ => none
    else none

/-- the message of an event delivery. -/
def receivedEvent (subject : Subject) (bytes : C.Bytes) : Option Message :=
  match C.eventEnvelope bytes with
  | none => none
  | some envelope =>
    if envelope.producer = knowledgeProducer ∧ envelope.eventType = subject.contractType then
      match subject with
      | .completed => do
        let fact ← C.completed.payloadAs envelope.payload
        let _ ← C.completed.toVec fact
        if envelope.tenant = some fact.owner then some (.completed envelope.eventId fact) else none
      | .failed => do
        let fact ← C.failed.payloadAs envelope.payload
        let _ ← C.failed.toVec fact
        if envelope.tenant = some fact.owner then some (.failed envelope.eventId fact) else none
      | _ => none
    else none

/-- the message that a delivery carries. -/
def received (language : OutputLanguage) (transport : String) (bytes : C.Bytes) :
    Option Message :=
  match Subject.ofTransport transport with
  | none => none
  | some subject =>
    match subject with
    | .subscription | .run | .occurrence => receivedCommand C language subject bytes
    | .completed | .failed => receivedEvent C subject bytes

/-- the program that serves a message. -/
inductive Serves : Message → Delivery → Prop where
  | subscription {messageId payload c} : C.subscription.fromSlice payload = some c →
      Serves (.command (.subscription messageId c))
        (intakeDisposition (acceptSubscription C messageId payload))
  | run {messageId payload c} : C.run.fromSlice payload = some c →
      Serves (.command (.run messageId c)) (intakeDisposition (acceptRun C messageId payload))
  | unreadable {messageId kind sha operationId ownerId} :
      Serves (.command (.unreadable messageId kind operationId ownerId))
        (intakeDisposition (reject C (unreadableRejection messageId kind sha operationId ownerId)))
  | occurrence {o} : Serves (.command (.occurrence o)) (coordinatorDisposition (acceptOccurrence C o))
  | completed {messageId payload fact} : C.completed.fromSlice payload = some fact →
      Serves (.completed messageId fact)
        (coordinatorDisposition (settleCompletion C messageId payload))
  | failed {messageId payload fact} : C.failed.fromSlice payload = some fact →
      Serves (.failed messageId fact)
        (coordinatorDisposition (settleFailure C messageId payload))

/-- the delivery is refused without a statement, or serves the message. -/
def ServedAs (p : Delivery) : Option Message → Prop
  | none => p = pure .term
  | some message => Serves C message p

variable {C}

theorem receivedUnreadable_eq {envelope : CommandEnvelope C.Object} {kind : CommandKind}
    {message : Message} (h : receivedUnreadable C envelope kind = some message) :
    ∃ messageId operationId ownerId,
      message = .command (.unreadable messageId kind operationId ownerId) := by
  obtain ⟨tenant, -, h⟩ := Option.bind_eq_some_iff.mp h
  obtain ⟨operationId, -, h⟩ := Option.bind_eq_some_iff.mp h
  obtain ⟨owner, -, h⟩ := Option.bind_eq_some_iff.mp h
  obtain ⟨bytes, -, h⟩ := Option.bind_eq_some_iff.mp h
  split_ifs at h
  cases h
  exact ⟨_, _, _, rfl⟩

theorem handleUnreadable_serves (envelope : CommandEnvelope C.Object) (kind : CommandKind) :
    ServedAs C (handleUnreadable C envelope kind) (receivedUnreadable C envelope kind) := by
  unfold handleUnreadable receivedUnreadable rejectUnreadable
  rcases envelope.tenant with _ | tenant
  · rfl
  rcases C.operationIdOf envelope.payload with _ | operationId
  · rfl
  rcases C.ownerOf envelope.payload with _ | owner
  · rfl
  rcases C.objectToVec envelope.payload with _ | bytes
  · by_cases h : owner = tenant <;> simp [h, ServedAs] <;> rfl
  · by_cases h : owner = tenant
    · simp only [h, Option.bind_eq_bind, Option.bind_some, ne_eq, not_true_eq_false, if_false,
        if_true]
      exact .unreadable
    · simp [h, ServedAs]
      rfl

theorem handleSubscription_serves (envelope : CommandEnvelope C.Object) :
    ServedAs C (handleSubscription C envelope) (receivedSubscription C envelope) := by
  unfold handleSubscription receivedSubscription
  rcases C.subscription.payloadAs envelope.payload with _ | command
  · exact handleUnreadable_serves envelope .subscription
  by_cases ht : envelope.tenant = some command.owner
  · rcases hv : C.subscription.toVec command with _ | payload
    · simp [ht, hv, ServedAs]
    · simp only [ht, hv, ne_eq, not_true_eq_false, if_false, Option.isSome_some, and_self, if_true]
      exact .subscription (C.subscription.roundTrip hv)
  · simp [ht, ServedAs]

theorem handleRun_serves (envelope : CommandEnvelope C.Object) :
    ServedAs C (handleRun C envelope) (receivedRun C envelope) := by
  unfold handleRun receivedRun
  rcases C.run.payloadAs envelope.payload with _ | command
  · exact handleUnreadable_serves envelope .run
  by_cases ht : envelope.tenant = some command.owner
  · rcases hv : C.run.toVec command with _ | payload
    · simp [ht, hv, ServedAs]
    · simp only [ht, hv, ne_eq, not_true_eq_false, if_false, Option.isSome_some, and_self, if_true]
      exact .run (C.run.roundTrip hv)
  · simp [ht, ServedAs]

theorem handleOccurrence_serves (language : OutputLanguage) (envelope : CommandEnvelope C.Object) :
    ServedAs C (handleOccurrence C language envelope) (receivedOccurrence C language envelope) := by
  unfold handleOccurrence receivedOccurrence
  rcases C.occurrence.payloadAs envelope.payload with _ | command
  · rfl
  rcases hv : C.occurrence.validForPublish command
  · rcases C.occurrence.toVec command with _ | payload <;>
      rcases envelope.correlationOperation with _ | operationId <;>
      rcases envelope.tenant with _ | ownerId <;> simp [hv, ServedAs]
  by_cases ha : envelope.aggregateId = command.occurrenceRef
  · rcases hp : C.occurrence.toVec command with _ | payload
    · simp [hv, ha, hp, ServedAs]
    rcases envelope.correlationOperation with _ | operationId
    · simp [hv, ha, hp, ServedAs]
    rcases envelope.tenant with _ | ownerId
    · simp [hv, ha, hp, ServedAs]
    · simp only [hv, ha, hp, Bool.not_true, Bool.false_eq_true, ne_eq, not_true_eq_false,
        or_self, if_false, Option.bind_eq_bind, Option.bind_some, and_self, if_true]
      exact .occurrence
  · rcases C.occurrence.toVec command with _ | payload <;>
      rcases envelope.correlationOperation with _ | operationId <;>
      rcases envelope.tenant with _ | ownerId <;> simp [hv, ha, ServedAs]

theorem handleCommand_serves (language : OutputLanguage) (subject : Subject) (bytes : C.Bytes) :
    ServedAs C (handleCommand C language subject bytes)
      (receivedCommand C language subject bytes) := by
  unfold handleCommand receivedCommand
  rcases C.commandEnvelope bytes with _ | envelope
  · rfl
  by_cases hp : envelope.producer = platformProducer
  · by_cases ht : envelope.commandType = subject.contractType
    · simp only [hp, ht, ne_eq, not_true_eq_false, if_false, and_self, if_true]
      cases subject with
      | subscription => exact handleSubscription_serves envelope
      | run => exact handleRun_serves envelope
      | occurrence => exact handleOccurrence_serves language envelope
      | completed => rfl
      | failed => rfl
    · simp [hp, ht, ServedAs]
  · simp [hp, ServedAs]

theorem handleCompleted_serves (envelope : EventEnvelope C.Object) :
    ServedAs C (handleCompleted C envelope) (do
      let fact ← C.completed.payloadAs envelope.payload
      let _ ← C.completed.toVec fact
      if envelope.tenant = some fact.owner then some (.completed envelope.eventId fact)
      else none) := by
  unfold handleCompleted
  rcases C.completed.payloadAs envelope.payload with _ | fact
  · rfl
  by_cases ht : envelope.tenant = some fact.owner
  · rcases hv : C.completed.toVec fact with _ | payload
    · simp [ht, hv, ServedAs]
    · simp only [ht, hv, ne_eq, not_true_eq_false, if_false, Option.bind_eq_bind, Option.bind_some,
        if_true]
      exact .completed (C.completed.roundTrip hv)
  · rcases C.completed.toVec fact with _ | payload <;> simp [ht, ServedAs]

theorem handleFailed_serves (envelope : EventEnvelope C.Object) :
    ServedAs C (handleFailed C envelope) (do
      let fact ← C.failed.payloadAs envelope.payload
      let _ ← C.failed.toVec fact
      if envelope.tenant = some fact.owner then some (.failed envelope.eventId fact)
      else none) := by
  unfold handleFailed
  rcases C.failed.payloadAs envelope.payload with _ | fact
  · rfl
  by_cases ht : envelope.tenant = some fact.owner
  · rcases hv : C.failed.toVec fact with _ | payload
    · simp [ht, hv, ServedAs]
    · simp only [ht, hv, ne_eq, not_true_eq_false, if_false, Option.bind_eq_bind, Option.bind_some,
        if_true]
      exact .failed (C.failed.roundTrip hv)
  · rcases C.failed.toVec fact with _ | payload <;> simp [ht, ServedAs]

theorem handleEvent_serves (subject : Subject) (bytes : C.Bytes) :
    ServedAs C (handleEvent C subject bytes) (receivedEvent C subject bytes) := by
  unfold handleEvent receivedEvent
  rcases C.eventEnvelope bytes with _ | envelope
  · rfl
  by_cases hp : envelope.producer = knowledgeProducer
  · by_cases ht : envelope.eventType = subject.contractType
    · simp only [hp, ht, ne_eq, not_true_eq_false, if_false, and_self, if_true]
      cases subject with
      | subscription => rfl
      | run => rfl
      | occurrence => rfl
      | completed => exact handleCompleted_serves envelope
      | failed => exact handleFailed_serves envelope
    · simp [hp, ht, ServedAs]
  · simp [hp, ServedAs]

/-- **The handler serves the message that it received**, and refuses the delivery otherwise. -/
theorem handle_serves (language : OutputLanguage) (transport : String) (bytes : C.Bytes) :
    ServedAs C (handle C language transport bytes) (received C language transport bytes) := by
  unfold handle received
  rcases Subject.ofTransport transport with _ | subject
  · rfl
  cases subject with
  | subscription => exact handleCommand_serves language .subscription bytes
  | run => exact handleCommand_serves language .run bytes
  | occurrence => exact handleCommand_serves language .occurrence bytes
  | completed => exact handleEvent_serves .completed bytes
  | failed => exact handleEvent_serves .failed bytes

end

end ChannelDigests
