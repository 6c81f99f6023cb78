import ChannelDigests.Coordinator

/-!
# Publishing and registration

`publish_outbox` sends the due rows of the outbox and records what the broker answered;
`enqueue_schedule_registration` queues the schedule of the worker when its configuration changed.

* `wrapOutboxRow`     the envelope of a row, or none when the row cannot be wrapped;
* `publishOutbox`     one pass;
* `enqueueScheduleRegistration`   one registration at worker start.
-/

namespace ChannelDigests
open Lib

inductive BusError where
  | unavailable
  | unacknowledged
  | unwrappable
  deriving DecidableEq

variable (C : Contracts)

def Causation.reference : Causation → Reference
  | .command id => .command id
  | .event id => .event id

/-- the envelope of a row, with the references that its payload gives. -/
def OutboxMessage.envelope (row : OutboxMessage) (subject : String)
    (aggregate correlation : Reference) : OutboundMessage where
  subject := subject
  messageId := row.outboxId
  issuedAt := row.createdAt
  aggregate := aggregate
  correlation := correlation
  causation := row.causationRef.map Causation.reference
  tenant := row.ownerId
  payload := row.payload

/-- every reference of the envelope parses, and the envelope can be written. -/
def OutboundMessage.writable (m : OutboundMessage) : Bool :=
  C.reference m.aggregate && C.reference m.correlation && m.causation.all C.reference &&
    C.encodes m

/-- `wrap_outbox_row`. -/
def wrapOutboxRow (row : OutboxMessage) : Option OutboundMessage :=
  let sealed (valid : Bool) (m : OutboundMessage) :=
    if valid && m.writable C then some m else none
  match row.key, row.payload with
  | .report _ _, .report r =>
    sealed (C.validReport r) (row.envelope "evt.platform.operation.reported.v1"
      (.operation r.operationId) (.operation r.operationId))
  | .recapRequest _, .recapRequest q =>
    sealed (C.recapRequest.validForPublish q)
      (row.envelope "cmd.knowledge.channel_digest_recap.requested.v1" (.run q.digestRunId)
        (.operation q.operationId))
  | .registration _, .registration _ =>
    sealed true (row.envelope "cmd.platform.schedule.registration_requested.v1"
      .scheduleRegistration (.command row.outboxId))
  | _, _ => none

/-- the rows of one pass: due and unpublished, oldest first, at most 32. -/
def Db.dueRows (d : Db) (now : Instant) : List OutboxMessage :=
  ((d.outbox.filter fun r => r.publishedAt.isNone && decide (r.nextAttemptAt ≤ now)).insertionSort
    fun a b => toLex (a.createdAt, a.outboxId) ≤ toLex (b.createdAt, b.outboxId)).take 32

/-- the row after the broker acknowledged it. -/
def OutboxMessage.publish (now : Instant) (r : OutboxMessage) : OutboxMessage :=
  { r with publishedAt := some now, attempts := r.attempts + 1 }

/-- the row after the broker refused it. -/
def OutboxMessage.backOff (now : Instant) (r : OutboxMessage) : OutboxMessage :=
  { r with
    attempts := r.attempts + 1
    safeFailureClass := some "publish_unacknowledged"
    nextAttemptAt := now + min 300 (Nat.pow 2 (min r.attempts 8)) * second }

/-- `update outbox_messages … where outbox_id = … and published_at is null`. -/
def updateOutbox (outboxId : Uuid) (u : Instant → OutboxMessage → OutboxMessage) :
    Action BusError Unit :=
  statement fun m => .change .unavailable
    (fun d => { d with
      outbox := updateWhere (fun r => r.outboxId = outboxId && r.publishedAt.isNone) (u m.now)
        d.outbox })
    fun _ => ()

/-- the loop over the rows of a pass; the answer says whether some row was refused. -/
def publishRows : List OutboxMessage → Bool → Action BusError Bool
  | [], refused => pure refused
  | row :: rows, refused =>
    match wrapOutboxRow C row with
    | none => Prog.fail .unwrappable
    | some message => do
      if ← publishMessage message then
        updateOutbox row.outboxId OutboxMessage.publish
        publishRows rows refused
      else
        updateOutbox row.outboxId OutboxMessage.backOff
        publishRows rows true

/-- `publish_outbox`. -/
def publishOutbox : Action BusError Unit := do
  let rows ← statement fun m => .read .unavailable fun d => d.dueRows m.now
  if ← publishRows C rows false then Prog.fail .unacknowledged else pure ()

/-! ## Registration -/

structure ScheduleConfig where
  ownerUserId : Uuid
  cronExpression : String
  enabled : Bool
  deriving DecidableEq

inductive RegistrationOutcome where
  | enqueued
  | unchanged
  | skipped
  deriving DecidableEq

inductive RegistrationError where
  | unavailable
  deriving DecidableEq

/-- the key of a configuration. -/
def ScheduleConfig.key (s : ScheduleConfig) : OutboxKey :=
  .registration (C.textDigest s!"{s.ownerUserId}|{s.cronExpression}|{s.enabled}")

def ScheduleConfig.registration (s : ScheduleConfig) : ScheduleRegistration where
  ownerUserId := s.ownerUserId
  cronExpression := s.cronExpression
  enabled := s.enabled

/-- the outbox row of a configuration. -/
def ScheduleConfig.row (s : ScheduleConfig) (outboxId : Uuid) (now : Instant) : OutboxMessage where
  outboxId := outboxId
  key := s.key C
  ownerId := s.ownerUserId
  operationId := none
  causationRef := none
  payload := .registration s.registration
  createdAt := now
  publishedAt := none
  attempts := 0
  nextAttemptAt := now
  safeFailureClass := none

/-- the row that a revived registration becomes. -/
def OutboxMessage.revive (row : OutboxMessage) (r : OutboxMessage) : OutboxMessage :=
  { r with
    outboxId := row.outboxId
    createdAt := row.createdAt
    publishedAt := none
    attempts := 0
    nextAttemptAt := row.nextAttemptAt
    safeFailureClass := none
    payload := row.payload }

def OutboxKey.isRegistration : OutboxKey → Bool
  | .registration _ => true
  | _ => false

/-- the registration queued last. -/
def Db.latestRegistration (d : Db) : Option OutboxMessage :=
  ((d.outbox.filter fun r => r.key.isRegistration).insertionSort
    fun a b => toLex (b.createdAt, b.outboxId) ≤ toLex (a.createdAt, a.outboxId)).head?

/-- `insert … on conflict (subject, semantic_key) do update`; none when the identity is taken. -/
def Db.upsertRegistration (d : Db) (row : OutboxMessage) : Option Db :=
  if d.outbox.any (fun r => r.outboxId = row.outboxId) then none
  else some { d with
    outbox :=
      if d.outboxHolds row.key then
        updateWhere (fun r => r.key = row.key) (OutboxMessage.revive row) d.outbox
      else d.outbox ++ [row] }

def registrationTx (schedule : ScheduleConfig) (m : Moment) :
    Sql RegistrationError (Fate RegistrationOutcome) := do
  .mark .unavailable ()
  let latest ← .read .unavailable fun d => d.latestRegistration
  if latest.map (·.key) = some (schedule.key C) then .drop .unchanged
  else
    guarded .unavailable fun d => d.upsertRegistration (schedule.row C (m.ids 0) m.now)
    .commit .unavailable .enqueued

/-- `enqueue_schedule_registration`. -/
def enqueueScheduleRegistration (schedule : Option ScheduleConfig) :
    Action RegistrationError RegistrationOutcome :=
  match schedule with
  | none => pure .skipped
  | some schedule =>
    if !C.cronExpression schedule.cronExpression then Prog.fail .unavailable
    else transaction (registrationTx C schedule)

end ChannelDigests
