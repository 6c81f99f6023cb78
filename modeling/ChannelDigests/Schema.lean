import ChannelDigests.Lib.Program
import ChannelDigests.Lib.Table

/-!
# The stored state

The tables of the service, one structure a table and one list of rows for each of them in `Db`.

Identities are natural numbers, compared as the `uuid` values they stand for.  Instants are
microseconds since the epoch, the resolution of `timestamptz`.  A `Digest` is the value of a
SHA-256 digest, so that the checks on its hexadecimal form hold by construction.

Left out: `provider_status`, the columns that no modelled statement reads or writes
(`provider_peer_id`, `resolution_state`, row creation and update times of other tables than the
runs, the manifests, the results and the outbox), and leases of other kinds than `acquisition:<channel>`.
-/

namespace ChannelDigests

abbrev Uuid := Nat
abbrev Digest := Nat
abbrev Instant := Int

/-- one second -/
def second : Int := 1000000

/-- `to_char(… 'YYYY-MM-DD"T"HH24:MI:SS"Z"')`, read back: the instant cut to its second. -/
def wholeSecond (t : Instant) : Instant := t - t % second

/-! ## Channels and subscriptions -/

structure Channel where
  channelId : Uuid
  username : String
  displayName : Option String
  deriving DecidableEq

structure Subscription where
  subscriptionId : Uuid
  ownerId : Uuid
  channelId : Uuid
  firstActivatedAt : Instant
  enabled : Bool
  deriving DecidableEq

/-! ## Posts -/

/-- one stored text of one message. -/
structure Revision where
  revisionId : Uuid
  channelId : Uuid
  messageId : Int
  contentSha256 : Digest
  body : Option String
  publishedAt : Instant
  observedAt : Instant
  canonicalLink : String
  deletedAt : Option Instant
  minimizedAt : Option Instant
  deriving DecidableEq

/-! ## Runs -/

inductive Trigger where
  | onDemand
  | scheduled
  deriving DecidableEq

inductive OutputLanguage where
  | ru
  | en
  deriving DecidableEq

inductive RunState where
  | accepted
  | acquiring
  | waitingRecap
  | completed
  | partially
  | failed
  deriving DecidableEq

/-- `state in ('accepted', 'acquiring')`. -/
def RunState.pending : RunState → Bool
  | .accepted | .acquiring => true
  | _ => false

/-- `state in ('completed', 'partial', 'failed')`. -/
def RunState.terminal : RunState → Bool
  | .completed | .partially | .failed => true
  | _ => false

structure Run where
  runId : Uuid
  ownerId : Uuid
  operationId : Uuid
  trigger : Trigger
  idempotencyKey : String
  windowStart : Instant
  windowEnd : Instant
  outputLanguage : OutputLanguage
  state : RunState
  safeFailureClass : Option String
  acquisitionIncomplete : Bool
  createdAt : Instant
  updatedAt : Instant
  deriving DecidableEq

/-- the columns of the natural key of a run. -/
def Run.naturalKey (r : Run) : Uuid × Trigger × String × Instant × Instant :=
  (r.ownerId, r.trigger, r.idempotencyKey, r.windowStart, r.windowEnd)

/-! ## Manifests and results -/

structure Manifest where
  manifestId : Uuid
  runId : Uuid
  ownerId : Uuid
  sha256 : Digest
  sourceCount : Nat
  channelCount : Nat
  canonicalText : Option String
  minimizedAt : Option Instant
  createdAt : Instant
  deriving DecidableEq

/-- one message that a manifest holds (`digest_manifest_sources`). -/
structure ManifestSourceLink where
  manifestId : Uuid
  channelId : Uuid
  messageId : Int
  deriving DecidableEq

inductive Outcome where
  | completed
  | partially
  | failed
  deriving DecidableEq

/-- the state that a run takes with its result. -/
def Outcome.state : Outcome → RunState
  | .completed => .completed
  | .partially => .partially
  | .failed => .failed

structure DigestResult where
  resultId : Uuid
  runId : Uuid
  manifestId : Uuid
  ownerId : Uuid
  outcome : Outcome
  recapId : Option Uuid
  resultDigest : Option Digest
  citationCount : Nat
  safeFailureClass : Option String
  createdAt : Instant
  deriving DecidableEq

/-! ## Inbox and outbox -/

/-- the five inbound subjects. -/
inductive Subject where
  | subscription
  | run
  | occurrence
  | completed
  | failed
  deriving DecidableEq

inductive InboxState where
  | processing
  | completed
  | failed
  deriving DecidableEq

/-- a semantic key of the inbox: a text of the sender, or the text of an identity. -/
inductive InboxKey where
  | text (s : String)
  | id (u : Uuid)
  deriving DecidableEq

structure InboxMessage where
  messageId : Uuid
  subject : Subject
  semanticKey : InboxKey
  payloadSha256 : Digest
  state : InboxState
  completedAt : Option Instant
  safeFailureClass : Option String
  deriving DecidableEq

inductive OperationStatus where
  | queued
  | running
  | succeeded
  | partiallySucceeded
  | failed
  deriving DecidableEq

/-- the operation has ended. -/
def OperationStatus.terminal : OperationStatus → Bool
  | .queued | .running => false
  | _ => true

structure ErrorEnvelope where
  code : String
  message : String
  retryable : Bool
  deriving DecidableEq

structure WarningEnvelope where
  code : String
  message : String
  deriving DecidableEq

/-- the payload of `platform.operation.reported.v1`. -/
structure OperationReported where
  operationId : Uuid
  status : OperationStatus
  stage : String
  results : List String
  error : Option ErrorEnvelope
  warnings : List WarningEnvelope
  deriving DecidableEq

/-- the payload of `knowledge.channel_digest_recap.requested.v1`. -/
structure RecapRequested where
  operationId : Uuid
  owner : Uuid
  digestRunId : Uuid
  windowStart : Instant
  windowEnd : Instant
  outputLanguage : OutputLanguage
  sourceCount : Nat
  channelCount : Nat
  manifestRef : Uuid
  manifestDigest : Digest
  analysisFamily : String
  analysisContract : String
  deriving DecidableEq

/-- the payload of `platform.schedule.registration_requested.v1`. -/
structure ScheduleRegistration where
  ownerUserId : Uuid
  cronExpression : String
  enabled : Bool
  deriving DecidableEq

inductive OutboxPayload where
  | report (r : OperationReported)
  | recapRequest (r : RecapRequested)
  | registration (r : ScheduleRegistration)
  deriving DecidableEq

/-- subject and semantic key of an outbox row: `operation:<id>:<status>` for a report, the run
for a recap request, the digest of the configuration for a registration. -/
inductive OutboxKey where
  | report (operationId : Uuid) (status : OperationStatus)
  | recapRequest (runId : Uuid)
  | registration (config : Digest)
  deriving DecidableEq

/-- `command:<id>` or `event:<id>`. -/
inductive Causation where
  | command (id : Uuid)
  | event (id : Uuid)
  deriving DecidableEq

structure OutboxMessage where
  outboxId : Uuid
  key : OutboxKey
  ownerId : Uuid
  operationId : Option Uuid
  causationRef : Option Causation
  payload : OutboxPayload
  createdAt : Instant
  publishedAt : Option Instant
  attempts : Nat
  nextAttemptAt : Instant
  safeFailureClass : Option String
  deriving DecidableEq

/-! ## Acquisition leases -/

inductive CheckpointState where
  | pageCommitted
  | pageLimit
  | completed
  | floodWait
  | providerUnavailable
  deriving DecidableEq

/-- the checkpoint document of an acquisition lease. -/
structure Checkpoint where
  state : CheckpointState
  beforeMessageId : Option Int
  pages : Nat
  revisions : Nat
  deriving DecidableEq

/-- the lease of kind `acquisition:<channelId>` on the run `runId`. -/
structure Lease where
  channelId : Uuid
  runId : Uuid
  holderId : Uuid
  acquiredAt : Instant
  expiresAt : Instant
  checkpoint : Checkpoint
  deriving DecidableEq

/-! ## The database -/

structure Db where
  channels : List Channel
  subscriptions : List Subscription
  revisions : List Revision
  runs : List Run
  manifests : List Manifest
  manifestSources : List ManifestSourceLink
  results : List DigestResult
  inbox : List InboxMessage
  outbox : List OutboxMessage
  leases : List Lease
  deriving DecidableEq

/-- the database after `schema.sql`. -/
def Db.empty : Db := ⟨[], [], [], [], [], [], [], [], [], []⟩

/-! ## What a program asks -/

/-- what one transaction takes from outside: `now()`, fresh identities (`Uuid::now_v7`) and the
number of statements that succeed before one is lost (`none` when none is). -/
structure Moment where
  now : Instant
  ids : Nat → Uuid
  fuse : Option Nat

/-- one post as the provider shows it; a publication text that is no instant is `none`. -/
structure ProviderPost where
  messageId : Int
  body : String
  publishedAt : Option Instant
  deleted : Bool
  deriving DecidableEq

structure ProviderPage where
  posts : List ProviderPost
  nextBeforeMessageId : Option Int
  deriving DecidableEq

inductive ProviderError where
  | invalidChannel
  | reauthorizationRequired
  | unavailable
  | floodWait (nanoseconds : Nat)
  deriving DecidableEq

/-- the references of an envelope: `operation:<id>`, `command:<id>`, `event:<id>`,
`channel-digest-run:<id>` and `schedule-registration:<service>.<name>`. -/
inductive Reference where
  | operation (id : Uuid)
  | command (id : Uuid)
  | event (id : Uuid)
  | run (id : Uuid)
  | scheduleRegistration
  deriving DecidableEq

/-- the envelope of an outbox row; the row gives identity, instant, causation and tenant. -/
structure OutboundMessage where
  subject : String
  messageId : Uuid
  issuedAt : Instant
  aggregate : Reference
  correlation : Reference
  causation : Option Reference
  tenant : Uuid
  payload : OutboxPayload
  deriving DecidableEq

/-- the answer to a request under a timeout. -/
inductive Reply (α : Type) where
  | ok (a : α)
  | error (e : ProviderError)
  | elapsed

/-- the questions of the service: a moment of the database, two provider requests, and a publish
that the broker acknowledges or refuses. -/
inductive Question where
  | moment
  | resolve (username : String)
  | fetch (channel : Nat) (before : Option Int) (limit : Nat)
  | publish (message : OutboundMessage)

/-- the answers to the questions. -/
abbrev Question.Answer : Question → Type
  | .moment => Moment
  | .resolve _ => Reply Nat
  | .fetch _ _ _ => Reply ProviderPage
  | .publish _ => Bool

/-- the signature of every program of the service. -/
abbrev service : Lib.Signature := ⟨Db, Question, Question.Answer⟩

/-- a program of the service -/
abbrev Action (ε α : Type) := Lib.Prog service ε α

/-- statements of a transaction -/
abbrev Sql (ε α : Type) := Lib.Tx Db ε α

open Lib

/-- one transaction at one moment. -/
def transaction {ε α : Type} (t : Moment → Sql ε (Fate α)) : Action ε α :=
  .ask .moment fun m => Prog.transact m.fuse (t m)

/-- one statement outside a transaction, which commits by itself. -/
def statement {ε α : Type} (t : Moment → Sql ε α) : Action ε α :=
  transaction fun m => t m >>= fun a => pure (.committed a)

/-- a statement that ends in an error `e` unless `f` allows it. -/
def guarded {ε : Type} (e : ε) (f : Db → Option Db) : Sql ε Unit :=
  Tx.attempt e fun d =>
    match f d with
    | none => .error e
    | some d => .ok ((), d)

/-- a fresh identity outside a transaction. -/
def freshId {ε : Type} : Action ε Uuid :=
  .ask .moment fun m => .done (.ok (m.ids 0))

/-- ask the provider to resolve a channel. -/
def resolvePublicChannel {ε : Type} (username : String) : Action ε (Reply Nat) :=
  Prog.question (S := service) (.resolve username)

/-- ask the provider for one page. -/
def fetchPublicPosts {ε : Type} (channel : Nat) (before : Option Int) (limit : Nat) :
    Action ε (Reply ProviderPage) :=
  Prog.question (S := service) (.fetch channel before limit)

/-- publish one message and wait for the acknowledgement of the broker. -/
def publishMessage {ε : Type} (message : OutboundMessage) : Action ε Bool :=
  Prog.question (S := service) (.publish message)

end ChannelDigests
