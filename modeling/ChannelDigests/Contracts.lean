import ChannelDigests.Schema

/-!
# The contract crates

The messages of the service are typed values of crates outside the repository.  Their fields that
the service reads are structures here; how bytes are read and written, and what the crates accept,
are the fields of `Contracts`.

* `Codec`       reading and writing one typed value, with its validation;
* `Contracts`   the crates as the service uses them;
* the limits of a manifest, `maxSources`, `maxChannels` and `maxContentBytes`.

A typed value survives the round trip through its bytes, and a canonical manifest text is read
back as the manifest it encodes: these are the two laws the structures carry.
-/

namespace ChannelDigests

/-! ## Inbound values -/

/-- `ChannelDigestSubscriptionSetRequested`. -/
structure SubscriptionSetRequested where
  operationId : Uuid
  owner : Uuid
  idempotencyKey : String
  channelUsername : String
  active : Bool
  deriving DecidableEq

/-- `ChannelDigestRunRequested`. -/
structure RunRequested where
  operationId : Uuid
  owner : Uuid
  idempotencyKey : String
  digestRunId : Uuid
  trigger : Trigger
  windowStart : Instant
  windowEnd : Instant
  outputLanguage : OutputLanguage
  deriving DecidableEq

/-- `ChannelDigestScheduleOccurrenceRequested`. -/
structure ScheduleOccurrenceRequested where
  occurrenceRef : String
  previousDueAt : Instant
  dueAt : Instant
  deriving DecidableEq

/-- `KnowledgeChannelDigestRecapCompleted`; `analysisRef` is absent when the reference is not an
`analysis:<uuid>`. -/
structure RecapCompleted where
  owner : Uuid
  digestRunId : Uuid
  digestResultId : Uuid
  analysisRef : Option Uuid
  resultRef : String
  resultDigest : Digest
  manifestDigest : Digest
  selectedCount : Nat
  includedCount : Nat
  omittedCount : Nat
  channelCount : Nat
  deriving DecidableEq

inductive RecapFailureCode where
  | manifestUnavailable
  | manifestIntegrity
  | unsupportedLanguage
  | contextBudget
  | providerUnavailable
  | providerTimeout
  | invalidOutput
  | costBudget
  | cancelled
  deriving DecidableEq

/-- `KnowledgeChannelDigestRecapFailed`. -/
structure RecapFailed where
  owner : Uuid
  digestRunId : Uuid
  manifestDigest : Digest
  failureCode : RecapFailureCode
  deriving DecidableEq

/-! ## The manifest artifact -/

/-- `ChannelDigestManifestSource`. -/
structure ContractSource where
  revisionRef : Uuid
  channelRef : Uuid
  channelLabel : String
  messageId : Int
  publishedAt : Instant
  content : String
  contentDigest : Digest
  publicLink : Option String
  revision : Nat
  deriving DecidableEq

/-- `ChannelDigestManifest`. -/
structure ContractManifest where
  manifestRef : Uuid
  owner : Uuid
  digestRunId : Uuid
  windowStart : Instant
  windowEnd : Instant
  sources : List ContractSource
  deriving DecidableEq

/-- `MAX_SOURCES`. -/
def maxSources : Nat := 100
/-- `MAX_CHANNELS`. -/
def maxChannels : Nat := 20
/-- `MAX_CONTENT_BYTES`. -/
def maxContentBytes : Nat := 16384

/-! ## Envelopes -/

/-- the fields of `CommandEnvelope` that the handler reads; `correlationOperation` is the
identity of an `operation:<uuid>` correlation. -/
structure CommandEnvelope (Object : Type) where
  commandId : Uuid
  commandType : String
  producer : String
  aggregateId : String
  correlationOperation : Option Uuid
  tenant : Option Uuid
  payload : Object

/-- the fields of `EventEnvelope` that the handler reads. -/
structure EventEnvelope (Object : Type) where
  eventId : Uuid
  eventType : String
  producer : String
  tenant : Option Uuid
  payload : Object

/-! ## Reading and writing -/

/-- one typed contract: read from the payload of an envelope, written to bytes, read from bytes,
and validated. -/
structure Codec (Object Bytes T : Type) where
  payloadAs : Object → Option T
  toVec : T → Option Bytes
  fromSlice : Bytes → Option T
  validForPublish : T → Bool
  roundTrip : ∀ {t b}, toVec t = some b → fromSlice b = some t

/-- the contract crates as the service uses them. -/
structure Contracts where
  Bytes : Type
  Object : Type
  commandEnvelope : Bytes → Option (CommandEnvelope Object)
  eventEnvelope : Bytes → Option (EventEnvelope Object)
  subscription : Codec Object Bytes SubscriptionSetRequested
  run : Codec Object Bytes RunRequested
  occurrence : Codec Object Bytes ScheduleOccurrenceRequested
  completed : Codec Object Bytes RecapCompleted
  failed : Codec Object Bytes RecapFailed
  recapRequest : Codec Object Bytes RecapRequested
  /-- `payload["operation_id"]` and `payload["owner"]` of an unreadable command. -/
  operationIdOf : Object → Option Uuid
  ownerOf : Object → Option Uuid
  objectToVec : Object → Option Bytes
  /-- SHA-256. -/
  bytesDigest : Bytes → Digest
  textDigest : String → Digest
  /-- `ChannelDigestManifest::to_canonical_bytes`, and the reading of such a text. -/
  canonicalText : ContractManifest → Option String
  readManifest : String → Option ContractManifest
  readCanonical : ∀ {m t}, canonicalText m = some t → readManifest t = some m
  /-- `DigestWindow::new` and `WireTimestamp::parse`. -/
  digestWindow : Instant → Instant → Bool
  wireTimestamp : Instant → Bool
  /-- the parsers of report fields and `OperationReported::validate`. -/
  operationStage : String → Bool
  entityRef : String → Bool
  errorCode : String → Bool
  safeMessage : String → Bool
  validReport : OperationReported → Bool
  /-- `EntityRef::parse` on a reference the service formats, and the encoding of an envelope. -/
  reference : Reference → Bool
  encodes : OutboundMessage → Bool
  /-- `ScheduleCronExpression::parse`. -/
  cronExpression : String → Bool

end ChannelDigests
