import ChannelDigests.Effects

/-!
# Changes

`Change C K w k d d'` is one committed transaction of the kind `k` that takes the database `d` to
`d'`, over the contracts `C` and the messages `K` that were sent.  There is one constructor a
transaction of the service.  `w` says how many executors work at a time: with at most one, more is
known of what its transactions find.

* `Kind`            the transactions; who sends which;
* `Crew`            the executors at work;
* `Change`          one committed transaction;
* `Change.frame`    the tables that a kind does not write stay as they are;
* `Evolves`         any number of them.
-/

namespace ChannelDigests
open Lib

/-- the transactions of the service. -/
inductive Kind where
  | subscription
  | rejection
  | run
  | occurrence
  | acquiring
  | recorded
  | empty
  | failed
  | manifest
  | lease
  | append
  | withdrawal
  | completion
  | recapFailure
  | reaped
  | bodies
  | manifestTexts
  | published
  | registration
  deriving DecidableEq

/-- the transactions that only an executor sends. -/
def Kind.isExecutor : Kind → Bool
  | .acquiring | .recorded | .empty | .failed | .manifest | .lease | .append | .withdrawal => true
  | _ => false

/-- the transactions that only the handling of a message sends. -/
def Kind.isDelivery : Kind → Bool
  | .subscription | .rejection | .run | .occurrence | .completion | .recapFailure => true
  | _ => false

/-- how many executors may work at the same time. -/
inductive Crew where
  | none
  | one
  | many
  deriving DecidableEq

/-- a stored revision of the message is not withdrawn. -/
def Db.live (d : Db) (channelId : Uuid) (messageId : Int) : Prop :=
  ∃ r ∈ d.revisions, r.channelId = channelId ∧ r.messageId = messageId ∧ r.deletedAt = none

variable (C : Contracts) (K : Message → Prop) (w : Crew)

/-- one committed transaction. -/
inductive Change : Kind → Db → Db → Prop where
  | subscription {m d d' c messageId sha} : K (.command (.subscription messageId c)) →
      SubscriptionApplied m d d' c messageId sha → Change .subscription d d'
  | rejection {m d d' c sha reason} : K (.command c) → c.subject ≠ .occurrence →
      CommandRejected m d d' (c.rejection sha reason) → Change .rejection d d'
  | created {m d d' c messageId sha} : K (.command (.run messageId c)) →
      RunCreated m d d' c messageId sha → Change .run d d'
  | repeated {m d d' c messageId sha} : K (.command (.run messageId c)) →
      RunRepeated m d d' c messageId sha → Change .run d d'
  | occurrence {m d d' o} : K (.command (.occurrence o)) → OccurrenceFanned m d d' o →
      Change .occurrence d d'
  | acquiring {m d d' runId ownerId} : AcquisitionBegun m d d' runId ownerId →
      Change .acquiring d d'
  | recorded {d runId incomplete} : w ≠ .none →
      (w ≠ .many → ∀ r ∈ d.runs, r.runId = runId → r.state.pending = true ∨ r.state = .failed) →
      Change .recorded d (d.record runId incomplete)
  | empty {m d d' runId ownerId} : RunCompletedEmpty m d d' runId ownerId → Change .empty d d'
  | failed {m d d' runId ownerId failure} : RunFailed m d d' runId ownerId failure →
      Change .failed d d'
  | manifest {m d d' manifest request} : ManifestCommitted m d d' C manifest request →
      (w ≠ .many → ∀ l ∈ manifest.messages, d.live l.1 l.2) → Change .manifest d d'
  | lease {d row} : Change .lease d (d.putLease row)
  | append {d d' o revisionId} :
      d.appendRevision (ObservedRevision.row o revisionId (C.textDigest o.body)) = some d' →
      Change .append d d'
  | withdrawal {d channelId g now} : Change .withdrawal d (d.withdraw channelId g now)
  | completion {m d d' fact analysisId messageId sha incomplete run manifest} :
      K (.completed messageId fact) → fact.analysisRef = some analysisId →
      CompletionSettled m d d' fact analysisId messageId sha incomplete run manifest →
      (w = .none → incomplete = d.incompleteFlag fact.digestRunId fact.owner) →
      Change .completion d d'
  | recapFailure {m d d' fact manifestId messageId sha} : K (.failed messageId fact) →
      FailureSettled m d d' fact manifestId messageId sha → Change .recapFailure d d'
  | reaped {m d d' cutoff} : RunsReaped m d d' cutoff → Change .reaped d d'
  | bodies {d before limit now} : Change .bodies d (d.minimizeRevisions before limit now)
  | manifestTexts {d before limit now} :
      Change .manifestTexts d (d.minimizeManifests before limit now)
  | published {d outboxId now} : Change .published d { d with
      outbox := updateWhere (fun r => r.outboxId = outboxId && r.publishedAt.isNone)
        (OutboxMessage.publish now) d.outbox }
  | backedOff {d outboxId now} : Change .published d { d with
      outbox := updateWhere (fun r => r.outboxId = outboxId && r.publishedAt.isNone)
        (OutboxMessage.backOff now) d.outbox }
  | registration {d d' row schedule outboxId now} : row = ScheduleConfig.row C schedule outboxId now →
      d.upsertRegistration row = some d' → Change .registration d d'

/-! ## Footprints -/

inductive Table where
  | channels
  | subscriptions
  | revisions
  | runs
  | manifests
  | manifestSources
  | results
  | inbox
  | outbox
  | leases
  deriving DecidableEq

/-- the table is the same in both states. -/
def Table.Same (d d' : Db) : Table → Prop
  | .channels => d'.channels = d.channels
  | .subscriptions => d'.subscriptions = d.subscriptions
  | .revisions => d'.revisions = d.revisions
  | .runs => d'.runs = d.runs
  | .manifests => d'.manifests = d.manifests
  | .manifestSources => d'.manifestSources = d.manifestSources
  | .results => d'.results = d.results
  | .inbox => d'.inbox = d.inbox
  | .outbox => d'.outbox = d.outbox
  | .leases => d'.leases = d.leases

/-- the tables that a transaction writes. -/
def Kind.writes : Kind → List Table
  | .subscription => [.channels, .subscriptions, .inbox, .outbox]
  | .rejection => [.inbox, .outbox]
  | .run | .occurrence => [.runs, .inbox, .outbox]
  | .acquiring | .empty | .failed | .reaped => [.runs, .outbox]
  | .recorded => [.runs]
  | .manifest => [.runs, .manifests, .manifestSources, .outbox]
  | .lease => [.leases]
  | .append | .bodies => [.revisions]
  | .withdrawal => [.revisions, .manifests]
  | .completion | .recapFailure => [.runs, .results, .inbox, .outbox]
  | .manifestTexts => [.manifests]
  | .published | .registration => [.outbox]

section
variable {C : Contracts} {K : Message → Prop} {w : Crew} {k : Kind} {d d' : Db}

/-- **A transaction leaves the tables it does not write as they are.** -/
theorem Change.frame (h : Change C K w k d d') (t : Table) (ht : t ∉ k.writes) : t.Same d d' := by
  cases h with
  | subscription _ h =>
    obtain ⟨-, s, d₁, ob, -, -, rfl⟩ := h
    cases t <;> first | rfl | exact absurd (by decide) ht
  | rejection _ _ h =>
    obtain ⟨-, ob, -, rfl⟩ := h
    cases t <;> first | rfl | exact absurd (by decide) ht
  | created _ h =>
    obtain ⟨-, -, -, -, ob, -, rfl⟩ := h
    cases t <;> first | rfl | exact absurd (by decide) ht
  | repeated _ h =>
    obtain ⟨-, -, ob, -, rfl⟩ := h
    cases t <;> first | rfl | exact absurd (by decide) ht
  | occurrence _ h =>
    obtain ⟨-, runs, ob, -, -, rfl⟩ := h
    cases t <;> first | rfl | exact absurd (by decide) ht
  | acquiring h =>
    obtain ⟨-, ob, -, rfl⟩ := h
    cases t <;> first | rfl | exact absurd (by decide) ht
  | recorded _ _ => cases t <;> first | rfl | exact absurd (by decide) ht
  | empty h =>
    obtain ⟨-, ob, -, rfl⟩ := h
    cases t <;> first | rfl | exact absurd (by decide) ht
  | failed h =>
    obtain ⟨-, ob, -, rfl⟩ := h
    cases t <;> first | rfl | exact absurd (by decide) ht
  | manifest h _ =>
    rw [h.effect]
    cases t <;> first | rfl | exact absurd (by decide) ht
  | lease => cases t <;> first | rfl | exact absurd (by decide) ht
  | append h =>
    unfold Db.appendRevision at h
    split_ifs at h <;> cases h <;> cases t <;> first | rfl | exact absurd (by decide) ht
  | withdrawal => cases t <;> first | rfl | exact absurd (by decide) ht
  | completion _ _ h _ =>
    obtain ⟨-, -, -, -, -, -, ob, -, rfl⟩ := h
    cases t <;> first | rfl | exact absurd (by decide) ht
  | recapFailure _ h =>
    obtain ⟨-, -, -, -, ob, -, rfl⟩ := h
    cases t <;> first | rfl | exact absurd (by decide) ht
  | reaped h =>
    obtain ⟨ob, -, rfl⟩ := h
    cases t <;> first | rfl | exact absurd (by decide) ht
  | bodies => cases t <;> first | rfl | exact absurd (by decide) ht
  | manifestTexts => cases t <;> first | rfl | exact absurd (by decide) ht
  | published => cases t <;> first | rfl | exact absurd (by decide) ht
  | backedOff => cases t <;> first | rfl | exact absurd (by decide) ht
  | registration _ h =>
    unfold Db.upsertRegistration at h
    split_ifs at h <;> cases h <;> cases t <;> first | rfl | exact absurd (by decide) ht

end

/-! ## Runs of changes -/

/-- any number of changes of the kinds that `p` allows. -/
def Evolves (p : Kind → Prop) : Db → Db → Prop :=
  Relation.ReflTransGen fun d d' => ∃ k, p k ∧ Change C K w k d d'

end ChannelDigests
