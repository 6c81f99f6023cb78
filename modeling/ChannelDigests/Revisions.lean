import ChannelDigests.Contracts
import Mathlib.Data.List.Sort
import Mathlib.Data.Prod.Lex
import Mathlib.Data.Int.Order.Basic

/-!
# Post revisions and retention

`RevisionRepository` and `Maintenance`: one statement appends a text, one withdraws the messages
that a page proves gone, and two sweeps drop texts that have aged out.

* `appendRevision`     a new text of a message; a known text changes nothing;
* `ProvedIdRange`      the ids that one page answers for;
* `Gone`               the messages that a page proves gone, or marks deleted;
* `withdrawMissing`    withdraws them, and the text of every manifest that holds one;
* `minimizeBefore`, `minimizeManifestsBefore`, `sweepOnce`   retention.
-/

namespace ChannelDigests
open Lib

/-! ## Appending -/

structure ObservedRevision where
  channelId : Uuid
  messageId : Int
  body : String
  canonicalLink : String
  publishedAt : Instant
  observedAt : Instant

/-- the row of an observation. -/
def ObservedRevision.row (o : ObservedRevision) (revisionId : Uuid) (digest : Digest) :
    Revision where
  revisionId := revisionId
  channelId := o.channelId
  messageId := o.messageId
  contentSha256 := digest
  body := some o.body
  publishedAt := o.publishedAt
  observedAt := o.observedAt
  canonicalLink := o.canonicalLink
  deletedAt := none
  minimizedAt := none

/-- the unique key of a revision. -/
def Revision.contentKey (r : Revision) : Uuid × Int × Digest :=
  (r.channelId, r.messageId, r.contentSha256)

/-- `append_revision`; `none` when the identity is taken or the channel unknown. -/
def Db.appendRevision (d : Db) (row : Revision) : Option Db :=
  if d.revisions.any (fun r => r.contentKey = row.contentKey) then some d
  else if d.revisions.any (fun r => r.revisionId = row.revisionId) then none
  else if d.channels.all (fun c => c.channelId ≠ row.channelId) then none
  else some { d with revisions := d.revisions ++ [row] }

/-- `RevisionRepository::append`. -/
def append {ε : Type} (C : Contracts) (lost : ε) (o : ObservedRevision) : Action ε Unit :=
  statement fun m => guarded lost fun d => d.appendRevision (o.row (m.ids 0) (C.textDigest o.body))

/-! ## Withdrawing -/

/-- the ids that a page proves; a `lowest` of `none` reaches the start of the channel
(`i64::MIN`), a `below` of `none` has no upper limit. -/
structure ProvedIdRange where
  lowest : Option Int
  below : Option Int
  deriving DecidableEq

/-- the id lies in the range. -/
def ProvedIdRange.covers (r : ProvedIdRange) (id : Int) : Bool :=
  r.lowest.all (fun l => l ≤ id) && r.below.all fun b => id < b

/-- the message is proved absent, or marked deleted. -/
def gone (proved : ProvedIdRange) (present deleted : List Int) (id : Int) : Bool :=
  (proved.covers id && !present.contains id) || deleted.contains id

/-- the row after its message is withdrawn. -/
def Revision.withdraw (now : Instant) (r : Revision) : Revision :=
  { r with deletedAt := some now, body := none, minimizedAt := some (r.minimizedAt.getD now) }

/-- the row after its text is dropped. -/
def Revision.minimize (now : Instant) (r : Revision) : Revision :=
  { r with body := none, minimizedAt := some now }

/-- the row after its text is dropped. -/
def Manifest.minimize (now : Instant) (m : Manifest) : Manifest :=
  { m with canonicalText := none, minimizedAt := some now }

/-- the two updates of `withdraw_missing`, over the messages of one channel that `g` holds of. -/
def Db.withdraw (d : Db) (channelId : Uuid) (g : Int → Bool) (now : Instant) : Db :=
  { d with
    revisions := updateWhere
      (fun r => decide (r.channelId = channelId) && r.deletedAt.isNone && g r.messageId)
      (Revision.withdraw now) d.revisions
    manifests := updateWhere
      (fun m => m.canonicalText.isSome && d.manifestSources.any fun l =>
        decide (l.manifestId = m.manifestId) && decide (l.channelId = channelId) && g l.messageId)
      (Manifest.minimize now) d.manifests }

/-- `RevisionRepository::withdraw_missing`. -/
def withdrawMissing {ε : Type} (lost : ε) (channelId : Uuid) (proved : ProvedIdRange)
    (present deleted : List Int) : Action ε Unit :=
  statement fun m =>
    .change lost (fun d => d.withdraw channelId (gone proved present deleted) m.now) fun _ => ()

/-! ## Retention sweeps -/

inductive MaintenanceError where
  | unavailable

/-- the revisions one sweep minimizes: the oldest publications with a text, at most `limit`. -/
def Db.agedRevisions (d : Db) (before : Instant) (limit : Nat) : List Revision :=
  ((d.revisions.filter fun r => decide (r.publishedAt < before) && r.body.isSome).insertionSort
    fun a b => toLex (a.publishedAt, a.revisionId) ≤ toLex (b.publishedAt, b.revisionId)).take limit

/-- the window start of the manifest's run, when the run has ended. -/
def Db.settledWindowStart (d : Db) (m : Manifest) : Option Instant :=
  (d.runs.find? fun r => r.runId = m.runId && r.state.terminal).map (·.windowStart)

/-- the manifests one sweep minimizes: those of ended runs with the oldest windows, at most
`limit`. -/
def Db.agedManifests (d : Db) (before : Instant) (limit : Nat) : List Manifest :=
  ((d.manifests.filter fun m =>
      m.canonicalText.isSome && (d.settledWindowStart m).any fun t => t < before).insertionSort
    fun a b => toLex ((d.settledWindowStart a).getD 0, a.manifestId) ≤
      toLex ((d.settledWindowStart b).getD 0, b.manifestId)).take limit

def Db.minimizeRevisions (d : Db) (before : Instant) (limit : Nat) (now : Instant) : Db :=
  { d with
    revisions := updateWhere
      (fun r => ((d.agedRevisions before limit).map (·.revisionId)).contains r.revisionId)
      (Revision.minimize now) d.revisions }

def Db.minimizeManifests (d : Db) (before : Instant) (limit : Nat) (now : Instant) : Db :=
  { d with
    manifests := updateWhere
      (fun m => ((d.agedManifests before limit).map (·.manifestId)).contains m.manifestId)
      (Manifest.minimize now) d.manifests }

/-- `Maintenance::minimize_before`; the answer is the number of rows. -/
def minimizeBefore (before : Instant) (limit : Nat) : Action MaintenanceError Nat :=
  statement fun m => .change .unavailable (fun d => d.minimizeRevisions before limit m.now)
    fun d => (d.agedRevisions before limit).length

/-- `Maintenance::minimize_manifests_before`. -/
def minimizeManifestsBefore (before : Instant) (limit : Nat) : Action MaintenanceError Nat :=
  statement fun m => .change .unavailable (fun d => d.minimizeManifests before limit m.now)
    fun d => (d.agedManifests before limit).length

/-- most rows one sweep minimizes. -/
def sweepBatch : Nat := 5000

/-- `RetentionSweeper::sweep_once`; the cutoff is `now` less `bodyDays` days. -/
def sweepOnce (bodyDays : Nat) (now : Instant) : Action MaintenanceError (Nat × Nat) := do
  let cutoff := now - 24 * bodyDays * 3600 * second
  let bodies ← minimizeBefore cutoff sweepBatch
  let manifests ← minimizeManifestsBefore cutoff sweepBatch
  return (bodies, manifests)

end ChannelDigests
