import ChannelDigests.Revisions
import ChannelDigests.Manifest

/-!
# Acquisition

`AcquisitionEngine`: one walk reads the pages of one channel newest first, stores the posts inside
the window, withdraws the stored posts that a page proves gone, and leaves a checkpoint after each
page.

* `resume`, `checkpoint`        the lease row that a walk starts from and leaves behind;
* `storePosts`                  the loop over the posts of one page;
* `provedRange`, `withdrawAbsent`  what one page proves;
* `walk`                        the loop over pages, at most `maxPages` of them over all attempts;
* `execute`                     one attempt.
-/

namespace ChannelDigests
open Lib

inductive AcquisitionError where
  | unavailable
  | deferred
  deriving DecidableEq

structure AcquisitionRequest where
  runId : Uuid
  channelId : Uuid
  username : String
  windowStart : Instant
  windowEnd : Instant
  maxPages : Nat
  pageSize : Nat
  deriving DecidableEq

structure AcquisitionReport where
  pages : Nat
  revisions : Nat
  isPartial : Bool
  deriving DecidableEq

/-- `PublicChannelUsername::parse` accepts the text. -/
def publicUsername (s : String) : Bool :=
  decide (5 ≤ s.utf8ByteSize) && decide (s.utf8ByteSize ≤ 32) &&
    (s.toList.head?.any fun c => c.isAlpha) &&
    s.toList.all fun c => c.isLower || c.isDigit || c == '_'

/-! ## Checkpoints -/

/-- the lease of a channel and a run. -/
def Db.lease (d : Db) (channelId runId : Uuid) : Option Lease :=
  d.leases.find? fun l => l.channelId = channelId && l.runId = runId

/-- `insert into leases … on conflict … do update`. -/
def Db.putLease (d : Db) (row : Lease) : Db :=
  { d with
    leases :=
      if (d.lease row.channelId row.runId).isSome then
        updateWhere (fun l => l.channelId = row.channelId && l.runId = row.runId) (fun _ => row)
          d.leases
      else d.leases ++ [row] }

/-- how long a checkpoint holds: five minutes, or a wait of 1 to 3600 whole seconds. -/
def leaseSeconds (wait : Option Nat) : Nat :=
  match wait with
  | none => 300
  | some nanoseconds => max 1 (min 3600 (nanoseconds / 1000000000))

/-- where a walk stands: the cursor, and the pages and revisions so far. -/
structure Cursor where
  before : Option Int
  pages : Nat
  revisions : Nat
  deriving DecidableEq

def checkpointLease (request : AcquisitionRequest) (at_ : Cursor) (state : CheckpointState)
    (wait : Option Nat) (holder : Uuid) (now : Instant) : Lease where
  channelId := request.channelId
  runId := request.runId
  holderId := holder
  acquiredAt := now
  expiresAt := now + leaseSeconds wait * second
  checkpoint :=
    { state, beforeMessageId := at_.before, pages := at_.pages, revisions := at_.revisions }

def checkpoint (request : AcquisitionRequest) (at_ : Cursor) (state : CheckpointState)
    (wait : Option Nat) : Action AcquisitionError Unit :=
  statement fun m =>
    .change .unavailable
      (fun d => d.putLease (checkpointLease request at_ state wait (m.ids 0) m.now)) fun _ => ()

/-- where the stored lease lets a walk start at `now`; an active wait defers it, and a completed
walk has no page left. -/
def resumeFrom (lease : Option Lease) (maxPages : Nat) (now : Instant) :
    Except AcquisitionError Cursor :=
  match lease with
  | none => .ok ⟨none, 0, 0⟩
  | some l =>
    let c := l.checkpoint
    if c.state = .floodWait ∧ now < l.expiresAt then .error .deferred
    else if c.state = .completed then .ok ⟨none, maxPages, c.revisions⟩
    else .ok ⟨c.beforeMessageId, c.pages, c.revisions⟩

def resume (request : AcquisitionRequest) : Action AcquisitionError Cursor := do
  let start ← statement fun m => .read .unavailable fun d =>
    resumeFrom (d.lease request.channelId request.runId) request.maxPages m.now
  Prog.lift start

/-- resolve the channel; a provider wait is stored before the walk is deferred. -/
def resolve (request : AcquisitionRequest) (at_ : Cursor) : Action AcquisitionError Nat := do
  match ← resolvePublicChannel request.username with
  | .ok channel => pure channel
  | .error (.floodWait wait) =>
    checkpoint request at_ .floodWait (some wait)
    Prog.fail .deferred
  | _ => Prog.fail .unavailable

/-! ## One page -/

/-- the post has a text that may be stored. -/
def ProviderPost.storable (post : ProviderPost) : Bool :=
  !(post.deleted || decide (post.body.utf8ByteSize = 0) ||
    decide (maxContentBytes < post.body.utf8ByteSize))

/-- the observation of a post in a walk. -/
def observation (request : AcquisitionRequest) (post : ProviderPost) (published : Instant) :
    ObservedRevision where
  channelId := request.channelId
  messageId := post.messageId
  body := post.body
  canonicalLink := publicLink request.username post.messageId
  publishedAt := published
  observedAt := request.windowEnd

/-- what a page left: the texts seen in this walk, how many were stored, and whether a post was
older than the window. -/
structure Stored where
  seen : List (Int × Digest)
  count : Nat
  reachedStart : Bool

variable (C : Contracts)

/-- `store_page`: the loop over the posts of a page. -/
def storePosts (request : AcquisitionRequest) :
    List ProviderPost → Stored → Action AcquisitionError Stored
  | [], st => pure st
  | post :: posts, st =>
    if !post.storable then storePosts request posts st
    else
      match post.publishedAt with
      | none => Prog.fail .unavailable
      | some published =>
        if published < request.windowStart then
          storePosts request posts { st with reachedStart := true }
        else if request.windowEnd ≤ published then storePosts request posts st
        else
          let key := (post.messageId, C.textDigest post.body)
          if st.seen.contains key then storePosts request posts st
          else do
            append C .unavailable (observation request post published)
            storePosts request posts { st with seen := key :: st.seen, count := st.count + 1 }

/-- `proved_range`: down to the lowest id of the page, or to the start of the channel when the
page has no next cursor. -/
def provedRange (page : ProviderPage) (requested : Option Int) : Option ProvedIdRange :=
  match page.nextBeforeMessageId with
  | none => some ⟨none, requested⟩
  | some _ =>
    match (page.posts.map (·.messageId)).min? with
    | none => none
    | some lowest => some ⟨some lowest, requested⟩

/-- the ids of the posts that the page shows as present, and as deleted. -/
def ProviderPage.present (page : ProviderPage) : List Int :=
  (page.posts.filter fun p => !p.deleted).map (·.messageId)

def ProviderPage.deleted (page : ProviderPage) : List Int :=
  (page.posts.filter (·.deleted)).map (·.messageId)

/-- `withdraw_absent`. -/
def withdrawAbsent (channelId : Uuid) (requested : Option Int) (page : ProviderPage) :
    Action AcquisitionError Unit :=
  match provedRange page requested with
  | none => pure ()
  | some proved => withdrawMissing .unavailable channelId proved page.present page.deleted

/-! ## The walk -/

/-- the report of a walk that read what it could. -/
def finish (request : AcquisitionRequest) (at_ : Cursor) :
    Action AcquisitionError AcquisitionReport := do
  let isPartial := at_.before.isSome
  checkpoint request at_ (if isPartial then .pageLimit else .completed) none
  return ⟨at_.pages, at_.revisions, isPartial⟩

/-- `while pages < max_pages`: the first argument is the number of pages still allowed. -/
def walk (request : AcquisitionRequest) (channel : Nat) :
    Nat → Cursor → List (Int × Digest) → Action AcquisitionError AcquisitionReport
  | 0, at_, _ => finish request at_
  | n + 1, at_, seen => do
    match ← fetchPublicPosts channel at_.before (min request.pageSize 100) with
    | .error (.floodWait wait) =>
      checkpoint request at_ .floodWait (some wait)
      Prog.fail .deferred
    | .ok page =>
      let st ← storePosts C request page.posts ⟨seen, 0, false⟩
      withdrawAbsent request.channelId at_.before page
      -- Ids rise with time, so a post older than the window proves every later one older.
      let before := if st.reachedStart then none else page.nextBeforeMessageId
      let at_ : Cursor := ⟨before, at_.pages + 1, at_.revisions + st.count⟩
      checkpoint request at_ .pageCommitted none
      if before.isNone then finish request at_
      else walk request channel n at_ st.seen
    | _ =>
      if 0 < at_.pages then
        checkpoint request at_ .providerUnavailable none
        return ⟨at_.pages, at_.revisions, true⟩
      else Prog.fail .unavailable

/-- `AcquisitionEngine::execute`. -/
def execute (request : AcquisitionRequest) : Action AcquisitionError AcquisitionReport := do
  let at_ ← resume request
  if !publicUsername request.username then Prog.fail .unavailable
  else
    let channel ← resolve request at_
    walk C request channel (request.maxPages - at_.pages) at_ []

end ChannelDigests
