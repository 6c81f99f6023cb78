import ChannelDigests.DisguisedStatements
import ChannelDigests.Building

/-!
# The bus does not see the posts

Two histories of the worker in which corresponding posts are shown and corresponding facts arrive.
Each task asks alike in both and leaves databases that resemble each other.

* `Disguise.likeness`    which questions and answers correspond;
* `Disguise.TaskLike`    which tasks correspond;
* `intake_like`, `coordinator_like`, `walk_like`, `tick_like`, `publishOutbox_like`   the programs;
* `posts_unseen`         **post text reaches the bus only through manifest digests**.
-/

namespace ChannelDigests
open Lib Prog

/-! ## What corresponds -/

/-- the envelopes are equal, except for the manifest digest of a recap request. -/
def EnvelopeLike (m m' : OutboundMessage) : Prop :=
  ∃ payload, PayloadLike m.payload payload ∧ m' = { m with payload := payload }

/-- both replies are errors, the same ones, or corresponding values. -/
inductive Reply.Like {α : Type} (V : α → α → Prop) : Reply α → Reply α → Prop where
  | ok {a a'} : V a a' → Reply.Like V (.ok a) (.ok a')
  | error (e : ProviderError) : Reply.Like V (.error e) (.error e)
  | elapsed : Reply.Like V .elapsed .elapsed

/-- the request for a manifest of this digest. -/
def RecapRequested.withDigest (r : RecapRequested) (digest : Digest) : RecapRequested :=
  { r with manifestDigest := digest }

/-- the envelope of a recap request. -/
def OutboxMessage.recapEnvelope (row : OutboxMessage) (r : RecapRequested) : OutboundMessage :=
  row.envelope "cmd.knowledge.channel_digest_recap.requested.v1" (.run r.digestRunId)
    (.operation r.operationId)

theorem wrap_recapRequest {C : Contracts} {row : OutboxMessage} {runId : Uuid} {r : RecapRequested}
    (hkey : row.key = .recapRequest runId) (hpay : row.payload = .recapRequest r) :
    wrapOutboxRow C row =
      if (C.recapRequest.validForPublish r && (row.recapEnvelope r).writable C) = true then
        some (row.recapEnvelope r)
      else none := by
  rw [wrapOutboxRow, hkey, hpay]
  rfl

namespace Disguise
variable {C : Contracts} (D : Disguise C)

/-- two posts of corresponding texts. -/
def PostLike (p p' : ProviderPost) : Prop := ∃ body, D.text p.body body ∧ p' = { p with body := body }

/-- two pages of corresponding posts. -/
def PageLike (page page' : ProviderPage) : Prop :=
  ∃ posts, List.Forall₂ D.PostLike page.posts posts ∧ page' = { page with posts := posts }

/-- the questions are equal, except for the manifest digest in an envelope. -/
def Asks : Question → Question → Prop
  | .moment, .moment => True
  | .resolve username, .resolve username' => username' = username
  | .fetch channel before limit, .fetch channel' before' limit' =>
    channel' = channel ∧ before' = before ∧ limit' = limit
  | .publish m, .publish m' => EnvelopeLike m m'
  | _, _ => False

/-- the answers are equal, except for the texts of the posts on a page. -/
def Answers : (q q' : Question) → q.Answer → q'.Answer → Prop
  | .moment, .moment, m, m' => m' = m
  | .resolve _, .resolve _, r, r' => r' = r
  | .fetch _ _ _, .fetch _ _ _, r, r' => Reply.Like D.PageLike r r'
  | .publish _, .publish _, a, a' => a' = a
  | _, _, _, _ => False

/-- what corresponds in the two histories. -/
def likeness : Likeness service where
  state := D.Resembles
  ask := Asks
  answer := D.Answers

/-- two completions of corresponding manifests and recaps. -/
def CompletedLike (f f' : RecapCompleted) : Prop :=
  ∃ digest recap, D.NamedDigest f.manifestDigest digest ∧ D.recap f.resultDigest recap ∧
    f' = { f with
      manifestDigest := digest
      resultDigest := recap }

/-- two failures of corresponding manifests. -/
def FailedLike (f f' : RecapFailed) : Prop :=
  ∃ digest, D.NamedDigest f.manifestDigest digest ∧ f' = { f with manifestDigest := digest }

/-- two envelopes of corresponding payloads. -/
def EventLike (R : C.Object → C.Object → Prop) (e e' : EventEnvelope C.Object) : Prop :=
  ∃ payload, R e.payload payload ∧ e' = { e with payload := payload }

/-- two deliveries: commands are equal, and facts correspond. -/
def PacketLike (transport : String) (bytes bytes' : C.Bytes) : Prop :=
  match Subject.ofTransport transport with
  | some .completed => Option.Rel (EventLike fun o o' =>
      Option.Rel D.CompletedLike (C.completed.payloadAs o) (C.completed.payloadAs o'))
      (C.eventEnvelope bytes) (C.eventEnvelope bytes')
  | some .failed => Option.Rel (EventLike fun o o' =>
      Option.Rel D.FailedLike (C.failed.payloadAs o) (C.failed.payloadAs o'))
      (C.eventEnvelope bytes) (C.eventEnvelope bytes')
  | _ => bytes' = bytes

/-- two tasks: the same, or deliveries that correspond. -/
inductive TaskLike : Task C → Task C → Prop where
  | deliver {bytes bytes'} (calm : Bool) (transport : String) :
      D.PacketLike transport bytes bytes' →
      TaskLike (.deliver calm transport bytes) (.deliver calm transport bytes')
  | acceptSubscription (messageId : Uuid) (payload : C.Bytes) :
      TaskLike (.acceptSubscription messageId payload) (.acceptSubscription messageId payload)
  | acceptRun (messageId : Uuid) (payload : C.Bytes) :
      TaskLike (.acceptRun messageId payload) (.acceptRun messageId payload)
  | acceptOccurrence (o : OccurrenceRequest) : TaskLike (.acceptOccurrence o) (.acceptOccurrence o)
  | settleCompletion {bytes bytes'} (messageId : Uuid) :
      Option.Rel D.CompletedLike (C.completed.fromSlice bytes) (C.completed.fromSlice bytes') →
      TaskLike (.settleCompletion messageId bytes) (.settleCompletion messageId bytes')
  | settleFailure {bytes bytes'} (messageId : Uuid) :
      Option.Rel D.FailedLike (C.failed.fromSlice bytes) (C.failed.fromSlice bytes') →
      TaskLike (.settleFailure messageId bytes) (.settleFailure messageId bytes')
  | executeOne (sourceCount : Nat) : TaskLike (.executeOne sourceCount) (.executeOne sourceCount)
  | reapOnce (deadline : Int) (now : Instant) :
      TaskLike (.reapOnce deadline now) (.reapOnce deadline now)
  | sweepOnce (bodyDays : Nat) (now : Instant) :
      TaskLike (.sweepOnce bodyDays now) (.sweepOnce bodyDays now)
  | publishOutbox : TaskLike .publishOutbox .publishOutbox
  | register (schedule : Option ScheduleConfig) : TaskLike (.register schedule) (.register schedule)

variable {D}

/-! ## Transactions -/

section
variable {ε α : Type} {V : α → α → Prop}

theorem transaction_like {t t' : Moment → Sql ε (Fate α)}
    (h : ∀ m d d', D.Resembles d d' → (t m).Abreast (Fates D.Resembles V) (t' m) d d') :
    (transaction t).Twin D.likeness (Likewise V) (transaction t') := by
  refine ⟨trivial, fun m m' hm => ?_⟩
  obtain rfl : m' = m := hm
  exact twin_transact (L := D.likeness) fun d d' => h m' d d'

theorem statement_like {t t' : Moment → Sql ε α}
    (h : ∀ m d d', D.Resembles d d' → (t m).Abreast (Paired D.Resembles V) (t' m) d d') :
    (statement t).Twin D.likeness (Likewise V) (statement t') :=
  transaction_like fun m d d' hd => alike_seq (h m d d' hd) fun _ _ _ _ h hv => ⟨h, hv⟩

end

/-! ## Intake -/

theorem rejectTx_like (r : Rejection) (m : Moment) {d d' : Db} (h : D.Resembles d d') :
    (rejectTx C r m).Abreast (Fates D.Resembles Eq) (rejectTx C r m) d d' := by
  refine alike_seq (V := Eq) (alike_mark h) fun _ _ _ _ h _ => ?_
  refine alike_seq (insertInbox_like h ⟨_, rfl⟩) fun inserted _ _ _ h he => ?_
  subst he
  cases inserted with
  | false => exact fates_rollback rfl
  | true => exact alike_seq (enqueue_like h _ _ _) fun _ _ _ _ h _ => fates_commit h rfl

theorem reject_like (r : Rejection) :
    (reject C r).Twin D.likeness (Likewise Eq) (reject C r) :=
  transaction_like fun m _ _ => rejectTx_like r m

/-- what `set_subscription` answers in two databases. -/
def SetLike : SetSubscription → SetSubscription → Prop
  | .violation, .violation => True
  | .limit, .limit => True
  | .row s d, .row s' d' => s' = s ∧ D.Resembles d d'
  | _, _ => False

theorem withChannel_like {d d' : Db} (h : D.Resembles d d') (channelId : Uuid) (username : String) :
    Option.Rel (fun x x' : Uuid × Db => x'.1 = x.1 ∧ D.Resembles x.2 x'.2)
      (d.withChannel channelId username) (d'.withChannel channelId username) := by
  obtain ⟨hr, hm, hx, hi, ho⟩ := h
  unfold Db.withChannel Db.channelOf
  dsimp only
  cases d.channels.find? fun c => c.username = username with
  | some c => exact .some ⟨rfl, hr, hm, hx, hi, ho⟩
  | none =>
    dsimp only
    split_ifs
    · exact .none
    · exact .some ⟨rfl, hr, hm, hx, hi, ho⟩

theorem setSubscription_like {d d' : Db} (h : D.Resembles d d')
    (subscriptionId channelId ownerId : Uuid) (username : String) (enabled : Bool) (now : Instant) :
    SetLike (D := D) (d.setSubscription subscriptionId channelId ownerId username enabled now)
      (d'.setSubscription subscriptionId channelId ownerId username enabled now) := by
  have hchannel := withChannel_like h channelId (lower username)
  unfold Db.setSubscription
  generalize d.withChannel channelId (lower username) = x at hchannel ⊢
  generalize d'.withChannel channelId (lower username) = x' at hchannel ⊢
  cases hchannel with
  | none => trivial
  | @some y y' hy =>
    obtain ⟨selected, e⟩ := y
    obtain ⟨selected', e'⟩ := y'
    obtain ⟨h1, hr, hm, hx, hi, ho⟩ := hy
    dsimp only at h1
    subst h1
    unfold Db.subscriptionOf Db.activeCount
    dsimp only
    cases e.subscriptions.find? fun s => s.ownerId = ownerId && s.channelId = selected' with
    | some existing =>
      dsimp only
      split_ifs
      · trivial
      · exact ⟨rfl, hr, hm, hx, hi, ho⟩
    | none =>
      dsimp only
      split_ifs
      · trivial
      · trivial
      · exact ⟨rfl, hr, hm, hx, hi, ho⟩

theorem subscriptionTx_like (command : SubscriptionSetRequested) (messageId : Uuid) (sha : Digest)
    (m : Moment) {d d' : Db} (h : D.Resembles d d') :
    (subscriptionTx C command messageId sha m).Abreast (Fates D.Resembles Eq)
      (subscriptionTx C command messageId sha m) d d' := by
  refine alike_seq (V := Eq) (alike_mark h) fun _ _ _ _ h _ => ?_
  refine alike_seq (insertInbox_like h ⟨_, rfl⟩) fun inserted _ d d' h he => ?_
  subst he
  cases inserted with
  | false => exact fates_rollback rfl
  | true =>
    have hset := setSubscription_like h (m.ids 0) (m.ids 1) command.owner command.channelUsername
      command.active m.now
    refine alike_seq (I := D.Resembles) (V := Eq) (alike_attempt ?_) fun row _ _ _ h he => ?_
    · generalize d.setSubscription (m.ids 0) (m.ids 1) command.owner command.channelUsername
        command.active m.now = x at hset ⊢
      generalize d'.setSubscription (m.ids 0) (m.ids 1) command.owner command.channelUsername
        command.active m.now = x' at hset ⊢
      cases x <;> cases x' <;> first | exact absurd hset id | skip
      · rfl
      · exact ⟨h, rfl⟩
      · exact ⟨hset.2, congrArg some hset.1.symm⟩
    · subst he
      cases row with
      | none => exact fates_rollback rfl
      | some _ =>
        exact alike_seq (enqueue_like h _ _ _) fun _ _ _ _ h _ =>
          alike_seq (completeInbox_like h _ _) fun _ _ _ _ h _ => fates_commit h rfl

theorem acceptSubscription_like (messageId : Uuid) (payload : C.Bytes) :
    (acceptSubscription C messageId payload).Twin D.likeness (Likewise Eq)
      (acceptSubscription C messageId payload) := by
  unfold acceptSubscription
  cases C.subscription.fromSlice payload with
  | none => exact twin_fail _
  | some command =>
    dsimp only
    split_ifs
    · exact reject_like _
    · refine twin_seq (transaction_like fun m _ _ => subscriptionTx_like command messageId _ m)
        fun verdict _ he => ?_
      subst he
      cases verdict with
      | outcome o => exact twin_pure rfl
      | refused => exact reject_like _

theorem createDigestRun_like {d d' : Db} (h : D.Resembles d d') (run : Run) :
    (createDigestRun run).Abreast (Paired D.Resembles Eq) (createDigestRun run) d d' := by
  have hinsert := insertRun_like h run
  refine alike_attempt ?_
  generalize d.insertRun run = x at hinsert ⊢
  generalize d'.insertRun run = x' at hinsert ⊢
  cases hinsert with
  | none => rfl
  | @some y y' hy =>
    obtain ⟨b, e⟩ := y
    obtain ⟨b', e'⟩ := y'
    obtain ⟨h1, h2⟩ := hy
    dsimp only at h1 h2
    subst h1
    cases b' with
    | true => exact ⟨h2, rfl⟩
    | false => exact ⟨h2, by rw [h2.runs]⟩

theorem runTx_like (command : RunRequested) (messageId : Uuid) (sha : Digest) (m : Moment)
    {d d' : Db} (h : D.Resembles d d') : (runTx C command messageId sha m).Abreast
      (Fates D.Resembles Eq) (runTx C command messageId sha m) d d' := by
  refine alike_seq (V := Eq) (alike_mark h) fun _ _ _ _ h _ => ?_
  refine alike_seq (insertInbox_like h ⟨_, rfl⟩) fun inserted _ d d' h he => ?_
  subst he
  cases inserted with
  | false => exact fates_rollback rfl
  | true =>
    refine alike_seq (createDigestRun_like h _) fun selected _ d d' h he => ?_
    subst he
    split_ifs
    · exact fates_rollback rfl
    · refine alike_seq (I := D.Resembles) (V := Eq) (alike_change ?_ rfl) fun _ _ d d' h _ => ?_
      · rw [h.runs]
        exact h.setRuns _
      refine alike_seq (V := Eq) ?_ fun _ _ _ _ h _ =>
        alike_seq (completeInbox_like h _ _) fun _ _ _ _ h _ => fates_commit h rfl
      unfold reportQueued
      split_ifs
      · exact enqueue_like h _ _ _
      · exact alike_pure h rfl

theorem acceptRun_like (messageId : Uuid) (payload : C.Bytes) :
    (acceptRun C messageId payload).Twin D.likeness (Likewise Eq) (acceptRun C messageId payload) := by
  unfold acceptRun
  cases C.run.fromSlice payload with
  | none => exact twin_fail _
  | some command =>
    dsimp only
    split_ifs
    · exact reject_like _
    · refine twin_seq (transaction_like fun m _ _ => runTx_like command messageId _ m)
        fun verdict _ he => ?_
      subst he
      cases verdict with
      | outcome o => exact twin_pure rfl
      | refused => exact reject_like _

theorem rejectUnreadable_like (messageId : Uuid) (kind : CommandKind) (tenant : Uuid)
    (payload : C.Object) : (rejectUnreadable C messageId kind tenant payload).Twin D.likeness
      (Likewise Eq) (rejectUnreadable C messageId kind tenant payload) := by
  unfold rejectUnreadable
  split
  · split_ifs
    · exact twin_fail _
    · split
      · exact twin_fail _
      · exact reject_like _
  · exact twin_fail _

/-! ## Occurrences -/

theorem fanOutOwners_like (o : OccurrenceRequest) (subscriptions : List Subscription) (m : Moment)
    (owners : List Uuid) (n : Nat) {d d' : Db} (h : D.Resembles d d') :
    (fanOutOwners o subscriptions m owners n).Abreast (Paired D.Resembles Eq)
      (fanOutOwners o subscriptions m owners n) d d' := by
  induction owners generalizing n d d' with
  | nil => exact alike_pure h rfl
  | cons ownerId owners ih =>
    refine alike_seq (V := Eq) (alike_mark h) fun _ _ d d' h _ => ?_
    refine alike_seq (V := Eq) (guarded_like ?_) fun _ _ _ _ h _ => ih _ h
    have hinsert := insertRun_like h (o.run subscriptions (m.ids n) ownerId m.now)
    generalize d.insertRun _ = x at hinsert ⊢
    generalize d'.insertRun _ = x' at hinsert ⊢
    cases hinsert with
    | none => exact .none
    | some hy => exact .some hy.2

theorem fanOut_like (o : OccurrenceRequest) (m : Moment) {d d' : Db} (h : D.Resembles d d') :
    (fanOut o m).Abreast (Paired D.Resembles Eq) (fanOut o m) d d' := by
  refine alike_seq (V := Eq) (alike_read h ?_) fun subscriptions _ _ _ h he => ?_
  · cases h
    rfl
  · subst he
    exact fanOutOwners_like o _ m _ 1 h

theorem occurrenceTx_like (o : OccurrenceRequest) (m : Moment) {d d' : Db} (h : D.Resembles d d') :
    (occurrenceTx C o m).Abreast (Fates D.Resembles Eq) (occurrenceTx C o m) d d' := by
  refine alike_seq (V := Eq) (alike_mark h) fun _ _ _ _ h _ => ?_
  refine alike_seq (insertInbox_like h ⟨_, rfl⟩) fun inserted _ d d' h he => ?_
  subst he
  cases inserted with
  | false => exact fates_rollback rfl
  | true =>
    refine alike_seq (fanOut_like o m h) fun _ _ _ _ h _ =>
      alike_seq (enqueue_like h _ _ _) fun _ _ _ _ h _ =>
        alike_seq (completeInbox_like h _ _) fun _ _ _ _ h _ => fates_commit h rfl

theorem acceptOccurrence_like (o : OccurrenceRequest) :
    (acceptOccurrence C o).Twin D.likeness (Likewise Eq) (acceptOccurrence C o) := by
  unfold acceptOccurrence
  split_ifs
  · exact twin_fail _
  · exact transaction_like fun m _ _ => occurrenceTx_like o m

/-! ## Runs that end without a recap -/

theorem beginAcquisitionTx_like (run : PendingRun) (m : Moment) {d d' : Db} (h : D.Resembles d d') :
    (beginAcquisitionTx C run m).Abreast (Fates D.Resembles Eq) (beginAcquisitionTx C run m) d d' := by
  refine alike_seq (V := Eq) (alike_mark h) fun _ _ _ _ h _ => ?_
  refine alike_seq (updateRuns_like h _ _) fun changed _ _ _ h he => ?_
  subst he
  split_ifs
  · exact fates_drop rfl
  · exact alike_seq (reportOwned_like h _ _ _ _ _) fun _ _ _ _ h _ => fates_commit h rfl

theorem completeEmptyRunTx_like (runId ownerId : Uuid) (m : Moment) {d d' : Db}
    (h : D.Resembles d d') : (completeEmptyRunTx C runId ownerId m).Abreast (Fates D.Resembles Eq)
      (completeEmptyRunTx C runId ownerId m) d d' := by
  refine alike_seq (V := Eq) (alike_mark h) fun _ _ _ _ h _ => ?_
  refine alike_seq (updateRuns_like h _ _) fun changed _ _ _ h he => ?_
  subst he
  split_ifs
  · exact abreast_throw _
  · exact alike_seq (reportOwned_like h _ _ _ _ _) fun _ _ _ _ h _ => fates_commit h rfl

theorem failRunTx_like (runId ownerId : Uuid) (failure : RunFailure) (m : Moment) {d d' : Db}
    (h : D.Resembles d d') : (failRunTx C runId ownerId failure m).Abreast (Fates D.Resembles Eq)
      (failRunTx C runId ownerId failure m) d d' := by
  refine alike_seq (V := Eq) (alike_mark h) fun _ _ _ _ h _ => ?_
  refine alike_seq (updateRuns_like h _ _) fun changed _ _ _ h he => ?_
  subst he
  split_ifs
  · exact abreast_throw _
  · exact alike_seq (reportOwned_like h _ _ _ _ _) fun _ _ _ _ h _ => fates_commit h rfl

theorem failWith_like (run : PendingRun) (failure : RunFailure) :
    (failWith C run failure).Twin D.likeness (Likewise Eq) (failWith C run failure) :=
  twin_mapError (transaction_like fun m _ _ => failRunTx_like run.runId run.ownerId failure m)

/-! ## Manifests -/

/-- the manifest that is stored and the one that is built agree alike. -/
theorem existing_like (hC : D.CollisionFree) {o o' : Option Manifest}
    (ho : Option.Rel D.ManifestLike o o') (manifestId ownerId : Uuid) {sha sha' : Digest}
    (hsha : D.ManifestDigest sha sha') :
    o.map (fun r => (r.manifestId, r.ownerId, r.sha256)) = some (manifestId, ownerId, sha) ↔
      o'.map (fun r => (r.manifestId, r.ownerId, r.sha256)) = some (manifestId, ownerId, sha') := by
  cases ho with
  | none => exact iff_of_false nofun nofun
  | some hm =>
    obtain ⟨digest, _, hdigest, -, rfl⟩ := hm
    simp only [Option.map_some, Option.some.injEq, Prod.mk.injEq, hdigest.same hC (.inl hsha)]

theorem commitManifestTx_like (hC : D.CollisionFree)
    {manifest manifest' : CanonicalManifest} (hm : D.CanonicalLike manifest manifest')
    (request : RecapRequested) (digest : Digest) (m : Moment) {d d' : Db} (h : D.Resembles d d') :
    (commitManifestTx manifest request m).Abreast (Fates D.Resembles Eq)
      (commitManifestTx manifest' (request.withDigest digest) m) d d' := by
  obtain ⟨text, sha, hsha, rfl⟩ := hm
  have hrow : D.ManifestLike (manifest.row m.now)
      (CanonicalManifest.row
        { manifest with
          text := text
          sha256 := sha } m.now) := ⟨sha, some text, hsha, rfl, rfl⟩
  refine alike_seq (V := Eq) (alike_mark h) fun _ _ _ _ h _ => ?_
  refine alike_seq (V := Eq) (alike_check h) fun _ _ _ _ h _ => ?_
  refine alike_seq (insertManifest_like h hrow) fun inserted _ d d' h he => ?_
  subst he
  cases inserted with
  | false =>
    refine alike_seq (alike_read h (h.findManifest _ fun _ _ _ => rfl)) fun o o' _ _ h ho => ?_
    refine alike_seq (V := Eq) (alike_mark h) fun _ _ _ _ h _ => ?_
    have hiff := existing_like hC ho manifest.manifestId manifest.ownerId hsha
    by_cases he : o.map (fun r => (r.manifestId, r.ownerId, r.sha256)) =
        some (manifest.manifestId, manifest.ownerId, manifest.sha256)
    · rw [if_pos he, if_pos (hiff.mp he)]
      exact fates_drop rfl
    · rw [if_neg he, if_neg fun h => he (hiff.mpr h)]
      exact abreast_throw _
  | true =>
    refine alike_seq (insertManifestSources_like h _) fun _ _ _ _ h _ => ?_
    refine alike_seq (insertOutbox_like h ⟨_, .request request digest, rfl⟩) fun _ _ _ _ h _ => ?_
    refine alike_seq (updateRuns_like h _ _) fun changed _ _ _ h he => ?_
    subst he
    split_ifs
    · exact abreast_throw _
    · exact fates_commit h rfl

/-- **A manifest and its recap request are committed alike.** -/
theorem commitManifest_like (hC : D.CollisionFree) (hB : Blind C) (run : PendingRun)
    {manifest manifest' : CanonicalManifest} (hm : D.CanonicalLike manifest manifest')
    {bytes bytes' : C.Bytes} (hb : C.recapRequest.toVec (recapRequest run manifest) = some bytes)
    (hb' : C.recapRequest.toVec (recapRequest run manifest') = some bytes') :
    (commitManifest C manifest bytes).Twin D.likeness (Likewise Eq)
      (commitManifest C manifest' bytes') := by
  have hrequest : recapRequest run manifest' =
      (recapRequest run manifest).withDigest manifest'.sha256 := by
    obtain ⟨text, sha, -, rfl⟩ := hm
    rfl
  have hvalid : C.recapRequest.validForPublish (recapRequest run manifest') =
      C.recapRequest.validForPublish (recapRequest run manifest) := by
    rw [hrequest]
    exact hB.request _ _
  have hannounces : (recapRequest run manifest').announces manifest' =
      (recapRequest run manifest).announces manifest := by
    obtain ⟨text, sha, -, rfl⟩ := hm
    simp [RecapRequested.announces, recapRequest]
    rfl
  have hchecked : Likewise (fun r r' => r' = r.withDigest manifest'.sha256)
      (checkedRecapRequest C manifest bytes) (checkedRecapRequest C manifest' bytes') := by
    unfold checkedRecapRequest
    rw [C.recapRequest.roundTrip hb, C.recapRequest.roundTrip hb']
    dsimp only
    rw [hannounces, hvalid]
    split_ifs
    · rfl
    · exact hrequest
    · rfl
  refine twin_seq (twin_lift hchecked) fun request request' he => ?_
  subst he
  exact transaction_like fun m _ _ => commitManifestTx_like hC hm request _ m

/-! ## Knowledge facts -/

theorem readDb_like {α : Type} {V : α → α → Prop} {g : Db → α}
    (h : ∀ d d', D.Resembles d d' → V (g d) (g d')) :
    (readDb g).Twin D.likeness (Likewise V) (readDb g) :=
  statement_like fun _ d d' hd => alike_read hd (h d d' hd)

theorem matches_like (hC : D.CollisionFree) {fact fact' : RecapCompleted}
    (hf : D.CompletedLike fact fact') {x x' : DigestResult × Digest} (hx : D.ResultLike x.1 x'.1)
    (hdigest : D.ManifestDigest x.2 x'.2) (analysisId : Uuid) (outcome : Outcome) :
    fact.matches analysisId outcome x = fact'.matches analysisId outcome x' := by
  obtain ⟨x, a⟩ := x
  obtain ⟨x', a'⟩ := x'
  obtain ⟨digest, recap, hnamed, hrecap, rfl⟩ := hf
  obtain ⟨y, hy, hx⟩ := hx
  dsimp only at hy hx hdigest
  subst hx
  have hsame : x.resultDigest = some fact.resultDigest ↔ y = some recap := by
    generalize x.resultDigest = o at hy
    cases hy with
    | none => exact iff_of_false nofun nofun
    | some hb => simp only [Option.some.injEq, D.recapSame hb hrecap]
  unfold RecapCompleted.matches
  simp only [hdigest.same hC hnamed, hsame]

theorem consistent_like (hC : D.CollisionFree) {fact fact' : RecapCompleted}
    (hf : D.CompletedLike fact fact') {x x' : Run × Manifest} (hr : x'.1 = x.1)
    (hm : D.ManifestLike x.2 x'.2) : fact.consistent x = fact'.consistent x' := by
  obtain ⟨x, a⟩ := x
  obtain ⟨x', a'⟩ := x'
  obtain ⟨digest, recap, hnamed, -, rfl⟩ := hf
  obtain ⟨sha, text, hsha, -, rfl⟩ := hm
  dsimp only at hr hsha
  subst hr
  have hsame := hsha.same hC hnamed
  unfold RecapCompleted.consistent
  simp only [eq_comm (a := fact.manifestDigest), eq_comm (a := digest), hsame]

theorem settleCompletionTx_like {fact fact' : RecapCompleted} (hf : D.CompletedLike fact fact')
    (analysisId messageId : Uuid) (sha sha' : Digest) (incomplete : Bool) (m : Moment) {d d' : Db}
    (h : D.Resembles d d') :
    (settleCompletionTx C fact analysisId messageId sha incomplete m).Abreast (Fates D.Resembles Eq)
      (settleCompletionTx C fact' analysisId messageId sha' incomplete m) d d' := by
  obtain ⟨digest, recap, -, hrecap, rfl⟩ := hf
  refine alike_seq (V := Eq) (alike_mark h) fun _ _ _ _ h _ => ?_
  refine alike_seq (insertInbox_like h ⟨sha', rfl⟩) fun inserted _ d d' h he => ?_
  subst he
  cases inserted with
  | false => exact fates_rollback rfl
  | true =>
    have hjoined : Option.Rel (fun x x' : Run × Manifest => x'.1 = x.1 ∧ D.ManifestLike x.2 x'.2)
        ((d.ownRun fact.digestRunId fact.owner).bind fun r =>
          (d.manifestOf r.runId).map fun mf => (r, mf))
        ((d'.ownRun fact.digestRunId fact.owner).bind fun r =>
          (d'.manifestOf r.runId).map fun mf => (r, mf)) := by
      unfold Db.ownRun
      rw [h.runs]
      cases d.runs.find? fun r => r.runId = fact.digestRunId && r.ownerId = fact.owner with
      | none => exact .none
      | some r =>
        have hm := h.findManifest (fun m => m.runId = r.runId) fun _ _ _ => rfl
        show Option.Rel _ ((d.manifestOf r.runId).map _) ((d'.manifestOf r.runId).map _)
        unfold Db.manifestOf
        generalize d.manifests.find? _ = o at hm ⊢
        generalize d'.manifests.find? _ = o' at hm ⊢
        cases hm with
        | none => exact .none
        | some hm => exact .some ⟨rfl, hm⟩
    refine alike_seq (alike_read h hjoined) fun x x' _ _ h hx => ?_
    cases hx with
    | none => exact abreast_throw _
    | @some y y' hy =>
      obtain ⟨r, mf⟩ := y
      obtain ⟨r', mf'⟩ := y'
      obtain ⟨hr, sha, text, -, -, hmf⟩ := hy
      dsimp only at hr hmf
      subst hr hmf
      refine alike_seq (insertResult_like h ⟨some recap, .some hrecap, rfl⟩) fun _ _ _ _ h _ => ?_
      refine alike_seq (updateRuns_like h _ _) fun changed _ _ _ h he => ?_
      subst he
      split_ifs
      · exact abreast_throw _
      · exact alike_seq (reportOwned_like h _ _ _ _ _) fun _ _ _ _ h _ =>
          alike_seq (completeInbox_like h _ _) fun _ _ _ _ h _ => fates_commit h rfl

/-- **Corresponding completions are settled alike.** -/
theorem settleCompletion_like (hC : D.CollisionFree) (hB : Blind C) (messageId : Uuid)
    {bytes bytes' : C.Bytes}
    (h : Option.Rel D.CompletedLike (C.completed.fromSlice bytes) (C.completed.fromSlice bytes')) :
    (settleCompletion C messageId bytes).Twin D.likeness (Likewise Eq)
      (settleCompletion C messageId bytes') := by
  unfold settleCompletion
  generalize C.completed.fromSlice bytes = x at h ⊢
  generalize C.completed.fromSlice bytes' = x' at h ⊢
  cases h with
  | none => exact twin_fail _
  | @some fact fact' hf =>
    have hlike := hf
    obtain ⟨digest, recap, hnamed, hrecap, rfl⟩ := hf
    dsimp only
    rw [hB.completed fact digest recap]
    split_ifs
    · exact twin_fail _
    generalize fact.analysisRef = reference at hlike ⊢
    cases reference with
    | none => exact twin_fail _
    | some analysisId =>
      refine twin_seq (readDb_like (V := Eq) fun d d' hd => ?_) fun incomplete _ he => ?_
      · unfold Db.incompleteFlag Db.ownRun
        rw [hd.runs]
      subst he
      refine twin_seq (readDb_like fun d d' hd => resultEvidence_like hd _) fun o o' ho => ?_
      cases ho with
      | @some y y' hy =>
        have hmatches := matches_like hC hlike hy.1 hy.2 analysisId
          (completionOutcome fact.omittedCount incomplete)
        dsimp only
        have hnull : y'.1.recapId = y.1.recapId ∧
            y'.1.resultDigest.isNone = y.1.resultDigest.isNone := by
          obtain ⟨z, hz, he⟩ := hy.1
          rw [he]
          generalize y.1.resultDigest = o at hz ⊢
          cases hz <;> exact ⟨rfl, rfl⟩
        rw [hmatches, hnull.1, hnull.2]
        split_ifs
        · exact twin_fail _
        · exact twin_pure rfl
        · exact twin_fail _
      | none =>
        refine twin_seq (readDb_like fun d d' hd => durable_like hd _ _) fun o o' ho => ?_
        cases ho with
        | none => exact twin_fail _
        | @some y y' hy =>
          dsimp only
          rw [consistent_like hC hlike hy.1 hy.2]
          split_ifs
          · exact twin_fail _
          · exact transaction_like fun m _ _ => settleCompletionTx_like hlike _ _ _ _ _ m

theorem settleFailureTx_like {fact fact' : RecapFailed} (hf : D.FailedLike fact fact')
    (manifestId messageId : Uuid) (sha sha' : Digest) (m : Moment) {d d' : Db}
    (h : D.Resembles d d') :
    (settleFailureTx C fact manifestId messageId sha m).Abreast (Fates D.Resembles Eq)
      (settleFailureTx C fact' manifestId messageId sha' m) d d' := by
  obtain ⟨digest, -, rfl⟩ := hf
  refine alike_seq (V := Eq) (alike_mark h) fun _ _ _ _ h _ => ?_
  refine alike_seq (insertInbox_like h ⟨sha', rfl⟩) fun inserted _ d d' h he => ?_
  subst he
  cases inserted with
  | false => exact fates_rollback rfl
  | true =>
    refine alike_seq (insertResult_like h ⟨none, .none, rfl⟩) fun _ _ _ _ h _ => ?_
    refine alike_seq (updateRuns_like h _ _) fun changed _ _ _ h he => ?_
    subst he
    split_ifs
    · exact abreast_throw _
    · exact alike_seq (reportOwned_like h _ _ _ _ _) fun _ _ _ _ h _ =>
        alike_seq (completeInbox_like h _ _) fun _ _ _ _ h _ => fates_commit h rfl

/-- **Corresponding failures are settled alike.** -/
theorem settleFailure_like (hC : D.CollisionFree) (hB : Blind C) (messageId : Uuid)
    {bytes bytes' : C.Bytes}
    (h : Option.Rel D.FailedLike (C.failed.fromSlice bytes) (C.failed.fromSlice bytes')) :
    (settleFailure C messageId bytes).Twin D.likeness (Likewise Eq)
      (settleFailure C messageId bytes') := by
  unfold settleFailure
  generalize C.failed.fromSlice bytes = x at h ⊢
  generalize C.failed.fromSlice bytes' = x' at h ⊢
  cases h with
  | none => exact twin_fail _
  | @some fact fact' hf =>
    have hlike := hf
    obtain ⟨digest, hnamed, rfl⟩ := hf
    dsimp only
    rw [hB.failed fact digest]
    split_ifs
    · exact twin_fail _
    refine twin_seq (readDb_like fun d d' hd => durable_like hd _ _) fun o o' ho => ?_
    cases ho with
    | none => exact twin_fail _
    | @some y y' hy =>
      obtain ⟨run, manifest⟩ := y
      obtain ⟨run', manifest'⟩ := y'
      obtain ⟨hr, sha, text, hsha, -, hm⟩ := hy
      dsimp only at hr hsha hm
      subst hr hm
      have hsame := hsha.same hC hnamed
      dsimp only
      simp only [ne_eq, eq_comm (a := fact.manifestDigest), eq_comm (a := digest), hsame]
      split_ifs
      · exact twin_pure rfl
      · exact twin_fail _
      · exact transaction_like fun m _ _ => settleFailureTx_like hlike _ _ _ _ m

/-! ## Walks -/

theorem leases_like {d d' : Db} (h : D.Resembles d d') : d'.leases = d.leases := by
  cases h
  rfl

theorem checkpoint_like (request : AcquisitionRequest) (at_ : Cursor) (state : CheckpointState)
    (wait : Option Nat) : (checkpoint request at_ state wait).Twin D.likeness (Likewise Eq)
      (checkpoint request at_ state wait) := by
  refine statement_like fun m d d' hd => alike_change ?_ rfl
  obtain ⟨hr, hm, hx, hi, ho⟩ := hd
  exact ⟨hr, hm, hx, hi, ho⟩

theorem finish_like (request : AcquisitionRequest) (at_ : Cursor) :
    (finish request at_).Twin D.likeness (Likewise Eq) (finish request at_) :=
  twin_seq (checkpoint_like _ _ _ _) fun _ _ _ => twin_pure rfl

theorem resume_like (request : AcquisitionRequest) :
    (resume request).Twin D.likeness (Likewise Eq) (resume request) := by
  refine twin_seq (statement_like (V := Eq) fun m d d' hd => alike_read hd ?_) fun start _ he => ?_
  · unfold Db.lease
    rw [leases_like hd]
  · subst he
    cases start with
    | error e => exact twin_fail e
    | ok at_ => exact twin_pure rfl

theorem resolve_like (request : AcquisitionRequest) (at_ : Cursor) :
    (resolve request at_).Twin D.likeness (Likewise Eq) (resolve request at_) := by
  refine twin_seq (twin_question (V := Eq) rfl fun _ _ h => Eq.symm h) fun reply _ he => ?_
  subst he
  split
  · exact twin_pure rfl
  · exact twin_seq (checkpoint_like _ _ _ _) fun _ _ _ => twin_fail _
  · exact twin_fail _

/-- two keys of texts that were seen in a walk. -/
def KeyLike (k k' : Int × Digest) : Prop :=
  k'.1 = k.1 ∧ ∃ t t', D.text t t' ∧ k.2 = C.textDigest t ∧ k'.2 = C.textDigest t'

/-- what a page left, of corresponding texts. -/
structure StoredLike (st st' : Stored) : Prop where
  seen : List.Forall₂ (KeyLike (D := D)) st.seen st'.seen
  count : st'.count = st.count
  reachedStart : st'.reachedStart = st.reachedStart

/-- a text was seen before in both walks, or in neither. -/
theorem seen_like (hC : D.CollisionFree) {seen seen' : List (Int × Digest)}
    (h : List.Forall₂ (KeyLike (D := D)) seen seen') {t t' : String} (ht : D.text t t') (id : Int) :
    seen.contains (id, C.textDigest t) = seen'.contains (id, C.textDigest t') := by
  have same : ∀ k k', KeyLike (D := D) k k' →
      (k = (id, C.textDigest t) ↔ k' = (id, C.textDigest t')) := by
    rintro ⟨i, a⟩ ⟨i', a'⟩ ⟨rfl, u, u', hu, ha, ha'⟩
    dsimp only at ha ha'
    subst ha ha'
    rw [Prod.mk.injEq, Prod.mk.injEq, hashed_same hC hu ht]
  rw [Bool.eq_iff_iff, List.contains_iff_mem, List.contains_iff_mem]
  constructor
  · intro hmem
    obtain ⟨k', hk', hlike⟩ := mem_left h hmem
    exact ((same _ _ hlike).mp rfl) ▸ hk'
  · intro hmem
    obtain ⟨k, hk, hlike⟩ := mem_right h hmem
    exact ((same _ _ hlike).mpr rfl) ▸ hk

theorem append_like (hC : D.CollisionFree) (request : AcquisitionRequest)
    {post : ProviderPost} {body : String} (ht : D.text post.body body) (published : Instant) :
    (append C AcquisitionError.unavailable (observation request post published)).Twin D.likeness
      (Likewise Eq)
      (append C .unavailable (observation request { post with body := body } published)) :=
  statement_like fun _ _ _ hd => guarded_like (appendRevision_like hC hd
    ⟨post.body, body, some body, ht, rfl, .inl ⟨rfl, rfl⟩, rfl⟩)

/-- the posts of a page are stored alike. -/
theorem storePosts_like (hC : D.CollisionFree) (request : AcquisitionRequest)
    {posts posts' : List ProviderPost} (h : List.Forall₂ D.PostLike posts posts') {st st' : Stored}
    (hst : StoredLike (D := D) st st') : (storePosts C request posts st).Twin D.likeness
      (Likewise (StoredLike (D := D))) (storePosts C request posts' st') := by
  induction h generalizing st st' with
  | nil => exact twin_pure hst
  | @cons post post' posts posts' hp _ ih =>
    obtain ⟨body, ht, rfl⟩ := hp
    have hstorable : ({ post with body := body } : ProviderPost).storable = post.storable := by
      unfold ProviderPost.storable
      simp only [D.empty ht, D.beyond ht]
    unfold storePosts
    rw [hstorable]
    by_cases hs : (!post.storable) = true
    · rw [if_pos hs, if_pos hs]
      exact ih hst
    rw [if_neg hs, if_neg hs]
    dsimp only
    cases post.publishedAt with
    | none => exact twin_fail _
    | some published =>
      dsimp only
      rw [seen_like hC hst.seen ht post.messageId]
      split_ifs
      · exact ih ⟨hst.seen, hst.count, rfl⟩
      · exact ih hst
      · exact ih hst
      · refine twin_seq (append_like hC request ht published) fun _ _ _ => ih ⟨?_, ?_, hst.reachedStart⟩
        · exact .cons ⟨rfl, _, _, ht, rfl, rfl⟩ hst.seen
        · rw [hst.count]

theorem ids_like {posts posts' : List ProviderPost} (h : List.Forall₂ D.PostLike posts posts')
    (p : Bool → Bool) : (posts.filter fun x => p x.deleted).map (·.messageId) =
      (posts'.filter fun x => p x.deleted).map (·.messageId) := by
  refine map_alike (R := D.PostLike) (filter_alike h fun x x' hx => ?_) fun x x' hx => ?_
  · obtain ⟨_, -, rfl⟩ := hx
    rfl
  · obtain ⟨_, -, rfl⟩ := hx
    rfl

theorem withdrawAbsent_like (channelId : Uuid) (requested : Option Int) {page page' : ProviderPage}
    (h : D.PageLike page page') : (withdrawAbsent channelId requested page).Twin D.likeness
      (Likewise Eq) (withdrawAbsent channelId requested page') := by
  obtain ⟨posts, hposts, rfl⟩ := h
  have hids : page.posts.map (·.messageId) = posts.map (·.messageId) := by
    simpa using ids_like hposts fun _ => true
  have hdeleted : (page.posts.filter (·.deleted)).map (·.messageId) =
      (posts.filter (·.deleted)).map (·.messageId) := ids_like hposts id
  unfold withdrawAbsent provedRange ProviderPage.present ProviderPage.deleted
  dsimp only
  rw [hids, ids_like hposts not, hdeleted]
  split
  · exact twin_pure rfl
  · exact statement_like fun _ _ _ hd => alike_change (withdraw_like hd _ _ _) rfl

/-- **Walks that are shown corresponding pages go alike.** -/
theorem walk_like (hC : D.CollisionFree) (request : AcquisitionRequest)
    (channel n : Nat) (at_ : Cursor) {seen seen' : List (Int × Digest)}
    (h : List.Forall₂ (KeyLike (D := D)) seen seen') :
    (walk C request channel n at_ seen).Twin D.likeness (Likewise Eq)
      (walk C request channel n at_ seen') := by
  induction n generalizing at_ seen seen' with
  | zero => exact finish_like request at_
  | succ n ih =>
    unfold walk
    refine twin_seq (twin_question (V := Reply.Like D.PageLike) ⟨rfl, rfl, rfl⟩ fun _ _ h => h)
      fun reply reply' hreply => ?_
    cases hreply with
    | @ok page page' hpage =>
      have hpages := hpage
      obtain ⟨posts, hposts, rfl⟩ := hpage
      refine twin_seq (storePosts_like hC request hposts ⟨h, rfl, rfl⟩) fun st st' hst => ?_
      refine twin_seq (withdrawAbsent_like _ _ hpages) fun _ _ _ => ?_
      dsimp only
      rw [hst.count, hst.reachedStart]
      generalize (if st.reachedStart = true then none else page.nextBeforeMessageId) = before
      refine twin_seq (checkpoint_like _ _ _ _) fun _ _ _ => ?_
      split_ifs
      · exact finish_like _ _
      · exact ih _ hst.seen
    | error e =>
      cases e with
      | floodWait wait => exact twin_seq (checkpoint_like _ _ _ _) fun _ _ _ => twin_fail _
      | _ =>
        dsimp only
        split_ifs
        · exact twin_seq (checkpoint_like _ _ _ _) fun _ _ _ => twin_pure rfl
        · exact twin_fail _
    | elapsed =>
      dsimp only
      split_ifs
      · exact twin_seq (checkpoint_like _ _ _ _) fun _ _ _ => twin_pure rfl
      · exact twin_fail _

theorem execute_like (hC : D.CollisionFree) (request : AcquisitionRequest) :
    (execute C request).Twin D.likeness (Likewise Eq) (execute C request) := by
  refine twin_seq (resume_like request) fun at_ _ he => ?_
  subst he
  split_ifs
  · exact twin_fail _
  · refine twin_seq (resolve_like request at_) fun channel _ he => ?_
    subst he
    exact walk_like hC request channel _ at_ .nil

/-! ## Ticks -/

theorem acquire_like (hC : D.CollisionFree) (run : PendingRun)
    (channels : List (Uuid × String)) :
    (acquire C run channels).Twin D.likeness (Likewise Eq) (acquire C run channels) := by
  induction channels with
  | nil => exact twin_pure rfl
  | cons channel channels ih =>
    refine twin_seq (twin_outcome (execute_like hC _)) fun outcome outcome' ho => ?_
    refine twin_seq ih fun rest _ he => ?_
    subst he
    refine twin_pure (congrArg (fun o => (channel.1, o) :: rest) ?_)
    rcases outcome with e | report <;> rcases outcome' with e' | report'
    · exact congrArg Except.error ho
    · exact absurd ho id
    · exact absurd ho id
    · exact congrArg Except.ok ho

/-- **Corresponding sources are committed alike.** -/
theorem commit_like (hC : D.CollisionFree) (hB : Blind C) (run : PendingRun)
    {sources sources' : List ManifestSource} (h : List.Forall₂ D.SelectedLike sources sources')
    (incomplete : Bool) : (commit C run sources incomplete).Twin D.likeness (Likewise Eq)
      (commit C run sources' incomplete) := by
  have hempty : sources'.isEmpty = sources.isEmpty := by
    cases h <;> rfl
  unfold commit
  rw [hempty]
  split_ifs
  · exact failWith_like run _
  · exact twin_mapError (transaction_like fun m _ _ => completeEmptyRunTx_like _ _ m)
  · refine twin_seq (V := Eq) ⟨trivial, fun m m' hm => ?_⟩ fun manifestId _ he => ?_
    · exact congrArg (fun m : Moment => m.ids 0) (Eq.symm hm)
    subst he
    have hbuild := build_like manifestId run.ownerId run.runId run.windowStart run.windowEnd h
    unfold commitSources
    generalize build C manifestId run.ownerId run.runId run.windowStart run.windowEnd sources = x
      at hbuild ⊢
    generalize build C manifestId run.ownerId run.runId run.windowStart run.windowEnd sources' = x'
      at hbuild ⊢
    rcases x with e | manifest <;> rcases x' with e' | manifest'
    · exact failWith_like run _
    · exact absurd hbuild id
    · exact absurd hbuild id
    have hlike : D.CanonicalLike manifest manifest' := hbuild
    have hbytes : (C.recapRequest.toVec (recapRequest run manifest')).isSome =
        (C.recapRequest.toVec (recapRequest run manifest)).isSome := by
      obtain ⟨text, sha, -, rfl⟩ := hlike
      exact hB.requestBytes (recapRequest run manifest) sha
    dsimp only
    rcases hb : C.recapRequest.toVec (recapRequest run manifest) with _ | bytes <;>
      rcases hb' : C.recapRequest.toVec (recapRequest run manifest') with _ | bytes' <;>
      rw [hb, hb'] at hbytes
    · exact twin_fail _
    · cases hbytes
    · cases hbytes
    · exact twin_seq (twin_mapError (commitManifest_like hC hB run hlike hb hb')) fun _ _ _ =>
        twin_pure rfl

theorem proceed_like (hC : D.CollisionFree) (hB : Blind C) (sourceCount : Nat)
    (run : PendingRun) (listed listed' : Db) (outcomes : Outcomes) :
    (proceed C sourceCount run listed outcomes).Twin D.likeness (Likewise fun _ _ => True)
      (proceed C sourceCount run listed' outcomes) := by
  refine twin_seq (statement_like (V := fun x x' : Db × Selection =>
    List.Forall₂ D.SelectedLike x.2.sources x'.2.sources ∧ x.2.eligible = x'.2.eligible)
    fun _ _ _ hd => alike_read hd (selectSources_like hd run _)) fun x x' hx => ?_
  obtain ⟨seen, selection⟩ := x
  obtain ⟨seen', selection'⟩ := x'
  obtain ⟨hsources, heligible⟩ := hx
  have hincomplete : incompleteness outcomes selection' = incompleteness outcomes selection := by
    unfold incompleteness
    rw [← heligible, hsources.length_eq]
  dsimp only
  rw [hincomplete]
  refine twin_seq (V := Eq) (statement_like fun _ d d' hd => alike_change ?_ rfl) fun _ _ _ => ?_
  · rw [hd.runs]
    exact hd.setRuns _
  · exact twin_seq (commit_like hC hB run hsources _) fun _ _ _ => twin_pure trivial

theorem acquireRun_like (hC : D.CollisionFree) (hB : Blind C) (sourceCount : Nat)
    (run : PendingRun) : (acquireRun C sourceCount run).Twin D.likeness (Likewise fun _ _ => True)
      (acquireRun C sourceCount run) := by
  refine twin_seq (statement_like (V := fun x x' : Db × List (Uuid × String) => x'.2 = x.2)
    fun _ _ _ hd => alike_read hd ?_) fun x x' hx => ?_
  · cases hd
    rfl
  obtain ⟨listed, channels⟩ := x
  obtain ⟨listed', channels'⟩ := x'
  dsimp only at hx
  subst hx
  refine twin_seq (acquire_like hC run _) fun outcomes _ he => ?_
  subst he
  cases acquired outcomes with
  | deferred => exact twin_pure trivial
  | unavailable => exact twin_seq (failWith_like run _) fun _ _ _ => twin_pure trivial
  | complete => exact proceed_like hC hB sourceCount run _ _ _
  | incomplete => exact proceed_like hC hB sourceCount run _ _ _

/-- **The ticks of both histories go alike.** -/
theorem tick_like (hC : D.CollisionFree) (hB : Blind C) (sourceCount : Nat) :
    (tick C sourceCount).Twin D.likeness (Likewise fun _ _ => True) (tick C sourceCount) := by
  refine twin_seq (V := Eq) (statement_like fun m d d' hd => alike_read hd ?_) fun pending _ he => ?_
  · unfold Db.selectPending Db.floodWaiting
    rw [hd.runs, leases_like hd]
  subst he
  cases pending with
  | none => exact twin_pure trivial
  | some run =>
    dsimp only
    split_ifs
    · refine twin_seq (transaction_like fun m _ _ => beginAcquisitionTx_like run m)
        fun begun _ he => ?_
      subst he
      split_ifs
      · exact acquireRun_like hC hB sourceCount run
      · exact twin_pure trivial
    · exact acquireRun_like hC hB sourceCount run

/-! ## The reaper, sweeps and registrations -/

theorem reportReaped_like (m : Moment) (runs : List Run) (n : Nat) {d d' : Db}
    (h : D.Resembles d d') : (reportReaped C m runs n).Abreast (Paired D.Resembles Eq)
      (reportReaped C m runs n) d d' := by
  induction runs generalizing n d d' with
  | nil => exact alike_pure h rfl
  | cons run runs ih =>
    refine alike_seq (V := Eq) ?_ fun _ _ _ _ h _ => ih _ h
    unfold reportDeadline
    split_ifs
    · exact enqueue_like h _ _ _
    · exact alike_pure h rfl

theorem reapOnce_like (deadline : Int) (now : Instant) :
    (reapOnce C deadline now).Twin D.likeness (Likewise Eq) (reapOnce C deadline now) := by
  refine transaction_like fun m d d' h => ?_
  refine alike_seq (V := Eq) (alike_mark h) fun _ _ d d' h _ => ?_
  refine alike_seq (I := D.Resembles) (V := Eq) (alike_change ?_ ?_) fun reaped _ _ _ h he => ?_
  · unfold Db.overdueRuns
    rw [h.runs]
    exact h.setRuns _
  · unfold Db.overdueRuns
    rw [h.runs]
  · subst he
    exact alike_seq (reportReaped_like m _ _ h) fun _ _ _ _ h _ => fates_commit h rfl

theorem sweepOnce_like (bodyDays : Nat) (now : Instant) :
    (sweepOnce bodyDays now).Twin D.likeness (Likewise Eq) (sweepOnce bodyDays now) := by
  refine twin_seq (V := Eq) (statement_like fun m d d' hd =>
    alike_change (minimizeRevisions_like hd _ _ _) (agedRevisions_like hd _ _).length_eq)
    fun bodies _ he => ?_
  subst he
  refine twin_seq (V := Eq) (statement_like fun m d d' hd =>
    alike_change (minimizeManifests_like hd _ _ _) (agedManifests_like hd _ _).length_eq)
    fun manifests _ he => ?_
  subst he
  exact twin_pure rfl

theorem latestRegistration_like {d d' : Db} (h : D.Resembles d d') :
    d.latestRegistration.map (·.key) = d'.latestRegistration.map (·.key) := by
  have hsorted : List.Forall₂ OutboxLike
      ((d.outbox.filter fun r => r.key.isRegistration).insertionSort
        fun a b => toLex (b.createdAt, b.outboxId) ≤ toLex (a.createdAt, a.outboxId))
      ((d'.outbox.filter fun r => r.key.isRegistration).insertionSort
        fun a b => toLex (b.createdAt, b.outboxId) ≤ toLex (a.createdAt, a.outboxId)) := by
    refine sort_alike (filter_alike h.outbox fun r r' hr => ?_) fun a a' b b' ha hb => ?_
    · obtain ⟨_, -, rfl⟩ := hr
      rfl
    · obtain ⟨_, -, rfl⟩ := ha
      obtain ⟨_, -, rfl⟩ := hb
      exact Iff.rfl
  unfold Db.latestRegistration
  generalize (d.outbox.filter fun r => r.key.isRegistration).insertionSort
    (fun a b => toLex (b.createdAt, b.outboxId) ≤ toLex (a.createdAt, a.outboxId)) = l at hsorted ⊢
  generalize (d'.outbox.filter fun r => r.key.isRegistration).insertionSort
    (fun a b => toLex (b.createdAt, b.outboxId) ≤ toLex (a.createdAt, a.outboxId)) = l' at hsorted ⊢
  cases hsorted with
  | nil => rfl
  | cons hr _ =>
    obtain ⟨_, -, rfl⟩ := hr
    rfl

theorem registrationTx_like (schedule : ScheduleConfig) (m : Moment) {d d' : Db}
    (h : D.Resembles d d') : (registrationTx C schedule m).Abreast (Fates D.Resembles Eq)
      (registrationTx C schedule m) d d' := by
  refine alike_seq (V := Eq) (alike_mark h) fun _ _ d d' h _ => ?_
  refine alike_seq (V := fun x x' : Option OutboxMessage => x.map (·.key) = x'.map (·.key))
    (alike_read h (latestRegistration_like h)) fun latest latest' d d' h he => ?_
  rw [he]
  split_ifs
  · exact fates_drop rfl
  · refine alike_seq (guarded_like ?_) fun _ _ _ _ h _ => fates_commit h rfl
    have hholds := h.outboxHolds (schedule.row C (m.ids 0) m.now).key
    have hid := h.outboxId (schedule.row C (m.ids 0) m.now).outboxId
    obtain ⟨hr, hm, hx, hi, ho⟩ := h
    unfold Db.upsertRegistration
    rw [hid, hholds]
    split_ifs
    · exact .none
    · refine .some ⟨hr, hm, hx, hi, updateWhere_alike ho (fun r r' hrow => ?_) fun r r' hrow => ?_⟩
      · obtain ⟨_, -, rfl⟩ := hrow
        rfl
      · obtain ⟨_, -, rfl⟩ := hrow
        exact outboxLike_refl _
    · exact .some ⟨hr, hm, hx, hi, List.rel_append (R := OutboxLike) ho
        (.cons (outboxLike_refl _) .nil)⟩

theorem enqueueScheduleRegistration_like (schedule : Option ScheduleConfig) :
    (enqueueScheduleRegistration C schedule).Twin D.likeness (Likewise Eq)
      (enqueueScheduleRegistration C schedule) := by
  cases schedule with
  | none => exact twin_pure rfl
  | some schedule =>
    unfold enqueueScheduleRegistration
    dsimp only
    split_ifs
    · exact twin_fail _
    · exact transaction_like fun m _ _ => registrationTx_like schedule m

/-! ## Publishing -/

theorem updateOutbox_like (outboxId : Uuid) {u : Instant → OutboxMessage → OutboxMessage}
    (hu : ∀ now r payload, u now { r with payload := payload } = { u now r with payload := payload })
    (hp : ∀ now r, (u now r).payload = r.payload) :
    (updateOutbox outboxId u).Twin D.likeness (Likewise Eq) (updateOutbox outboxId u) := by
  refine statement_like fun m d d' h => alike_change ?_ rfl
  obtain ⟨hr, hm, hx, hi, ho⟩ := h
  refine ⟨hr, hm, hx, hi, updateWhere_alike ho (fun r r' hrow => ?_) fun r r' hrow => ?_⟩
  · obtain ⟨_, -, rfl⟩ := hrow
    rfl
  · obtain ⟨payload, hpay, rfl⟩ := hrow
    exact ⟨payload, by rw [hp]; exact hpay, hu _ _ _⟩

theorem envelopeLike_refl (m : OutboundMessage) : EnvelopeLike m m := ⟨m.payload, .same _, rfl⟩

/-- corresponding rows are wrapped alike. -/
theorem wrapOutboxRow_like (hB : Blind C) {row row' : OutboxMessage} (h : OutboxLike row row') :
    Option.Rel EnvelopeLike (wrapOutboxRow C row) (wrapOutboxRow C row') := by
  obtain ⟨payload, hp, rfl⟩ := h
  generalize hpay : row.payload = p at hp
  cases hp with
  | same =>
    subst hpay
    cases wrapOutboxRow C row with
    | none => exact .none
    | some m => exact .some (envelopeLike_refl m)
  | request r digest =>
    obtain ⟨key, hkey⟩ : ∃ key, row.key = key := ⟨_, rfl⟩
    rcases key with ⟨_, _⟩ | runId | _
    · rw [wrapOutboxRow, wrapOutboxRow, hkey, hpay]
      exact .none
    · have hencodes := hB.envelope (row.recapEnvelope r) r digest hpay
      have hwritable : (OutboxMessage.recapEnvelope
          { row with payload := .recapRequest (r.withDigest digest) } r).writable C =
          (row.recapEnvelope r).writable C := congrArg (_ && ·) hencodes
      have hwrap : wrapOutboxRow C { row with payload := .recapRequest (r.withDigest digest) } = _ :=
        wrap_recapRequest hkey rfl
      rw [wrap_recapRequest hkey hpay]
      refine Eq.subst (motive := Option.Rel EnvelopeLike _) hwrap.symm ?_
      show Option.Rel EnvelopeLike _ (if (C.recapRequest.validForPublish (r.withDigest digest) &&
        (OutboxMessage.recapEnvelope
          { row with payload := .recapRequest (r.withDigest digest) } r).writable C) = true then _
        else none)
      rw [hwritable, show C.recapRequest.validForPublish (r.withDigest digest) =
        C.recapRequest.validForPublish r from hB.request r digest]
      split_ifs
      · refine .some ⟨.recapRequest (r.withDigest digest), ?_, rfl⟩
        rw [show (row.recapEnvelope r).payload = .recapRequest r from hpay]
        exact .request r digest
      · exact .none
    · rw [wrapOutboxRow, wrapOutboxRow, hkey, hpay]
      exact .none

theorem publishMessage_like {ε : Type} {m m' : OutboundMessage} (h : EnvelopeLike m m') :
    (publishMessage m : Action ε Bool).Twin D.likeness (Likewise Eq) (publishMessage m') :=
  ⟨h, fun _ _ ha => Eq.symm ha⟩

theorem publishRows_like (hB : Blind C) {rows rows' : List OutboxMessage}
    (h : List.Forall₂ OutboxLike rows rows') (refused : Bool) :
    (publishRows C rows refused).Twin D.likeness (Likewise Eq) (publishRows C rows' refused) := by
  induction h generalizing refused with
  | nil => exact twin_pure rfl
  | @cons row row' rows rows' hrow _ ih =>
    have hid : row'.outboxId = row.outboxId := by
      obtain ⟨_, -, rfl⟩ := hrow
      rfl
    have hwrap := wrapOutboxRow_like hB hrow
    unfold publishRows
    rw [hid]
    generalize wrapOutboxRow C row = x at hwrap ⊢
    generalize wrapOutboxRow C row' = x' at hwrap ⊢
    cases hwrap with
    | none => exact twin_fail _
    | some hm =>
      refine twin_seq (publishMessage_like hm) fun acked _ he => ?_
      subst he
      split_ifs
      · exact twin_seq (updateOutbox_like _ (fun _ _ _ => rfl) fun _ _ => rfl) fun _ _ _ => ih _
      · exact twin_seq (updateOutbox_like _ (fun _ _ _ => rfl) fun _ _ => rfl) fun _ _ _ => ih _

theorem publishOutbox_like (hB : Blind C) :
    (publishOutbox C).Twin D.likeness (Likewise Eq) (publishOutbox C) := by
  refine twin_seq (V := List.Forall₂ OutboxLike) (statement_like fun m d d' h => alike_read h ?_)
    fun rows rows' hrows => ?_
  · obtain ⟨-, -, -, -, ho⟩ := h
    refine List.forall₂_take _ (sort_alike (filter_alike ho fun r r' hr => ?_)
      fun a a' b b' ha hb => ?_)
    · obtain ⟨_, -, rfl⟩ := hr
      rfl
    · obtain ⟨_, -, rfl⟩ := ha
      obtain ⟨_, -, rfl⟩ := hb
      exact Iff.rfl
  · refine twin_seq (publishRows_like hB hrows false) fun refused _ he => ?_
    subst he
    split_ifs
    · exact twin_fail _
    · exact twin_pure rfl

/-! ## Deliveries -/

theorem coordinatorDisposition_like {p p' : Action CoordinatorError IntakeOutcome}
    (h : p.Twin D.likeness (Likewise Eq) p') : (coordinatorDisposition p).Twin D.likeness
      (Likewise Eq) (coordinatorDisposition p') := by
  refine twin_next h fun r r' hr => ?_
  rcases r with e | a <;> rcases r' with e' | a'
  · obtain rfl : e = e' := hr
    cases e <;> exact twin_pure rfl
  · exact absurd hr id
  · exact absurd hr id
  · exact twin_pure rfl

theorem intakeDisposition_like {p p' : Action IntakeError IntakeOutcome}
    (h : p.Twin D.likeness (Likewise Eq) p') : (intakeDisposition p).Twin D.likeness
      (Likewise Eq) (intakeDisposition p') := by
  refine twin_next h fun r r' hr => ?_
  rcases r with e | a <;> rcases r' with e' | a'
  · obtain rfl : e = e' := hr
    cases e <;> exact twin_pure rfl
  · exact absurd hr id
  · exact absurd hr id
  · exact twin_pure rfl

theorem handleUnreadable_like (envelope : CommandEnvelope C.Object) (kind : CommandKind) :
    (handleUnreadable C envelope kind).Twin D.likeness (Likewise Eq)
      (handleUnreadable C envelope kind) := by
  unfold handleUnreadable
  split
  · exact twin_pure rfl
  · exact intakeDisposition_like (rejectUnreadable_like _ _ _ _)

theorem handleCommand_like (language : OutputLanguage) (subject : Subject) (bytes : C.Bytes) :
    (handleCommand C language subject bytes).Twin D.likeness (Likewise Eq)
      (handleCommand C language subject bytes) := by
  unfold handleCommand
  split
  · exact twin_pure rfl
  split_ifs
  · exact twin_pure rfl
  · exact twin_pure rfl
  split
  · unfold handleOccurrence
    split
    · exact twin_pure rfl
    split_ifs
    · exact twin_pure rfl
    split
    · exact twin_pure rfl
    split
    · exact coordinatorDisposition_like (acceptOccurrence_like _)
    · exact twin_pure rfl
  · unfold handleSubscription
    split
    · exact handleUnreadable_like _ _
    split_ifs
    · exact twin_pure rfl
    split
    · exact twin_pure rfl
    · exact intakeDisposition_like (acceptSubscription_like _ _)
  · unfold handleRun
    split
    · exact handleUnreadable_like _ _
    split_ifs
    · exact twin_pure rfl
    split
    · exact twin_pure rfl
    · exact intakeDisposition_like (acceptRun_like _ _)
  · exact twin_pure rfl

theorem handleCompleted_like (hC : D.CollisionFree) (hB : Blind C)
    {e e' : EventEnvelope C.Object} (h : EventLike (fun o o' =>
      Option.Rel D.CompletedLike (C.completed.payloadAs o) (C.completed.payloadAs o')) e e') :
    (handleCompleted C e).Twin D.likeness (Likewise Eq) (handleCompleted C e') := by
  obtain ⟨payload, hpayload, rfl⟩ := h
  unfold handleCompleted
  dsimp only
  generalize C.completed.payloadAs e.payload = x at hpayload ⊢
  generalize C.completed.payloadAs payload = x' at hpayload ⊢
  cases hpayload with
  | none => exact twin_pure rfl
  | @some fact fact' hf =>
    have howner : fact'.owner = fact.owner := by
      obtain ⟨_, _, -, -, rfl⟩ := hf
      rfl
    have hbytes : (C.completed.toVec fact').isSome = (C.completed.toVec fact).isSome := by
      obtain ⟨digest, recap, -, -, rfl⟩ := hf
      exact hB.completedBytes fact digest recap
    dsimp only
    rw [howner]
    split_ifs
    · exact twin_pure rfl
    rcases hb : C.completed.toVec fact with _ | bytes <;>
      rcases hb' : C.completed.toVec fact' with _ | bytes' <;> rw [hb, hb'] at hbytes
    · exact twin_pure rfl
    · cases hbytes
    · cases hbytes
    · refine coordinatorDisposition_like (settleCompletion_like hC hB _ ?_)
      rw [C.completed.roundTrip hb, C.completed.roundTrip hb']
      exact .some hf

theorem handleFailed_like (hC : D.CollisionFree) (hB : Blind C)
    {e e' : EventEnvelope C.Object} (h : EventLike (fun o o' =>
      Option.Rel D.FailedLike (C.failed.payloadAs o) (C.failed.payloadAs o')) e e') :
    (handleFailed C e).Twin D.likeness (Likewise Eq) (handleFailed C e') := by
  obtain ⟨payload, hpayload, rfl⟩ := h
  unfold handleFailed
  dsimp only
  generalize C.failed.payloadAs e.payload = x at hpayload ⊢
  generalize C.failed.payloadAs payload = x' at hpayload ⊢
  cases hpayload with
  | none => exact twin_pure rfl
  | @some fact fact' hf =>
    have howner : fact'.owner = fact.owner := by
      obtain ⟨_, -, rfl⟩ := hf
      rfl
    have hbytes : (C.failed.toVec fact').isSome = (C.failed.toVec fact).isSome := by
      obtain ⟨digest, -, rfl⟩ := hf
      exact hB.failedBytes fact digest
    dsimp only
    rw [howner]
    split_ifs
    · exact twin_pure rfl
    rcases hb : C.failed.toVec fact with _ | bytes <;>
      rcases hb' : C.failed.toVec fact' with _ | bytes' <;> rw [hb, hb'] at hbytes
    · exact twin_pure rfl
    · cases hbytes
    · cases hbytes
    · refine coordinatorDisposition_like (settleFailure_like hC hB _ ?_)
      rw [C.failed.roundTrip hb, C.failed.roundTrip hb']
      exact .some hf

/-- the events of both histories are handled alike. -/
theorem handleEvent_like {R : C.Object → C.Object → Prop} {handler : EventEnvelope C.Object → Delivery}
    {subject : Subject} {bytes bytes' : C.Bytes}
    (h : Option.Rel (EventLike R) (C.eventEnvelope bytes) (C.eventEnvelope bytes'))
    (hs : ∀ b, handleEvent C subject b = match C.eventEnvelope b with
      | none => pure .term
      | some envelope =>
        if envelope.producer ≠ knowledgeProducer then pure .term
        else if envelope.eventType ≠ subject.contractType then pure .term
        else handler envelope)
    (hk : ∀ e e', EventLike R e e' → (handler e).Twin D.likeness (Likewise Eq) (handler e')) :
    (handleEvent C subject bytes).Twin D.likeness (Likewise Eq) (handleEvent C subject bytes') := by
  rw [hs, hs]
  generalize C.eventEnvelope bytes = x at h ⊢
  generalize C.eventEnvelope bytes' = x' at h ⊢
  cases h with
  | none => exact twin_pure rfl
  | @some e e' he =>
    have hfields : e'.producer = e.producer ∧ e'.eventType = e.eventType := by
      obtain ⟨_, -, rfl⟩ := he
      exact ⟨rfl, rfl⟩
    dsimp only
    rw [hfields.1, hfields.2]
    split_ifs
    · exact twin_pure rfl
    · exact twin_pure rfl
    · exact hk e e' he

/-- **Corresponding deliveries are handled alike.** -/
theorem handle_like (hC : D.CollisionFree) (hB : Blind C) (language : OutputLanguage)
    {transport : String} {bytes bytes' : C.Bytes} (h : D.PacketLike transport bytes bytes') :
    (handle C language transport bytes).Twin D.likeness (Likewise Eq)
      (handle C language transport bytes') := by
  unfold PacketLike at h
  unfold handle
  generalize Subject.ofTransport transport = o at h ⊢
  rcases o with _ | subject
  · exact twin_pure rfl
  cases subject with
  | subscription =>
    obtain rfl : bytes' = bytes := h
    exact handleCommand_like _ _ _
  | run =>
    obtain rfl : bytes' = bytes := h
    exact handleCommand_like _ _ _
  | occurrence =>
    obtain rfl : bytes' = bytes := h
    exact handleCommand_like _ _ _
  | completed =>
    exact handleEvent_like h (fun _ => rfl) fun _ _ he => handleCompleted_like hC hB he
  | failed => exact handleEvent_like h (fun _ => rfl) fun _ _ he => handleFailed_like hC hB he

/-! ## Histories -/

theorem ending_like {ε α : Type} {V : α → α → Prop} {f f' : Except ε α → Ending} {p p' : Action ε α}
    (h : p.Twin D.likeness (Likewise V) p') :
    (ending f p).Twin D.likeness (fun _ _ => True) (ending f' p') :=
  twin_next h fun _ _ _ => trivial

/-- corresponding tasks are twins. -/
theorem body_like (hC : D.CollisionFree) (hB : Blind C) (language : OutputLanguage)
    {t t' : Task C} (h : D.TaskLike t t') :
    (t.body language).Twin D.likeness (fun _ _ => True) (t'.body language) := by
  cases h with
  | deliver calm transport hp => exact ending_like (handle_like hC hB language hp)
  | acceptSubscription messageId payload => exact ending_like (acceptSubscription_like _ _)
  | acceptRun messageId payload => exact ending_like (acceptRun_like _ _)
  | acceptOccurrence o => exact ending_like (acceptOccurrence_like o)
  | settleCompletion messageId hf => exact ending_like (settleCompletion_like hC hB messageId hf)
  | settleFailure messageId hf => exact ending_like (settleFailure_like hC hB messageId hf)
  | executeOne sourceCount =>
    refine ending_like (V := fun _ _ => True) (twin_seq (tick_like hC hB sourceCount)
      fun x x' _ => ?_)
    cases x <;> cases x' <;> exact twin_pure trivial
  | reapOnce deadline now => exact ending_like (reapOnce_like deadline now)
  | sweepOnce bodyDays now => exact ending_like (sweepOnce_like bodyDays now)
  | publishOutbox => exact ending_like (publishOutbox_like hB)
  | register schedule => exact ending_like (enqueueScheduleRegistration_like schedule)

end Disguise

/-- every database that a worker reaches is the end of a history. -/
theorem Reachable.performed {C : Contracts} {S : Setting} {d : Db} (h : Reachable C S d) :
    ∃ deeds, (Pool.perform (worker C S) deeds ⟨[], Db.empty⟩).state = d := by
  have answered : ∀ q : Question, Nonempty q.Answer := by
    intro q
    cases q with
    | moment => exact ⟨⟨0, fun _ => 0, none⟩⟩
    | resolve _ => exact ⟨.elapsed⟩
    | fetch _ _ _ => exact ⟨.elapsed⟩
    | publish _ => exact ⟨true⟩
  obtain ⟨ts, h⟩ := h
  have : ∀ q, Nonempty (service.Answer q) := answered
  obtain ⟨deeds, hdeeds⟩ := Pool.reach_performed h
  exact ⟨deeds, congrArg Pool.state hdeeds⟩

/-- **Post text reaches the bus only through manifest digests.**  Take two histories of the worker
with the same turns and crashes, in which corresponding posts are shown and corresponding facts
arrive: corresponding texts are equal or different in the same places and both empty, within the
limit or over it, the encoder accepts both manifests or neither, no two texts of one history have
the same digest, and the crates do not look at the value of a digest.  Then the outboxes are equal
row by row, except for the manifest digests of the recap requests. -/
theorem posts_unseen {C : Contracts} (S : Setting) (D : Disguise C)
    (hC : D.CollisionFree) (hB : Blind C)
    {deeds deeds' : List (Deed service (Task C))}
    (h : List.Forall₂ (Deed.Like D.likeness D.TaskLike) deeds deeds') :
    (Pool.perform (worker C S) deeds ⟨[], Db.empty⟩).state.outbox.map OutboxMessage.masked =
      (Pool.perform (worker C S) deeds' ⟨[], Db.empty⟩).state.outbox.map OutboxMessage.masked := by
  have hempty : Pool.Like D.likeness (⟨[], Db.empty⟩ : Pool service (Task C) Empty Ending)
      ⟨[], Db.empty⟩ := ⟨.nil, D.resembles_empty⟩
  have hlike := perform_like (Y := worker C S)
    (fun ht => Disguise.body_like hC hB S.language ht) hempty h
  exact map_alike (Disguise.Resembles.outbox hlike.state) fun _ _ hr => hr.masked

/-! ## A sample -/

namespace Sample

/-- another post is shown. -/
def otherPage : ProviderPage := ⟨[⟨5, "salve", some 1000000, false⟩], none⟩

/-- one text and one recap differ. -/
def other : Disguise accepting where
  text t t' := t = "hello" ∧ t' = "salve"
  recap a a' := a = 5 ∧ a' = 6
  textSame := by
    rintro _ _ _ _ ⟨rfl, rfl⟩ ⟨rfl, rfl⟩
    exact iff_of_true rfl rfl
  recapSame := by
    rintro _ _ _ _ ⟨rfl, rfl⟩ ⟨rfl, rfl⟩
    exact iff_of_true rfl rfl
  empty := by
    rintro _ _ ⟨rfl, rfl⟩
    decide
  beyond := by
    rintro _ _ ⟨rfl, rfl⟩
    decide
  accepts _ := rfl

theorem other_free : other.CollisionFree where
  texts _ _ := ⟨fun h => textDigest_injective h, fun h => textDigest_injective h⟩
  manifests _ _ _ _ _ _ := ⟨fun h => textDigest_injective h, fun h => textDigest_injective h⟩

theorem accepting_blind : Blind accepting where
  requestBytes _ _ := rfl
  request _ _ := rfl
  completedBytes _ _ _ := rfl
  completed _ _ _ := rfl
  failedBytes _ _ := rfl
  failed _ _ := rfl
  envelope _ _ _ _ := rfl

/-- the manifest of the other post. -/
def otherManifest : ContractManifest :=
  { manifest with
    sources := manifest.sources.map fun s =>
      { s with
        content := "salve"
        contentDigest := textDigest "salve" } }

/-- the recap of the other post. -/
def otherFact : RecapCompleted :=
  { fact with
    manifestDigest := textDigest (wording otherManifest)
    resultDigest := 6 }

/-- a day on which `page` is shown, the executor is dropped at its first try, and the recap is
settled. -/
def dayOf (page : ProviderPage) (fact : RecapCompleted) : List (Deed service (Task accepting)) :=
  [.turn (.start (.acceptSubscription 101 (.payload (.subscription subscribe)))),
    .turn (.run 0 100 (answers 5 1000 page)),
    .turn (.start (.acceptRun 102 (.payload (.run request)))),
    .turn (.run 1 100 (answers 6 2000 page)),
    .turn (.start (.executeOne 10)), .turn (.run 2 3 (answers 7 2500 page)), .drop 2,
    .turn (.start (.executeOne 10)), .turn (.run 3 100 (answers 7 3000 page)),
    .turn (.start (.settleCompletion 103 (.payload (.completed fact)))),
    .turn (.run 4 100 (answers 8 4000 page))]

theorem answers_like (now : Instant) (base : Nat) :
    other.likeness.Answers (answers now base page) (answers now base otherPage) := by
  intro n q q' hq
  cases q <;> cases q' <;> first | exact absurd hq id | skip
  · rfl
  · rfl
  · exact .ok ⟨_, .cons ⟨"salve", ⟨rfl, rfl⟩, rfl⟩ .nil, rfl⟩
  · rfl

theorem manifests_like : ManifestsLike accepting other.text manifest otherManifest :=
  ⟨otherManifest.sources, .cons ⟨"salve", ⟨rfl, rfl⟩, rfl, rfl⟩ .nil, rfl⟩

theorem accepting_digest : accepting.textDigest = textDigest := rfl

theorem fact_like : other.CompletedLike fact otherFact := by
  have hdigest : other.ManifestDigest (textDigest "manifest") (textDigest (wording otherManifest)) :=
    ⟨manifest, otherManifest, "manifest", wording otherManifest, manifests_like,
      congrArg some (if_pos rfl), rfl, by rw [accepting_digest], by rw [accepting_digest]⟩
  exact ⟨_, 6, .inl hdigest, ⟨rfl, rfl⟩, rfl⟩

theorem days_like : List.Forall₂ (Deed.Like other.likeness other.TaskLike) (dayOf page fact)
    (dayOf otherPage otherFact) :=
  .cons (.turn (.start (.acceptSubscription _ _))) <| .cons (.turn (.run _ _ (answers_like _ _))) <|
  .cons (.turn (.start (.acceptRun _ _))) <| .cons (.turn (.run _ _ (answers_like _ _))) <|
  .cons (.turn (.start (.executeOne _))) <| .cons (.turn (.run _ _ (answers_like _ _))) <|
  .cons (.drop 2) <|
  .cons (.turn (.start (.executeOne _))) <| .cons (.turn (.run _ _ (answers_like _ _))) <|
  .cons (.turn (.start (.settleCompletion 103 (.some fact_like)))) <|
  .cons (.turn (.run _ _ (answers_like _ _))) .nil

end Sample

/-- the post of the sample, replaced by another one. -/
theorem other_post_unseen :
    (Pool.perform (worker Sample.accepting (Sample.setting .one False))
        (Sample.dayOf Sample.page Sample.fact) ⟨[], Db.empty⟩).state.outbox.map (·.key) =
      [.report 11 .succeeded, .report 12 .queued, .report 12 .running, .recapRequest 50,
        .report 12 .succeeded] ∧
    (Pool.perform (worker Sample.accepting (Sample.setting .one False))
        (Sample.dayOf Sample.page Sample.fact) ⟨[], Db.empty⟩).state.outbox.map OutboxMessage.masked =
      (Pool.perform (worker Sample.accepting (Sample.setting .one False))
        (Sample.dayOf Sample.otherPage Sample.otherFact) ⟨[], Db.empty⟩).state.outbox.map
          OutboxMessage.masked :=
  ⟨by decide +kernel,
    posts_unseen (Sample.setting .one False) Sample.other Sample.other_free Sample.accepting_blind
      Sample.days_like⟩

end ChannelDigests
