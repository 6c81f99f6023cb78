import ChannelDigests.Disguise
import ChannelDigests.Selection

/-!
# Statements on disguised databases

Each statement does the same to two databases that resemble each other: it is refused by both or by
neither, answers the same up to the disguise, and leaves databases that resemble each other.

* `insertInbox_like`, `enqueue_like`, `reportOwned_like`   the statements of all handlers;
* `updateRuns_like`, `insertManifest_like`, `insertResult_like`   those of the coordinator;
* `appendRevision_like`, `withdraw_like`, `minimize_like`  those on the texts;
* `selectSources_like`    the selection takes corresponding sources.
-/

namespace ChannelDigests
open Lib

namespace Disguise
variable {C : Contracts} {D : Disguise C} {d d' : Db} {ε : Type} {lost : ε}

/-! ## Inbox and reports -/

theorem Resembles.inboxHolds (h : D.Resembles d d') (messageId : Uuid) (subject : Subject)
    (key : InboxKey) : d.inboxHolds messageId subject key = d'.inboxHolds messageId subject key := by
  obtain ⟨-, -, -, hi, -⟩ := h
  refine any_alike hi fun r r' hr => ?_
  obtain ⟨sha, rfl⟩ := hr
  rfl

theorem insertInbox_like (h : D.Resembles d d') {row row' : InboxMessage} (hrow : InboxLike row row') :
    (insertInbox lost row).Abreast (Paired D.Resembles Eq) (insertInbox lost row') d d' := by
  obtain ⟨sha, rfl⟩ := hrow
  have hholds := h.inboxHolds row.messageId row.subject row.semanticKey
  refine alike_change ?_ (congrArg not hholds)
  dsimp only
  rw [hholds]
  split_ifs
  · exact h
  · obtain ⟨hr, hm, hx, hi, ho⟩ := h
    exact ⟨hr, hm, hx, List.rel_append (R := InboxLike) hi (.cons ⟨sha, rfl⟩ .nil), ho⟩

theorem completeInbox_like (h : D.Resembles d d') (messageId : Uuid) (now : Instant) :
    (completeInbox lost messageId now).Abreast (Paired D.Resembles Eq)
      (completeInbox lost messageId now) d d' := by
  refine alike_change ?_ rfl
  obtain ⟨hr, hm, hx, hi, ho⟩ := h
  refine ⟨hr, hm, hx, updateWhere_alike hi (fun r r' hrow => ?_) (fun r r' hrow => ?_), ho⟩
  · obtain ⟨sha, rfl⟩ := hrow
    rfl
  · obtain ⟨sha, rfl⟩ := hrow
    exact ⟨sha, rfl⟩

theorem Resembles.outboxHolds (h : D.Resembles d d') (key : OutboxKey) :
    d.outboxHolds key = d'.outboxHolds key := by
  obtain ⟨-, -, -, -, ho⟩ := h
  refine any_alike ho fun r r' hr => ?_
  obtain ⟨payload, -, rfl⟩ := hr
  rfl

theorem Resembles.outboxId (h : D.Resembles d d') (outboxId : Uuid) :
    d.outbox.any (fun r => r.outboxId = outboxId) = d'.outbox.any fun r => r.outboxId = outboxId := by
  obtain ⟨-, -, -, -, ho⟩ := h
  refine any_alike ho fun r r' hr => ?_
  obtain ⟨payload, -, rfl⟩ := hr
  rfl

theorem Resembles.queue (h : D.Resembles d d') {row row' : OutboxMessage} (hrow : OutboxLike row row') :
    D.Resembles { d with outbox := d.outbox ++ [row] } { d' with outbox := d'.outbox ++ [row'] } := by
  obtain ⟨hr, hm, hx, hi, ho⟩ := h
  exact ⟨hr, hm, hx, hi, List.rel_append (R := OutboxLike) ho (.cons hrow .nil)⟩

theorem outboxLike_refl (row : OutboxMessage) : OutboxLike row row := ⟨row.payload, .same _, rfl⟩

theorem insertOutboxOnce_like (h : D.Resembles d d') (row : OutboxMessage) :
    (insertOutboxOnce lost row).Abreast (Paired D.Resembles Eq) (insertOutboxOnce lost row) d d' := by
  refine alike_attempt ?_
  rw [← h.outboxHolds, ← h.outboxId]
  split_ifs
  · exact ⟨h, rfl⟩
  · rfl
  · exact ⟨h.queue (outboxLike_refl row), rfl⟩

section
variable [FromReportError ε]

theorem enqueue_like (h : D.Resembles d d') (row : OperationReportRow) (outboxId : Uuid)
    (now : Instant) : (row.enqueue C outboxId now : Sql ε Unit).Abreast (Paired D.Resembles Eq)
      (row.enqueue C outboxId now) d d' :=
  alike_seq (alike_check h) fun _ _ _ _ h _ => insertOutboxOnce_like h _

theorem Resembles.runs (h : D.Resembles d d') : d'.runs = d.runs := by
  cases h
  rfl

theorem reportOwned_like (h : D.Resembles d d') (runId ownerId : Uuid)
    (report : Uuid → OperationReportRow) (outboxId : Uuid) (now : Instant) :
    (reportOwned C runId ownerId report outboxId now : Sql ε Unit).Abreast (Paired D.Resembles Eq)
      (reportOwned C runId ownerId report outboxId now) d d' := by
  refine alike_seq (V := Eq) (alike_read h ?_) fun operation _ _ _ h he => ?_
  · simp only [Db.onDemandOperation, h.runs]
  · subst he
    cases operation with
    | none => exact alike_pure h rfl
    | some operation => exact enqueue_like h _ _ _

end

/-! ## Runs -/

theorem Resembles.setRuns (h : D.Resembles d d') (runs : List Run) :
    D.Resembles { d with runs := runs } { d' with runs := runs } := by
  obtain ⟨hr, hm, hx, hi, ho⟩ := h
  exact ⟨hr, hm, hx, hi, ho⟩

theorem updateRuns_like (h : D.Resembles d d') (p : Run → Bool) (u : Run → Run) :
    (updateRuns lost p u).Abreast (Paired D.Resembles Eq) (updateRuns lost p u) d d' := by
  refine alike_change ?_ (by rw [h.runs])
  rw [h.runs]
  exact h.setRuns _

/-- a statement that is allowed alike. -/
theorem guarded_like {e : ε} {f f' : Db → Option Db} (h : Option.Rel D.Resembles (f d) (f' d')) :
    (guarded e f).Abreast (Paired D.Resembles Eq) (guarded e f') d d' := by
  refine alike_attempt ?_
  generalize f d = x at h ⊢
  generalize f' d' = x' at h ⊢
  cases h with
  | none => rfl
  | some h => exact ⟨h, rfl⟩

theorem insertRun_like (h : D.Resembles d d') (run : Run) :
    Option.Rel (fun x x' : Bool × Db => x'.1 = x.1 ∧ D.Resembles x.2 x'.2) (d.insertRun run)
      (d'.insertRun run) := by
  unfold Db.insertRun
  rw [h.runs]
  split_ifs
  · exact .none
  · exact .some ⟨rfl, h⟩
  · exact .none
  · exact .some ⟨rfl, h.setRuns _⟩

/-! ## Manifests and results -/

theorem Resembles.anyManifest (h : D.Resembles d d') (p : Manifest → Bool)
    (hp : ∀ m sha text, p { m with sha256 := sha, canonicalText := text } = p m) :
    d.manifests.any p = d'.manifests.any p := by
  obtain ⟨-, hm, -, -, -⟩ := h
  refine any_alike hm fun m m' hlike => ?_
  obtain ⟨sha, text, -, -, rfl⟩ := hlike
  exact (hp m sha text).symm

/-- the manifests that are found correspond. -/
theorem Resembles.findManifest (h : D.Resembles d d') (p : Manifest → Bool)
    (hp : ∀ m sha text, p { m with sha256 := sha, canonicalText := text } = p m) :
    Option.Rel D.ManifestLike (d.manifests.find? p) (d'.manifests.find? p) := by
  obtain ⟨-, hm, -, -, -⟩ := h
  have hfind := find_alike (p := p) (q := p) hm fun m m' hlike => by
    obtain ⟨sha, text, -, -, rfl⟩ := hlike
    exact (hp m sha text).symm
  rcases hfind with ⟨h1, h2⟩ | ⟨m, m', h1, h2, hlike⟩
  · rw [h1, h2]
    exact .none
  · rw [h1, h2]
    exact .some hlike

theorem insertManifest_like (h : D.Resembles d d') {row row' : Manifest}
    (hrow : D.ManifestLike row row') : (insertManifest row).Abreast (Paired D.Resembles Eq)
      (insertManifest row') d d' := by
  have hlike := hrow
  obtain ⟨digest, text, hdigest, htext, rfl⟩ := hrow
  refine alike_attempt ?_
  rw [← h.anyManifest (fun m => m.runId = row.runId) fun _ _ _ => rfl,
    ← h.anyManifest (fun m => m.manifestId = row.manifestId) fun _ _ _ => rfl, h.runs]
  show Likewise _ _ (if (!row.countsOk) = true then _ else _)
  split_ifs
  · rfl
  · exact ⟨h, rfl⟩
  · rfl
  · rfl
  · obtain ⟨hr, hm, hx, hi, ho⟩ := h
    exact ⟨⟨hr, List.rel_append (R := D.ManifestLike) hm (.cons hlike .nil), hx, hi, ho⟩, rfl⟩

theorem insertManifestSources_like (h : D.Resembles d d') (links : List ManifestSourceLink) :
    (insertManifestSources links).Abreast (Paired D.Resembles Eq) (insertManifestSources links)
      d d' := by
  refine alike_attempt ?_
  obtain ⟨hr, hm, hx, hi, ho⟩ := h
  dsimp only
  split_ifs
  · exact ⟨⟨hr, hm, hx, hi, ho⟩, rfl⟩
  · rfl

theorem insertOutbox_like (h : D.Resembles d d') {row row' : OutboxMessage}
    (hrow : OutboxLike row row') :
    (insertOutbox row).Abreast (Paired D.Resembles Eq) (insertOutbox row') d d' := by
  have hlike := hrow
  obtain ⟨payload, -, rfl⟩ := hrow
  refine alike_attempt ?_
  rw [← h.outboxHolds, ← h.outboxId]
  dsimp only
  split_ifs
  · rfl
  · exact ⟨h.queue hlike, rfl⟩

theorem insertResult_like (h : D.Resembles d d') {row row' : DigestResult}
    (hrow : D.ResultLike row row') :
    (insertResult row).Abreast (Paired D.Resembles Eq) (insertResult row') d d' := by
  have hlike := hrow
  obtain ⟨digest, -, rfl⟩ := hrow
  obtain ⟨hr, hm, hx, hi, ho⟩ := h
  refine alike_attempt ?_
  dsimp only
  rw [any_alike (q := fun r : DigestResult => decide (r.resultId = row.resultId) ||
      decide (r.runId = row.runId) || decide (r.manifestId = row.manifestId)) hx fun x x' hx => by
    obtain ⟨_, -, rfl⟩ := hx
    rfl, all_alike (q := fun m : Manifest => decide (m.manifestId ≠ row.manifestId)) hm
      fun m m' hm => by
    obtain ⟨_, _, -, -, rfl⟩ := hm
    rfl]
  split_ifs
  · rfl
  · rfl
  · exact ⟨⟨hr, hm, List.rel_append (R := D.ResultLike) hx (.cons hlike .nil), hi, ho⟩, rfl⟩

/-- the evidence of a result corresponds. -/
theorem resultEvidence_like (h : D.Resembles d d') (resultId : Uuid) :
    Option.Rel (fun x x' : DigestResult × Digest => D.ResultLike x.1 x'.1 ∧
      D.ManifestDigest x.2 x'.2) (d.resultEvidence resultId) (d'.resultEvidence resultId) := by
  have hfind : Option.Rel D.ResultLike (d.results.find? fun r => r.resultId = resultId)
      (d'.results.find? fun r => r.resultId = resultId) := by
    obtain ⟨-, -, hx, -, -⟩ := h
    rcases find_alike (p := fun r : DigestResult => decide (r.resultId = resultId))
      (q := fun r : DigestResult => decide (r.resultId = resultId)) hx fun x x' hx => by
        obtain ⟨_, -, rfl⟩ := hx
        rfl with ⟨h1, h2⟩ | ⟨x, x', h1, h2, hlike⟩
    · rw [h1, h2]
      exact .none
    · rw [h1, h2]
      exact .some hlike
  unfold Db.resultEvidence
  generalize (d.results.find? fun r => r.resultId = resultId) = o at hfind ⊢
  generalize (d'.results.find? fun r => r.resultId = resultId) = o' at hfind ⊢
  cases hfind with
  | none => exact .none
  | @some x x' hx =>
    have hid : x'.manifestId = x.manifestId := by
      obtain ⟨_, -, rfl⟩ := hx
      rfl
    have hm := h.findManifest (fun m => m.manifestId = x.manifestId) fun _ _ _ => rfl
    show Option.Rel _ ((d.manifests.find? fun m => m.manifestId = x.manifestId).bind _)
      ((d'.manifests.find? fun m => m.manifestId = x'.manifestId).bind _)
    rw [hid]
    generalize (d.manifests.find? fun m => m.manifestId = x.manifestId) = o at hm ⊢
    generalize (d'.manifests.find? fun m => m.manifestId = x.manifestId) = o' at hm ⊢
    cases hm with
    | none => exact .none
    | some hm =>
      obtain ⟨sha, text, hsha, -, rfl⟩ := hm
      exact .some ⟨hx, hsha⟩

/-- the run that waits and its manifest correspond. -/
theorem durable_like (h : D.Resembles d d') (runId ownerId : Uuid) :
    Option.Rel (fun x x' : Run × Manifest => x'.1 = x.1 ∧ D.ManifestLike x.2 x'.2)
      (d.durable runId ownerId) (d'.durable runId ownerId) := by
  have hm := h.findManifest (fun m => m.runId = runId) fun _ _ _ => rfl
  have hown : d'.ownRun runId ownerId = d.ownRun runId ownerId := by
    unfold Db.ownRun
    rw [h.runs]
  unfold Db.durable Db.manifestOf
  rw [hown]
  cases d.ownRun runId ownerId with
  | none => exact .none
  | some r =>
    generalize (d.manifests.find? fun m => m.runId = runId) = o at hm ⊢
    generalize (d'.manifests.find? fun m => m.runId = runId) = o' at hm ⊢
    cases hm with
    | none => exact .none
    | @some m m' hlike =>
      have howner : m'.ownerId = m.ownerId := by
        obtain ⟨_, _, -, -, rfl⟩ := hlike
        rfl
      show Option.Rel _ (if m.ownerId = ownerId then _ else _) (if m'.ownerId = ownerId then _ else _)
      rw [howner]
      split_ifs
      · exact .some ⟨rfl, hlike⟩
      · exact .none

/-! ## Texts -/

/-- the digests of corresponding texts are equal or different in the same places. -/
theorem hashed_same (hC : D.CollisionFree) {t t' u u' : String} (h : D.text t t')
    (h' : D.text u u') : C.textDigest t = C.textDigest u ↔ C.textDigest t' = C.textDigest u' := by
  obtain ⟨hfree, hfree'⟩ := hC.texts h h'
  have hsame := D.textSame h h'
  exact ⟨fun he => congrArg C.textDigest (hsame.mp (hfree he)),
    fun he => congrArg C.textDigest (hsame.mpr (hfree' he))⟩

theorem contentKey_like (hC : D.CollisionFree) {r r' o o' : Revision}
    (h : D.RevisionLike r r') (h' : D.RevisionLike o o') :
    r.contentKey = o.contentKey ↔ r'.contentKey = o'.contentKey := by
  obtain ⟨t, t', _, ht, hr, -, rfl⟩ := h
  obtain ⟨u, u', _, hu, ho, -, rfl⟩ := h'
  simp only [Revision.contentKey, Prod.mk.injEq, hr, ho, hashed_same hC ht hu]

theorem Resembles.anyRevision (h : D.Resembles d d') {p q : Revision → Bool}
    (hpq : ∀ r r', D.RevisionLike r r' → p r = q r') :
    d.revisions.any p = d'.revisions.any q := by
  obtain ⟨hr, -, -, -, -⟩ := h
  exact any_alike hr hpq

theorem appendRevision_like (hC : D.CollisionFree) (h : D.Resembles d d')
    {row row' : Revision} (hrow : D.RevisionLike row row') :
    Option.Rel D.Resembles (d.appendRevision row) (d'.appendRevision row') := by
  have hkey := h.anyRevision (p := fun r => r.contentKey = row.contentKey)
    (q := fun r => r.contentKey = row'.contentKey) fun r r' hr =>
      decide_eq_decide.mpr (contentKey_like hC hr hrow)
  have hlike := hrow
  obtain ⟨t, t', body, -, -, -, rfl⟩ := hrow
  have hid := h.anyRevision (p := fun r => r.revisionId = row.revisionId)
    (q := fun r => r.revisionId = row.revisionId) fun r r' hr => by
      obtain ⟨_, _, _, -, -, -, rfl⟩ := hr
      rfl
  obtain ⟨hr, hm, hx, hi, ho⟩ := h
  unfold Db.appendRevision
  rw [hkey, hid]
  split_ifs
  · exact .some ⟨hr, hm, hx, hi, ho⟩
  · exact .none
  · exact .none
  · exact .some ⟨List.rel_append (R := D.RevisionLike) hr (.cons hlike .nil), hm, hx, hi, ho⟩

theorem revisionLike_withdraw {r r' : Revision} (h : D.RevisionLike r r') (now : Instant) :
    D.RevisionLike (r.withdraw now) (r'.withdraw now) := by
  obtain ⟨t, t', _, ht, hr, -, rfl⟩ := h
  exact ⟨t, t', none, ht, hr, .inr ⟨rfl, rfl⟩, rfl⟩

theorem revisionLike_minimize {r r' : Revision} (h : D.RevisionLike r r') (now : Instant) :
    D.RevisionLike (r.minimize now) (r'.minimize now) := by
  obtain ⟨t, t', _, ht, hr, -, rfl⟩ := h
  exact ⟨t, t', none, ht, hr, .inr ⟨rfl, rfl⟩, rfl⟩

theorem manifestLike_minimize {m m' : Manifest} (h : D.ManifestLike m m') (now : Instant) :
    D.ManifestLike (m.minimize now) (m'.minimize now) := by
  obtain ⟨sha, _, hsha, -, rfl⟩ := h
  exact ⟨sha, none, hsha, rfl, rfl⟩

theorem withdraw_like (h : D.Resembles d d') (channelId : Uuid) (g : Int → Bool) (now : Instant) :
    D.Resembles (d.withdraw channelId g now) (d'.withdraw channelId g now) := by
  obtain ⟨hr, hm, hx, hi, ho⟩ := h
  refine ⟨updateWhere_alike hr (fun r r' hrow => ?_) fun _ _ hrow => revisionLike_withdraw hrow now,
    updateWhere_alike hm (fun m m' hrow => ?_) fun _ _ hrow => manifestLike_minimize hrow now,
    hx, hi, ho⟩
  · obtain ⟨_, _, _, -, -, -, rfl⟩ := hrow
    rfl
  · obtain ⟨_, text, -, htext, rfl⟩ := hrow
    dsimp only
    rw [htext]

/-- the revisions that a sweep minimizes are the same rows. -/
theorem agedRevisions_like (h : D.Resembles d d') (before : Instant) (limit : Nat) :
    List.Forall₂ D.RevisionLike (d.agedRevisions before limit) (d'.agedRevisions before limit) := by
  obtain ⟨hr, -, -, -, -⟩ := h
  refine List.forall₂_take limit (sort_alike (filter_alike hr fun r r' hrow => ?_)
    fun a a' b b' ha hb => ?_)
  · obtain ⟨_, _, body, -, -, hbody, rfl⟩ := hrow
    rcases hbody with ⟨h1, rfl⟩ | ⟨h1, rfl⟩ <;> simp [h1]
  · obtain ⟨_, _, _, -, -, -, rfl⟩ := ha
    obtain ⟨_, _, _, -, -, -, rfl⟩ := hb
    exact Iff.rfl

theorem minimizeRevisions_like (h : D.Resembles d d') (before : Instant) (limit : Nat)
    (now : Instant) :
    D.Resembles (d.minimizeRevisions before limit now) (d'.minimizeRevisions before limit now) := by
  have hids : (d.agedRevisions before limit).map (·.revisionId) =
      (d'.agedRevisions before limit).map (·.revisionId) :=
    map_alike (agedRevisions_like h before limit) fun r r' hrow => by
      obtain ⟨_, _, _, -, -, -, rfl⟩ := hrow
      rfl
  unfold Db.minimizeRevisions
  rw [hids]
  obtain ⟨hr, hm, hx, hi, ho⟩ := h
  refine ⟨updateWhere_alike hr (fun r r' hrow => ?_) fun _ _ hrow => revisionLike_minimize hrow now,
    hm, hx, hi, ho⟩
  obtain ⟨_, _, _, -, -, -, rfl⟩ := hrow
  rfl

theorem agedManifests_like (h : D.Resembles d d') (before : Instant) (limit : Nat) :
    List.Forall₂ D.ManifestLike (d.agedManifests before limit) (d'.agedManifests before limit) := by
  have hstart : ∀ m m', D.ManifestLike m m' → d.settledWindowStart m = d'.settledWindowStart m' := by
    intro m m' hrow
    obtain ⟨_, _, -, -, rfl⟩ := hrow
    unfold Db.settledWindowStart
    rw [h.runs]
  have hm : List.Forall₂ D.ManifestLike d.manifests d'.manifests := by
    obtain ⟨-, hm, -, -, -⟩ := h
    exact hm
  refine List.forall₂_take limit (sort_alike (filter_alike hm fun m m' hrow => ?_)
    fun a a' b b' ha hb => ?_)
  · rw [hstart m m' hrow]
    obtain ⟨_, text, -, htext, rfl⟩ := hrow
    dsimp only
    rw [htext]
  · rw [hstart _ _ ha, hstart _ _ hb]
    obtain ⟨_, _, -, -, rfl⟩ := ha
    obtain ⟨_, _, -, -, rfl⟩ := hb
    exact Iff.rfl

theorem minimizeManifests_like (h : D.Resembles d d') (before : Instant) (limit : Nat)
    (now : Instant) :
    D.Resembles (d.minimizeManifests before limit now) (d'.minimizeManifests before limit now) := by
  have hids : (d.agedManifests before limit).map (·.manifestId) =
      (d'.agedManifests before limit).map (·.manifestId) :=
    map_alike (agedManifests_like h before limit) fun m m' hrow => by
      obtain ⟨_, _, -, -, rfl⟩ := hrow
      rfl
  unfold Db.minimizeManifests
  rw [hids]
  obtain ⟨hr, hm, hx, hi, ho⟩ := h
  refine ⟨hr, updateWhere_alike hm (fun m m' hrow => ?_) fun _ _ hrow => manifestLike_minimize hrow now,
    hx, hi, ho⟩
  obtain ⟨_, _, -, -, rfl⟩ := hrow
  rfl

/-! ## Selecting -/

theorem windowRevisions_like (h : D.Resembles d d') (run : PendingRun) :
    List.Forall₂ D.RevisionLike (d.windowRevisions run) (d'.windowRevisions run) := by
  obtain ⟨hr, -, -, -, -⟩ := h
  refine filter_alike hr fun r r' hrow => ?_
  obtain ⟨_, _, _, -, -, -, rfl⟩ := hrow
  rfl

theorem sameMessage_like {r r' o o' : Revision} (h : D.RevisionLike r r') (h' : D.RevisionLike o o') :
    r.sameMessage o = r'.sameMessage o' ∧ r.before o = r'.before o' := by
  obtain ⟨_, _, _, -, -, -, rfl⟩ := h
  obtain ⟨_, _, _, -, -, -, rfl⟩ := h'
  exact ⟨rfl, rfl⟩

/-- the latest revisions correspond, and have their texts. -/
theorem latestRevisions_like (h : D.Resembles d d') (run : PendingRun) :
    List.Forall₂ (fun r r' => r.eligible = true ∧ D.RevisionLike r r') (d.latestRevisions run)
      (d'.latestRevisions run) := by
  have heligible : List.Forall₂ D.RevisionLike
      ((d.windowRevisions run).filter fun r =>
        r.eligible && d.channels.any fun c => c.channelId = r.channelId)
      ((d'.windowRevisions run).filter fun r =>
        r.eligible && d'.channels.any fun c => c.channelId = r.channelId) := by
    refine filter_alike (windowRevisions_like h run) fun r r' hrow => ?_
    obtain ⟨hr, -, -, -, -⟩ := h
    obtain ⟨_, _, body, -, -, hbody, rfl⟩ := hrow
    rcases hbody with ⟨h1, rfl⟩ | ⟨h1, rfl⟩ <;> simp [Revision.eligible, h1]
  refine List.forall₂_and_left _ _ |>.mpr ⟨fun r hr => ?_, ?_⟩
  · exact (mem_latestRevisions.mp hr).1.2.1
  · refine filter_alike heligible fun r r' hrow => congrArg not (any_alike heligible fun o o' ho => ?_)
    rw [(sameMessage_like hrow ho).1, (sameMessage_like hrow ho).2]

theorem revisionIndex_like (h : D.Resembles d d') (run : PendingRun) {r r' : Revision}
    (hrow : D.RevisionLike r r') : d.revisionIndex run r = d'.revisionIndex run r' := by
  unfold Db.revisionIndex
  rw [countP_alike (windowRevisions_like h run) fun o o' ho => by
    rw [(sameMessage_like hrow ho).1, (sameMessage_like ho hrow).2]]

theorem manifestSource_like (h : D.Resembles d d') (run : PendingRun) {r r' : Revision}
    (he : r.eligible = true) (hrow : D.RevisionLike r r') :
    D.SelectedLike (d.manifestSource run r) (d'.manifestSource run r') := by
  have hindex := revisionIndex_like h run hrow
  obtain ⟨hr, -, -, -, -⟩ := h
  obtain ⟨t, t', body, ht, hdigest, hbody, rfl⟩ := hrow
  rcases hbody with ⟨hbody, rfl⟩ | ⟨hbody, -⟩
  · refine ⟨t', ?_, ?_, ?_⟩
    · simpa [Db.manifestSource, hbody] using ht
    · simpa [Db.manifestSource, hbody] using hdigest
    · unfold Db.manifestSource
      rw [← hindex]
      rfl
  · simp [Revision.eligible, hbody] at he

/-- **The selection takes corresponding sources.** -/
theorem selectSources_like (h : D.Resembles d d') (run : PendingRun) (cap : Nat) :
    List.Forall₂ D.SelectedLike (d.selectSources run cap).sources (d'.selectSources run cap).sources ∧
      (d.selectSources run cap).eligible = (d'.selectSources run cap).eligible := by
  have hlatest := latestRevisions_like h run
  refine ⟨?_, hlatest.length_eq⟩
  unfold Db.selectSources
  refine reverse_alike ?_
  rw [List.forall₂_map_left_iff, List.forall₂_map_right_iff]
  refine (List.forall₂_take cap (sort_alike hlatest fun a a' b b' ha hb => ?_)).imp
    fun r r' hrow => manifestSource_like h run hrow.1 hrow.2
  obtain ⟨-, _, _, _, -, -, -, rfl⟩ := ha
  obtain ⟨-, _, _, _, -, -, -, rfl⟩ := hb
  exact Iff.rfl

end Disguise

end ChannelDigests
