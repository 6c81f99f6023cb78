import ChannelDigests.Change

/-!
# The transactions commit what their effects say

One lemma a transaction, in the form of its precondition: whatever statement is lost, the
transaction ends with an error or a rollback and leaves the database as it was, or it commits the
effect of its name.

* `wp_enqueue`, `wp_insertInbox`, `wp_reportOwned`   the statements that are shared;
* `rejectTx_closes` … `registrationTx_closes`        the transactions.
-/

namespace ChannelDigests
open Lib

section
variable {C : Contracts} {faulty : Prop} {ε : Type} {lost : ε} {d : Db}

/-! ## Shared statements -/

theorem wp_enqueue [FromReportError ε] {row : OperationReportRow} {id : Uuid} {now : Instant}
    {Q : Unit → Db → Prop} {E : ε → Prop} (hE : ∀ e, E e)
    (h : ∀ ob, Offered d.outbox (row.outboxRow id now) ob → Q () { d with outbox := ob }) :
    (row.enqueue C id now : Sql ε Unit).wp faulty Q E d := by
  simp only [OperationReportRow.enqueue, Tx.wp_bind, Tx.wp_check]
  refine ⟨fun _ => ?_, fun _ => hE _⟩
  simp only [insertOutboxOnce, Tx.wp_attempt]
  refine ⟨fun _ => hE _, fun a d' hd => ?_, fun e _ => hE e⟩
  split_ifs at hd with h1 h2
  · cases hd
    refine h _ (.inl ⟨rfl, ?_⟩)
    simpa [Db.outboxHolds] using h1
  · cases hd
    refine h _ (.inr ⟨rfl, ?_, ?_⟩)
    · simpa [Db.outboxHolds] using h1
    · simpa using h2

/-- a report for the operation that owns a run, when one does. -/
theorem wp_reportOwned [FromReportError ε] {runId ownerId id : Uuid} {now : Instant}
    {report : Uuid → OperationReportRow} {Q : Unit → Db → Prop} {E : ε → Prop} (hE : ∀ e, E e)
    (h : ∀ ob, OfferedOwned d.outbox (d.onDemandOperation runId ownerId) report id now ob →
      Q () { d with outbox := ob }) :
    (reportOwned C runId ownerId report id now : Sql ε Unit).wp faulty Q E d := by
  simp only [reportOwned, onDemandOperation, Tx.wp_bind, Tx.wp_read]
  refine ⟨fun _ => hE _, ?_⟩
  rcases hop : d.onDemandOperation runId ownerId with _ | operation
  · exact h d.outbox (by rw [hop]; rfl)
  · exact wp_enqueue hE fun ob hob => h ob (by rw [hop]; exact hob)

theorem wp_insertInbox {row : InboxMessage} {Q : Bool → Db → Prop} {E : ε → Prop}
    (hE : faulty → E lost)
    (hT : d.inboxHolds row.messageId row.subject row.semanticKey = true → Q false d)
    (hF : d.inboxHolds row.messageId row.subject row.semanticKey = false →
      Q true { d with inbox := d.inbox ++ [row] }) :
    (insertInbox lost row).wp faulty Q E d := by
  simp only [insertInbox, Tx.wp_change]
  refine ⟨hE, ?_⟩
  cases hh : d.inboxHolds row.messageId row.subject row.semanticKey with
  | true => simpa using hT hh
  | false => simpa using hF hh

/-- claiming the inbox row of a message. -/
theorem wp_claim {messageId : Uuid} {subject : Subject} {key : InboxKey} {sha : Digest}
    {Q : Bool → Db → Prop} {E : ε → Prop} (hE : faulty → E lost)
    (hT : d.inboxHolds messageId subject key = true → Q false d)
    (hF : d.inboxHolds messageId subject key = false →
      Q true { d with inbox := d.inbox ++ [.processing messageId subject key sha] }) :
    (insertInbox lost (.processing messageId subject key sha)).wp faulty Q E d :=
  wp_insertInbox hE hT hF

/-- completing the row that was just inserted. -/
theorem complete_snoc {messageId : Uuid} {subject : Subject} {key : InboxKey} {sha : Digest}
    {now : Instant} (h : d.inboxHolds messageId subject key = false) :
    updateWhere (fun r => r.messageId = messageId) (InboxMessage.complete now)
      (d.inbox ++ [.processing messageId subject key sha]) =
      d.inbox ++ [.handled messageId subject key sha now] := by
  rw [updateWhere_append, updateWhere_none]
  · simp [updateWhere, InboxMessage.handled, InboxMessage.processing]
  · intro r hr
    simp only [Db.inboxHolds, List.any_eq_false] at h
    have := h r hr
    simp at this
    simpa using this.1

/-- the operation that owns a run is not touched by an update that keeps its columns. -/
theorem operationIn_update {p : Run → Bool} {u : Run → Run}
    (hu : ∀ r, (u r).runId = r.runId ∧ (u r).ownerId = r.ownerId ∧ (u r).trigger = r.trigger ∧
      (u r).operationId = r.operationId) (runId ownerId : Uuid) (runs : List Run) :
    operationIn (updateWhere p u runs) runId ownerId = operationIn runs runId ownerId := by
  unfold operationIn
  induction runs with
  | nil => rfl
  | cons r rows ih =>
    obtain ⟨h1, h2, h3, h4⟩ := hu r
    show Option.map _ (List.find? _ ((if p r then u r else r) :: updateWhere p u rows)) = _
    rw [List.find?_cons, List.find?_cons]
    by_cases hp : p r = true
    · simp only [if_pos hp, h1, h2, h3]
      cases decide (r.runId = runId) && decide (r.ownerId = ownerId) &&
        decide (r.trigger = Trigger.onDemand) <;> simp [h4, ih]
    · simp only [if_neg hp]
      cases decide (r.runId = runId) && decide (r.ownerId = ownerId) &&
        decide (r.trigger = Trigger.onDemand) <;> simp [ih]

end

/-! ## Intake -/

section
variable {C : Contracts} {faulty : Prop} {d : Db} {m : Moment} {messageId : Uuid} {sha : Digest}

theorem rejectTx_closes {r : Rejection} {Q : Except IntakeError IntakeOutcome → Db → Prop}
    (hE : ∀ e, faulty ∨ d.inboxHolds r.messageId r.subject (.text r.semanticKey) = false →
      Q (.error e) d)
    (hR : d.inboxHolds r.messageId r.subject (.text r.semanticKey) = true → Q (.ok .replayed) d)
    (hA : ∀ d', CommandRejected m d d' r → Q (.ok .applied) d') :
    (rejectTx C r m).closes faulty Q d := by
  unfold Tx.closes rejectTx
  simp only [Tx.wp_bind, Tx.wp_mark]
  refine ⟨fun h => hE _ (.inl h), wp_insertInbox (fun h => hE _ (.inl h)) (fun h => ?_) fun h => ?_⟩
  · simp only [Bool.not_false, if_true, Tx.wp_rollback]
    exact ⟨fun h => hE _ (.inl h), hR h⟩
  · simp only [Bool.not_true, Bool.false_eq_true, if_false, Tx.wp_bind]
    refine wp_enqueue (fun e => hE e (.inr h)) fun ob hob => ?_
    exact ⟨fun h => hE _ (.inl h), hA _ ⟨h, ob, hob, rfl⟩⟩

theorem withChannel_eq {channelId : Uuid} {username : String} {c : Uuid} {d₁ : Db}
    (h : d.withChannel channelId username = some (c, d₁)) :
    d₁ = { d with channels := d₁.channels } := by
  unfold Db.withChannel at h
  split at h
  · simp only [Option.some.injEq, Prod.mk.injEq] at h
    obtain ⟨-, rfl⟩ := h
    rfl
  · split_ifs at h
    simp only [Option.some.injEq, Prod.mk.injEq] at h
    obtain ⟨-, rfl⟩ := h
    rfl

/-- `set_subscription` touches channels and subscriptions only. -/
theorem setSubscription_eq {sid cid owner : Uuid} {username : String} {enabled : Bool}
    {now : Instant} {s : Subscription} {d₁ : Db}
    (h : d.setSubscription sid cid owner username enabled now = .row s d₁) :
    d₁ = { d with channels := d₁.channels, subscriptions := d₁.subscriptions } := by
  unfold Db.setSubscription at h
  rcases hc : d.withChannel cid (lower username) with _ | ⟨c, d₀⟩
  · simp [hc] at h
  · have h0 := withChannel_eq hc
    simp only [hc] at h
    split at h
    · split_ifs at h
      cases h
      rw [h0]
    · split_ifs at h
      cases h
      rw [h0]

theorem subscriptionTx_closes {c : SubscriptionSetRequested}
    {Q : Except IntakeError Verdict → Db → Prop}
    (hE : ∀ e, faulty ∨ d.inboxHolds messageId .subscription (.text c.idempotencyKey) = false →
      Q (.error e) d)
    (hR : d.inboxHolds messageId .subscription (.text c.idempotencyKey) = true →
      Q (.ok (.outcome .replayed)) d)
    (hL : d.inboxHolds messageId .subscription (.text c.idempotencyKey) = false →
      Q (.ok .refused) d)
    (hA : ∀ d', SubscriptionApplied m d d' c messageId sha → Q (.ok (.outcome .applied)) d') :
    (subscriptionTx C c messageId sha m).closes faulty Q d := by
  unfold Tx.closes subscriptionTx
  simp only [Tx.wp_bind, Tx.wp_mark]
  refine ⟨fun h => hE _ (.inl h), wp_claim (fun h => hE _ (.inl h)) (fun h => ?_) fun h => ?_⟩
  · simp only [Bool.not_false, if_true, Tx.wp_rollback]
    exact ⟨fun h => hE _ (.inl h), hR h⟩
  · simp only [Bool.not_true, Bool.false_eq_true, if_false, Tx.wp_bind, setSubscription,
      Tx.wp_attempt]
    refine ⟨fun h => hE _ (.inl h), fun s d₁ hs => ?_, fun e _ => hE e (.inr h)⟩
    split at hs
    · cases hs
    · cases hs
      exact ⟨fun h => hE _ (.inl h), hL h⟩
    · next s d₁ hset =>
      cases hs
      have hd₁ := setSubscription_eq hset
      simp only [Tx.wp_bind]
      refine wp_enqueue (fun e => hE e (.inr h)) fun ob hob => ?_
      have hob' : d₁.outbox = d.outbox := by rw [hd₁]
      have hin : d₁.inbox = d.inbox ++
          [.processing messageId .subscription (.text c.idempotencyKey) sha] := by rw [hd₁]
      refine ⟨fun h => hE _ (.inl h), fun h => hE _ (.inl h),
        hA _ ⟨h, s, d₁, ob, hset, hob' ▸ hob, ?_⟩⟩
      show { d₁ with outbox := ob, inbox := _ } = _
      rw [hin, complete_snoc h]
      conv_lhs => rw [hd₁]

theorem wp_reportQueued {c : RunRequested} {Q : Unit → Db → Prop} {E : IntakeError → Prop}
    (hE : ∀ e, E e)
    (h : ∀ ob, OfferedQueued m c messageId d.outbox ob → Q () { d with outbox := ob }) :
    (reportQueued C c messageId m).wp faulty Q E d := by
  unfold reportQueued
  rw [Tx.wp_ite]
  refine ⟨fun ht => wp_enqueue hE fun ob hob => h ob ?_, fun ht => h d.outbox ?_⟩
  · simpa [OfferedQueued, ht] using hob
  · simp [OfferedQueued, ht]

theorem runTx_closes {c : RunRequested} {Q : Except IntakeError Verdict → Db → Prop}
    (hE : ∀ e, faulty ∨ d.inboxHolds messageId .run (.text c.idempotencyKey) = false →
      Q (.error e) d)
    (hR : d.inboxHolds messageId .run (.text c.idempotencyKey) = true →
      Q (.ok (.outcome .replayed)) d)
    (hF : d.inboxHolds messageId .run (.text c.idempotencyKey) = false → Q (.ok .refused) d)
    (hN : ∀ d', RunCreated m d d' c messageId sha → Q (.ok (.outcome .applied)) d')
    (hO : ∀ d', RunRepeated m d d' c messageId sha → Q (.ok (.outcome .applied)) d') :
    (runTx C c messageId sha m).closes faulty Q d := by
  unfold Tx.closes runTx
  simp only [Tx.wp_bind, Tx.wp_mark]
  refine ⟨fun h => hE _ (.inl h), wp_claim (fun h => hE _ (.inl h)) (fun h => ?_) fun h => ?_⟩
  · simp only [Bool.not_false, if_true, Tx.wp_rollback]
    exact ⟨fun h => hE _ (.inl h), hR h⟩
  · simp only [Bool.not_true, Bool.false_eq_true, if_false, Tx.wp_bind, createDigestRun,
      Tx.wp_attempt]
    refine ⟨fun h => hE _ (.inl h), fun s d₁ hs => ?_, fun e _ => hE e (.inr h)⟩
    unfold Db.insertRun at hs
    split_ifs at hs with hw hk hi
    · -- the natural key is taken: the run that holds it is selected.
      cases hs
      simp only [Tx.wp_ite, Tx.wp_rollback]
      refine ⟨fun _ => ⟨fun h => hE _ (.inl h), hF h⟩, fun hsel => ?_⟩
      simp only [Tx.wp_bind, setOutputLanguage, Tx.wp_change]
      refine ⟨fun h => hE _ (.inl h), wp_reportQueued (fun e => hE e (.inr h)) fun ob hob => ?_⟩
      refine ⟨fun h => hE _ (.inl h), fun h => hE _ (.inl h), hO _ ⟨h, ?_, ob, hob, ?_⟩⟩
      · obtain ⟨r, hr, hid⟩ := Option.map_eq_some_iff.mp (not_not.mp hsel)
        exact ⟨r, List.mem_of_find?_eq_some hr, by simpa using List.find?_some hr, hid⟩
      · show ({ d with runs := _, outbox := ob, inbox := _ } : Db) = _
        rw [complete_snoc h]
    · -- a new run.
      cases hs
      simp only [Tx.wp_ite, Tx.wp_rollback]
      refine ⟨fun hsel => absurd rfl hsel, fun _ => ?_⟩
      simp only [Tx.wp_bind, setOutputLanguage, Tx.wp_change]
      refine ⟨fun h => hE _ (.inl h), wp_reportQueued (fun e => hE e (.inr h)) fun ob hob => ?_⟩
      have hids : ∀ r ∈ d.runs, r.runId ≠ c.digestRunId := by
        intro r hr hid
        exact hi (List.any_eq_true.mpr ⟨r, hr, decide_eq_true hid⟩)
      have hwin : (c.run m.now).windowStart < (c.run m.now).windowEnd := by simpa using hw
      refine ⟨fun h => hE _ (.inl h), fun h => hE _ (.inl h),
        hN _ ⟨h, hwin, ?_, hids, ob, hob, ?_⟩⟩
      · intro r hr hkey
        exact hk (List.any_eq_true.mpr ⟨r, hr, by simpa using hkey⟩)
      · show ({ d with runs := _, outbox := ob, inbox := _ } : Db) = _
        rw [complete_snoc h, updateWhere_append, updateWhere_none]
        · simp [updateWhere, RunRequested.run, Run.accepted]
        · intro r hr
          simp [hids r hr]

/-- the loop of `fan_out`. -/
theorem wp_fanOutOwners {o : OccurrenceRequest} {subs : List Subscription} (owners : List Uuid) (n : Nat)
    {Q : Unit → Db → Prop} {E : CoordinatorError → Prop} (hE : ∀ e, E e)
    (h : ∀ runs, FannedOut m o subs owners n d.runs runs → Q () { d with runs := runs }) :
    (fanOutOwners o subs m owners n).wp faulty Q E d := by
  induction owners generalizing d n with
  | nil => exact h d.runs rfl
  | cons ownerId owners ih =>
    simp only [fanOutOwners, Tx.wp_bind, Tx.wp_mark, insertScheduledRun, guarded, Tx.wp_attempt]
    refine ⟨fun _ => hE _, fun _ => hE _, fun _ d₁ hd₁ => ?_, fun e _ => hE e⟩
    unfold Db.insertRun at hd₁
    split_ifs at hd₁ with hw hk hi <;> cases hd₁
    all_goals
      have hwin : (o.run subs (m.ids n) ownerId m.now).windowStart <
          (o.run subs (m.ids n) ownerId m.now).windowEnd := by simpa using hw
    · refine ih (n + 1) fun runs hruns => h runs ⟨hwin, d.runs, .inl ⟨rfl, ?_⟩, hruns⟩
      simpa using hk
    · refine ih (n + 1) fun runs hruns => h runs ⟨hwin, _, .inr ⟨rfl, ?_, ?_⟩, hruns⟩
      · simpa using hk
      · simpa using hi

theorem occurrenceTx_closes {o : OccurrenceRequest}
    {Q : Except CoordinatorError IntakeOutcome → Db → Prop}
    (hE : ∀ e, faulty ∨ d.inboxHolds o.messageId .occurrence (.text o.occurrenceKey) = false →
      Q (.error e) d)
    (hR : d.inboxHolds o.messageId .occurrence (.text o.occurrenceKey) = true →
      Q (.ok .replayed) d)
    (hA : ∀ d', OccurrenceFanned m d d' o → Q (.ok .applied) d') :
    (occurrenceTx C o m).closes faulty Q d := by
  unfold Tx.closes occurrenceTx
  simp only [Tx.wp_bind, Tx.wp_mark]
  refine ⟨fun h => hE _ (.inl h), wp_claim (fun h => hE _ (.inl h)) (fun h => ?_) fun h => ?_⟩
  · simp only [Bool.not_false, if_true, Tx.wp_rollback]
    exact ⟨fun h => hE _ (.inl h), hR h⟩
  · simp only [Bool.not_true, Bool.false_eq_true, if_false, Tx.wp_bind, fanOut, Tx.wp_read]
    refine ⟨fun h => hE _ (.inl h), wp_fanOutOwners _ _ (fun e => hE e (.inr h)) fun runs hruns => ?_⟩
    refine wp_enqueue (fun e => hE e (.inr h)) fun ob hob => ?_
    refine ⟨fun h => hE _ (.inl h), fun h => hE _ (.inl h), hA _ ⟨h, runs, ob, hruns, hob, ?_⟩⟩
    show ({ d with runs := runs, outbox := ob, inbox := _ } : Db) = _
    rw [complete_snoc h]

end

/-! ## Runs -/

section
variable {C : Contracts} {faulty : Prop} {d : Db} {m : Moment}

theorem Run.enter_keeps (state : RunState) (now : Instant) (r : Run) :
    (r.enter state now).runId = r.runId ∧ (r.enter state now).ownerId = r.ownerId ∧
      (r.enter state now).trigger = r.trigger ∧ (r.enter state now).operationId = r.operationId :=
  ⟨rfl, rfl, rfl, rfl⟩

theorem Run.fail_keeps (failureClass : String) (now : Instant) (r : Run) :
    (r.fail failureClass now).runId = r.runId ∧ (r.fail failureClass now).ownerId = r.ownerId ∧
      (r.fail failureClass now).trigger = r.trigger ∧
      (r.fail failureClass now).operationId = r.operationId := ⟨rfl, rfl, rfl, rfl⟩

theorem beginAcquisitionTx_closes {run : PendingRun} {Q : Except RunExecutionError Bool → Db → Prop}
    (hE : ∀ e, Q (.error e) d)
    (hD : d.runs.countP (Run.isAccepted run.runId) ≠ 1 → Q (.ok false) d)
    (hA : ∀ d', AcquisitionBegun m d d' run.runId run.ownerId → Q (.ok true) d') :
    (beginAcquisitionTx C run m).closes faulty Q d := by
  unfold Tx.closes beginAcquisitionTx
  simp only [Tx.wp_bind, Tx.wp_mark, updateRuns, Tx.wp_change, Tx.wp_ite, Tx.wp_drop]
  refine ⟨fun _ => hE _, fun _ => hE _, hD, fun h => ?_⟩
  refine wp_reportOwned hE fun ob hob => ⟨fun _ => hE _, hA _ ⟨not_not.mp h, ob, ?_, rfl⟩⟩
  rwa [Db.onDemandOperation, operationIn_update (Run.enter_keeps _ _)] at hob

theorem completeEmptyRunTx_closes {runId ownerId : Uuid}
    {Q : Except CoordinatorError Unit → Db → Prop} (hE : ∀ e, Q (.error e) d)
    (hA : ∀ d', RunCompletedEmpty m d d' runId ownerId → Q (.ok ()) d') :
    (completeEmptyRunTx C runId ownerId m).closes faulty Q d := by
  unfold Tx.closes completeEmptyRunTx
  simp only [Tx.wp_bind, Tx.wp_mark, updateRuns, Tx.wp_change, Tx.wp_ite, Tx.wp_throw]
  refine ⟨fun _ => hE _, fun _ => hE _, fun _ => hE _, fun h => ?_⟩
  refine wp_reportOwned hE fun ob hob => ⟨fun _ => hE _, hA _ ⟨not_not.mp h, ob, ?_, rfl⟩⟩
  rwa [Db.onDemandOperation, operationIn_update (Run.enter_keeps _ _)] at hob

theorem failRunTx_closes {runId ownerId : Uuid} {failure : RunFailure}
    {Q : Except CoordinatorError Unit → Db → Prop} (hE : ∀ e, Q (.error e) d)
    (hA : ∀ d', RunFailed m d d' runId ownerId failure → Q (.ok ()) d') :
    (failRunTx C runId ownerId failure m).closes faulty Q d := by
  unfold Tx.closes failRunTx
  simp only [Tx.wp_bind, Tx.wp_mark, updateRuns, Tx.wp_change, Tx.wp_ite, Tx.wp_throw]
  refine ⟨fun _ => hE _, fun _ => hE _, fun _ => hE _, fun h => ?_⟩
  refine wp_reportOwned hE fun ob hob => ⟨fun _ => hE _, hA _ ⟨not_not.mp h, ob, ?_, rfl⟩⟩
  rwa [Db.onDemandOperation, operationIn_update (Run.fail_keeps _ _)] at hob

theorem commitManifestTx_closes {manifest : CanonicalManifest} {request : RecapRequested}
    {Q : Except CoordinatorError IntakeOutcome → Db → Prop}
    (built : ∃ windowStart windowEnd sources, build C manifest.manifestId manifest.ownerId
      manifest.runId windowStart windowEnd sources = .ok manifest)
    (owned : d.holdsRun manifest.runId manifest.ownerId request.operationId)
    (announced : request.announces manifest = true) (hE : ∀ e, Q (.error e) d)
    (hR : (∃ r ∈ d.manifests, r.runId = manifest.runId ∧ r.manifestId = manifest.manifestId) →
      Q (.ok .replayed) d)
    (hA : ∀ d', ManifestCommitted m d d' C manifest request → Q (.ok .applied) d') :
    (commitManifestTx manifest request m).closes faulty Q d := by
  unfold Tx.closes commitManifestTx
  simp only [Tx.wp_bind, Tx.wp_mark, Tx.wp_check, insertManifest, Tx.wp_attempt]
  refine ⟨fun _ => hE _, fun _ => ⟨fun _ => hE _, fun inserted d₁ h₁ => ?_, fun e _ => hE e⟩,
    fun _ => hE _⟩
  split_ifs at h₁ with hc hr hi hf <;> cases h₁
  · -- the run has a manifest: a replay, or another one.
    simp only [Bool.not_false, if_true, Tx.wp_bind, Tx.wp_read, Tx.wp_mark, Tx.wp_ite, Tx.wp_drop,
      Tx.wp_throw]
    refine ⟨fun _ => hE _, fun _ => hE _, fun h => hR ?_, fun _ => hE _⟩
    obtain ⟨r, hr, heq⟩ := Option.map_eq_some_iff.mp h
    simp only [Prod.mk.injEq] at heq
    exact ⟨r, List.mem_of_find?_eq_some hr, by simpa using List.find?_some hr, heq.1⟩
  · simp only [Bool.not_true, Bool.false_eq_true, if_false, Tx.wp_bind, insertManifestSources,
      insertOutbox, Tx.wp_attempt, updateRuns, Tx.wp_change, Tx.wp_ite, Tx.wp_throw, Tx.wp_commit]
    refine ⟨fun _ => hE _, fun _ d₂ h₂ => ⟨fun _ => hE _, fun _ d₃ h₃ => ?_, fun e _ => hE e⟩,
      fun e _ => hE e⟩
    split_ifs at h₂ with hl
    cases h₂
    split_ifs at h₃ with ho
    cases h₃
    refine ⟨fun _ => hE _, fun _ => hE _, fun h => ⟨fun _ => hE _, hA _ ?_⟩⟩
    simp only [Db.outboxHolds, Bool.or_eq_true, not_or, List.any_eq_true, not_exists,
      decide_eq_true_eq, not_and] at ho
    have newRun : ∀ r ∈ d.manifests, r.runId ≠ (manifest.row m.now).runId := by simpa using hr
    have newId : ∀ r ∈ d.manifests, r.manifestId ≠ (manifest.row m.now).manifestId := by
      simpa using hi
    exact {
      built, owned, announced, newRun, newId
      counts := by simpa using hc
      links := hl
      newKey := fun r hr => ho.1 r hr
      newOutboxId := fun r hr => ho.2 r hr
      once := not_not.mp h
      effect := rfl }

/-! ## Facts, the reaper and the registration -/

theorem wp_insertResult {row : DigestResult} {Q : Unit → Db → Prop} {E : CoordinatorError → Prop}
    (hE : ∀ e, E e) (h : d.resultFree row → Q () { d with results := d.results ++ [row] }) :
    (insertResult row).wp faulty Q E d := by
  simp only [insertResult, Tx.wp_attempt]
  refine ⟨fun _ => hE _, fun _ d₁ h₁ => ?_, fun e _ => hE e⟩
  split_ifs at h₁ with hr hf
  cases h₁
  refine h fun r hmem => ?_
  simp only [List.any_eq_true, not_exists, not_and, Bool.or_eq_true, decide_eq_true_eq,
    not_or] at hr
  exact ⟨(hr r hmem).1.1, (hr r hmem).1.2, (hr r hmem).2⟩

theorem settleCompletionTx_closes {fact : RecapCompleted} {analysisId messageId : Uuid}
    {sha : Digest} {incomplete : Bool} {Q : Except CoordinatorError IntakeOutcome → Db → Prop}
    (evidence : d.evidence fact.digestRunId fact.owner fact.manifestDigest fact.countsAgree)
    (hE : ∀ e, Q (.error e) d)
    (hR : d.inboxHolds messageId .completed (.id fact.digestResultId) = true →
      Q (.ok .replayed) d)
    (hA : ∀ d' run manifest,
      CompletionSettled m d d' fact analysisId messageId sha incomplete run manifest →
      Q (.ok .applied) d') :
    (settleCompletionTx C fact analysisId messageId sha incomplete m).closes faulty Q d := by
  unfold Tx.closes settleCompletionTx
  simp only [Tx.wp_bind, Tx.wp_mark]
  refine ⟨fun _ => hE _, wp_claim (fun _ => hE _) (fun h => ?_) fun h => ?_⟩
  · simp only [Bool.not_false, if_true, Tx.wp_rollback]
    exact ⟨fun _ => hE _, hR h⟩
  · simp only [Bool.not_true, Bool.false_eq_true, if_false, Tx.wp_bind, Tx.wp_read]
    refine ⟨fun _ => hE _, ?_⟩
    rcases hj : (d.ownRun fact.digestRunId fact.owner).bind fun r =>
      (d.manifestOf r.runId).map fun mf => (r, mf) with _ | ⟨run, manifest⟩
    · simp only [Db.ownRun, Db.manifestOf] at hj ⊢
      simp only [hj, Tx.wp_throw]
      exact hE _
    · obtain ⟨r, hr, hm⟩ := Option.bind_eq_some_iff.mp hj
      obtain ⟨mf, hmf, hpair⟩ := Option.map_eq_some_iff.mp hm
      cases hpair
      simp only [Db.ownRun, Db.manifestOf] at hj ⊢
      simp only [hj, Tx.wp_bind]
      refine wp_insertResult hE fun hfree => ?_
      simp only [updateRuns, Tx.wp_change, Tx.wp_ite, Tx.wp_throw, Tx.wp_bind, reportCompletion]
      refine ⟨fun _ => hE _, fun _ => hE _, fun honce => wp_reportOwned hE fun ob hob => ?_⟩
      refine ⟨fun _ => hE _, fun _ => hE _, hA _ run manifest
        ⟨h, hr, hmf, evidence, hfree, not_not.mp honce, ob, ?_, ?_⟩⟩
      · rwa [Db.onDemandOperation, operationIn_update (Run.enter_keeps _ _)] at hob
      · show ({ d with runs := _, results := _, outbox := ob, inbox := _ } : Db) = _
        rw [complete_snoc h]

theorem settleFailureTx_closes {fact : RecapFailed} {manifestId messageId : Uuid} {sha : Digest}
    {Q : Except CoordinatorError IntakeOutcome → Db → Prop}
    (evidence : d.evidence fact.digestRunId fact.owner fact.manifestDigest
      (·.manifestId = manifestId))
    (hE : ∀ e, Q (.error e) d)
    (hR : d.inboxHolds messageId .failed (.id fact.digestRunId) = true → Q (.ok .replayed) d)
    (hA : ∀ d', FailureSettled m d d' fact manifestId messageId sha → Q (.ok .applied) d') :
    (settleFailureTx C fact manifestId messageId sha m).closes faulty Q d := by
  unfold Tx.closes settleFailureTx
  simp only [Tx.wp_bind, Tx.wp_mark]
  refine ⟨fun _ => hE _, wp_claim (fun _ => hE _) (fun h => ?_) fun h => ?_⟩
  · simp only [Bool.not_false, if_true, Tx.wp_rollback]
    exact ⟨fun _ => hE _, hR h⟩
  · simp only [Bool.not_true, Bool.false_eq_true, if_false, Tx.wp_bind]
    refine wp_insertResult hE fun hfree => ?_
    simp only [updateRuns, Tx.wp_change, Tx.wp_ite, Tx.wp_throw, Tx.wp_bind, reportRecapFailure]
    refine ⟨fun _ => hE _, fun _ => hE _, fun honce => wp_reportOwned hE fun ob hob => ?_⟩
    refine ⟨fun _ => hE _, fun _ => hE _, hA _
      ⟨h, hfree, evidence, not_not.mp honce, ob, ?_, ?_⟩⟩
    · rwa [Db.onDemandOperation, operationIn_update (Run.fail_keeps _ _)] at hob
    · show ({ d with runs := _, results := _, outbox := ob, inbox := _ } : Db) = _
      rw [complete_snoc h]

/-- the loop over the reaped runs. -/
theorem wp_reportReaped (runs : List Run) (n : Nat) {Q : Unit → Db → Prop}
    {E : ReaperError → Prop} (hE : ∀ e, E e)
    (h : ∀ ob, OfferedAll d.outbox (reapedReports m runs n) ob → Q () { d with outbox := ob }) :
    (reportReaped C m runs n).wp faulty Q E d := by
  induction runs generalizing d n with
  | nil => exact h d.outbox rfl
  | cons run runs ih =>
    simp only [reportReaped, Tx.wp_bind, reportDeadline, Tx.wp_ite, Tx.wp_pure]
    constructor
    · intro ht
      refine wp_enqueue hE fun ob hob => ih (n + 1) fun ob' hob' => h ob' ?_
      simp only [reapedReports, if_pos ht, List.cons_append, List.nil_append]
      exact ⟨ob, hob, hob'⟩
    · intro ht
      refine ih (n + 1) fun ob hob => h ob ?_
      simpa only [reapedReports, if_neg ht, List.nil_append] using hob

theorem reapTx_closes {cutoff : Instant} {Q : Except ReaperError Nat → Db → Prop}
    (hE : ∀ e, Q (.error e) d) (hA : ∀ n d', RunsReaped m d d' cutoff → Q (.ok n) d') :
    (reapTx C cutoff m).closes faulty Q d := by
  unfold Tx.closes reapTx
  simp only [Tx.wp_bind, Tx.wp_mark, reapRuns, Tx.wp_change]
  refine ⟨fun _ => hE _, fun _ => hE _, wp_reportReaped _ _ hE fun ob hob => ?_⟩
  exact ⟨fun _ => hE _, hA _ _ ⟨ob, hob, rfl⟩⟩

theorem registrationTx_closes {schedule : ScheduleConfig}
    {Q : Except RegistrationError RegistrationOutcome → Db → Prop} (hE : ∀ e, Q (.error e) d)
    (hU : d.latestRegistration.map (·.key) = some (schedule.key C) → Q (.ok .unchanged) d)
    (hA : ∀ d', d.upsertRegistration (schedule.row C (m.ids 0) m.now) = some d' →
      Q (.ok .enqueued) d') :
    (registrationTx C schedule m).closes faulty Q d := by
  unfold Tx.closes registrationTx
  simp only [Tx.wp_bind, Tx.wp_mark, Tx.wp_read, Tx.wp_ite, Tx.wp_drop, guarded, Tx.wp_attempt]
  refine ⟨fun _ => hE _, fun _ => hE _, hU, fun _ => ⟨fun _ => hE _, fun _ d' h => ?_,
    fun e _ => hE e⟩⟩
  split at h
  · cases h
  · next d₁ hd₁ =>
    cases h
    exact ⟨fun _ => hE _, hA _ hd₁⟩

end

end ChannelDigests
