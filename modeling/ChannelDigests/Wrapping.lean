import ChannelDigests.Aside
import ChannelDigests.Documents

/-!
# Every queued row wraps

`publish_outbox` stops at the first row that `wrap_outbox_row` refuses.  Nine places queue rows, and
each of them validates what the envelope of its row needs.

* `OutboxMessage.Wrapped`   the row wraps, into an envelope with its identity, tenant and operation;
* `Db.Wrapped`              every row of the outbox does;
* `enqueue_keeps` … `executeOne_keeps`   what each program of the worker keeps;
* `reachable_wrapped`       **every row of a reachable outbox wraps**.
-/

namespace ChannelDigests
open Lib

/-- the row wraps into an envelope with its identity, its owner as tenant and, unless it is a
registration, its operation as correlation. -/
def OutboxMessage.Wrapped (C : Contracts) (row : OutboxMessage) : Prop :=
  ∃ m, wrapOutboxRow C row = some m ∧ m.messageId = row.outboxId ∧ m.tenant = row.ownerId ∧
    (row.key.isRegistration = false →
      ∃ operation, row.operationId = some operation ∧ m.correlation = .operation operation)

def Db.Wrapped (C : Contracts) (d : Db) : Prop := ∀ row ∈ d.outbox, row.Wrapped C

theorem Db.Wrapped.empty (C : Contracts) : Db.empty.Wrapped C := fun _ h => by cases h

section
variable {C : Contracts}

/-! ## The rows -/

section
variable (href : ∀ r, C.reference r = true) (henc : ∀ m, C.encodes m = true)
include href henc

theorem writable_always (m : OutboundMessage) : m.writable C = true := by
  unfold OutboundMessage.writable
  rw [href, href, henc]
  rcases m.causation with _ | r
  · rfl
  · simp [href]

/-- a report that was validated before it was queued is validated again. -/
theorem report_wrapped {row : OperationReportRow} {id : Uuid} {now : Instant}
    (hid : row.report.operationId = row.operationId)
    (hv : OperationReportRow.accepted C row.report = true) : (row.outboxRow id now).Wrapped C := by
  have hvalid : C.validReport row.report = true := by
    simp only [OperationReportRow.accepted, Bool.and_eq_true] at hv
    exact hv.2
  refine ⟨(row.outboxRow id now).envelope "evt.platform.operation.reported.v1"
    (.operation row.report.operationId) (.operation row.report.operationId), ?_, rfl, rfl,
    fun _ => ⟨row.operationId, rfl, congrArg Reference.operation hid⟩⟩
  simp only [wrapOutboxRow, OperationReportRow.outboxRow, hvalid, writable_always href henc,
    Bool.and_self, if_true]

theorem recapRequest_wrapped {manifest : CanonicalManifest} {request : RecapRequested} {id : Uuid}
    {now : Instant} (hv : C.recapRequest.validForPublish request = true) :
    (recapRequestRow manifest request id now).Wrapped C := by
  refine ⟨(recapRequestRow manifest request id now).envelope
    "cmd.knowledge.channel_digest_recap.requested.v1" (.run request.digestRunId)
    (.operation request.operationId), ?_, rfl, rfl, fun _ => ⟨request.operationId, rfl, rfl⟩⟩
  simp only [wrapOutboxRow, recapRequestRow, hv, writable_always href henc, Bool.and_self, if_true]

theorem registration_wrapped {row : OutboxMessage} {config : Digest} {r : ScheduleRegistration}
    (hkey : row.key = .registration config) (hpayload : row.payload = .registration r) :
    row.Wrapped C := by
  have hreg : row.key.isRegistration = true := by rw [hkey]; rfl
  refine ⟨row.envelope "cmd.platform.schedule.registration_requested.v1" .scheduleRegistration
    (.command row.outboxId), ?_, rfl, rfl, fun h => ?_⟩
  · simp only [wrapOutboxRow, hkey, hpayload, writable_always href henc, Bool.and_self, if_true]
  · rw [hreg] at h
    cases h

end

/-- what publishing writes is no part of the envelope. -/
theorem wrapOutboxRow_publish (row : OutboxMessage) (now : Instant) :
    wrapOutboxRow C (row.publish now) = wrapOutboxRow C row := rfl

theorem wrapOutboxRow_backOff (row : OutboxMessage) (now : Instant) :
    wrapOutboxRow C (row.backOff now) = wrapOutboxRow C row := rfl

/-! ## Statements -/

theorem Db.Wrapped.append {d : Db} {row : OutboxMessage} (hd : d.Wrapped C) (hrow : row.Wrapped C) :
    Db.Wrapped C { d with outbox := d.outbox ++ [row] } := by
  intro r hr
  rcases List.mem_append.mp hr with hr | hr
  · exact hd r hr
  · rw [List.mem_singleton.mp hr]
    exact hrow

theorem Db.Wrapped.update {d : Db} {p : OutboxMessage → Bool} {u : OutboxMessage → OutboxMessage}
    (hd : d.Wrapped C) (hu : ∀ r, p r = true → r.Wrapped C → (u r).Wrapped C) :
    Db.Wrapped C { d with outbox := updateWhere p u d.outbox } := by
  intro r hr
  obtain ⟨o, ho, ⟨hp, rfl⟩ | ⟨-, rfl⟩⟩ := mem_updateWhere.mp hr
  · exact hu o hp (hd o ho)
  · exact hd r ho

/-- a statement that does not write the outbox. -/
theorem keeps_elsewhere {ε α : Type} {lost : ε} {f : Db → Db} {g : Db → α}
    (h : ∀ d, (f d).outbox = d.outbox) : (Tx.change lost f g).Keeps (Db.Wrapped C) :=
  Tx.keeps_change fun d hd => by
    unfold Db.Wrapped
    rw [h d]
    exact hd

theorem keeps_insertInbox {ε : Type} {lost : ε} {row : InboxMessage} :
    (insertInbox lost row).Keeps (Db.Wrapped C) :=
  keeps_elsewhere fun d => by split_ifs <;> rfl

theorem keeps_completeInbox {ε : Type} {lost : ε} {messageId : Uuid} {now : Instant} :
    (completeInbox lost messageId now).Keeps (Db.Wrapped C) := keeps_elsewhere fun _ => rfl

theorem keeps_setOutputLanguage {runId ownerId : Uuid} {language : OutputLanguage} :
    (setOutputLanguage runId ownerId language).Keeps (Db.Wrapped C) := keeps_elsewhere fun _ => rfl

theorem keeps_updateRuns {ε : Type} {lost : ε} {p : Run → Bool} {u : Run → Run} :
    (updateRuns lost p u).Keeps (Db.Wrapped C) := keeps_elsewhere fun _ => rfl

theorem setSubscription_wraps {subscriptionId channelId ownerId : Uuid} {username : String}
    {enabled : Bool} {now : Instant} :
    (setSubscription subscriptionId channelId ownerId username enabled now).Keeps (Db.Wrapped C) := by
  refine Tx.keeps_attempt fun d s d' hd he => ?_
  split at he
  · cases he
  · cases he
    exact hd
  · next s' d₁ hset =>
    have hob : d₁.outbox = d.outbox := by rw [setSubscription_eq hset]
    cases he
    exact fun row hrow => hd row (hob ▸ hrow)

theorem insertRun_outbox {d d' : Db} {run : Run} {b : Bool} (h : d.insertRun run = some (b, d')) :
    d'.outbox = d.outbox := by
  unfold Db.insertRun at h
  split_ifs at h <;> cases h <;> rfl

theorem createDigestRun_wraps {run : Run} : (createDigestRun run).Keeps (Db.Wrapped C) := by
  refine Tx.keeps_attempt fun d s d' hd he => ?_
  split at he
  · cases he
  · next d₁ hins =>
    have hob := insertRun_outbox hins
    cases he
    exact fun row hrow => hd row (hob ▸ hrow)
  · next d₁ hins =>
    have hob := insertRun_outbox hins
    cases he
    exact fun row hrow => hd row (hob ▸ hrow)

theorem fanOutOwners_wraps {o : OccurrenceRequest} {subs : List Subscription} {m : Moment}
    (owners : List Uuid) (n : Nat) : (fanOutOwners o subs m owners n).Keeps (Db.Wrapped C) := by
  induction owners generalizing n with
  | nil => exact Tx.keeps_pure _
  | cons owner owners ih =>
    refine (Tx.keeps_mark _ _).bind fun _ => Tx.Keeps.bind ?_ fun _ => ih (n + 1)
    refine Tx.keeps_attempt fun d s d' hd he => ?_
    split at he
    · cases he
    · next d₁ hins =>
      obtain ⟨⟨b, d₂⟩, hrun, rfl⟩ := Option.map_eq_some_iff.mp hins
      have hob := insertRun_outbox hrun
      cases he
      exact fun row hrow => hd row (hob ▸ hrow)

theorem insertResult_wraps {row : DigestResult} : (insertResult row).Keeps (Db.Wrapped C) := by
  refine Tx.keeps_attempt fun d s d' hd he => ?_
  split_ifs at he
  cases he
  exact hd

theorem readDb_wraps {α : Type} {g : Db → α} : (readDb g).Keeps (Db.Wrapped C) :=
  keeps_statement fun _ => Tx.keeps_read _ _

theorem completionReport_operation (operation ownerId eventId : Uuid) (resultRef : String)
    (omitted : Nat) (incomplete : Bool) :
    (completionReport operation ownerId eventId resultRef omitted incomplete).report.operationId =
      (completionReport operation ownerId eventId resultRef omitted incomplete).operationId := by
  unfold completionReport
  dsimp only
  split_ifs <;> rfl

/-! ## Acquisition and retention -/

theorem checkpoint_wraps {request : AcquisitionRequest} {at_ : Cursor} {state : CheckpointState}
    {wait : Option Nat} : (checkpoint request at_ state wait).Keeps (Db.Wrapped C) :=
  keeps_statement fun _ => keeps_elsewhere fun _ => rfl

theorem append_wraps {o : ObservedRevision} :
    (append C AcquisitionError.unavailable o).Keeps (Db.Wrapped C) := by
  refine keeps_statement fun m => Tx.keeps_attempt fun d s d' hd he => ?_
  split at he
  · cases he
  · next d₁ happ =>
    have hob : d₁.outbox = d.outbox := by
      dsimp only [Db.appendRevision] at happ
      split_ifs at happ <;> cases happ <;> rfl
    cases he
    exact fun row hrow => hd row (hob ▸ hrow)

theorem storePosts_wraps {request : AcquisitionRequest} (posts : List ProviderPost) (st : Stored) :
    (storePosts C request posts st).Keeps (Db.Wrapped C) := by
  induction posts generalizing st with
  | nil => exact Prog.keeps_pure _
  | cons post posts ih =>
    unfold storePosts
    refine .ite (fun _ => ih st) fun _ => ?_
    split
    · exact Prog.keeps_fail _
    · exact .ite (fun _ => ih _) fun _ => .ite (fun _ => ih _) fun _ => .ite (fun _ => ih _)
        fun _ => append_wraps.bind fun _ => ih _

theorem withdrawAbsent_wraps {channelId : Uuid} {requested : Option Int} {page : ProviderPage} :
    (withdrawAbsent channelId requested page).Keeps (Db.Wrapped C) := by
  unfold withdrawAbsent
  split
  · exact Prog.keeps_pure _
  · exact keeps_statement fun _ => keeps_elsewhere fun _ => rfl

theorem finish_wraps {request : AcquisitionRequest} {at_ : Cursor} :
    (finish request at_).Keeps (Db.Wrapped C) := checkpoint_wraps.bind fun _ => Prog.keeps_pure _

theorem walk_wraps {request : AcquisitionRequest} {channel : Nat} (n : Nat) (at_ : Cursor)
    (seen : List (Int × Digest)) : (walk C request channel n at_ seen).Keeps (Db.Wrapped C) := by
  induction n generalizing at_ seen with
  | zero => exact finish_wraps
  | succ n ih =>
    unfold walk
    refine (Prog.keeps_question (S := service) _).bind fun reply => ?_
    have short : ∀ p : Action AcquisitionError AcquisitionReport,
        p = (if 0 < at_.pages then do
            checkpoint request at_ .providerUnavailable none
            return ⟨at_.pages, at_.revisions, true⟩
          else Prog.fail .unavailable) → p.Keeps (Db.Wrapped C) := by
      rintro _ rfl
      exact .ite (fun _ => checkpoint_wraps.bind fun _ => Prog.keeps_pure _)
        fun _ => Prog.keeps_fail _
    split
    · exact checkpoint_wraps.bind fun _ => Prog.keeps_fail _
    · exact (storePosts_wraps _ _).bind fun _ => withdrawAbsent_wraps.bind fun _ =>
        checkpoint_wraps.bind fun _ => .ite (fun _ => finish_wraps) fun _ => ih _ _
    · exact short _ rfl

theorem execute_wraps (request : AcquisitionRequest) :
    (execute C request).Keeps (Db.Wrapped C) := by
  refine Prog.Keeps.bind ?_ fun at_ => .ite (fun _ => Prog.keeps_fail _) fun _ =>
    Prog.Keeps.bind ?_ fun _ => walk_wraps _ _ _
  · exact (keeps_statement fun _ => Tx.keeps_read _ _).bind fun _ => Prog.keeps_lift _
  · refine (Prog.keeps_question (S := service) _).bind fun reply => ?_
    split
    · exact Prog.keeps_pure _
    · exact checkpoint_wraps.bind fun _ => Prog.keeps_fail _
    · exact Prog.keeps_fail _

theorem acquire_wraps {run : PendingRun} (channels : List (Uuid × String)) :
    (acquire C run channels).Keeps (Db.Wrapped C) := by
  induction channels with
  | nil => exact Prog.keeps_pure _
  | cons channel channels ih =>
    exact (execute_wraps _).outcome.bind fun _ => ih.bind fun _ => Prog.keeps_pure _

theorem minimizeBefore_wraps {before : Instant} {limit : Nat} :
    (minimizeBefore before limit).Keeps (Db.Wrapped C) :=
  keeps_statement fun _ => keeps_elsewhere fun _ => rfl

theorem minimizeManifestsBefore_wraps {before : Instant} {limit : Nat} :
    (minimizeManifestsBefore before limit).Keeps (Db.Wrapped C) :=
  keeps_statement fun _ => keeps_elsewhere fun _ => rfl

theorem sweepOnce_wraps (bodyDays : Nat) (now : Instant) :
    (sweepOnce bodyDays now).Keeps (Db.Wrapped C) :=
  minimizeBefore_wraps.bind fun _ => minimizeManifestsBefore_wraps.bind fun _ => Prog.keeps_pure _

theorem reapRuns_wraps {cutoff now : Instant} : (reapRuns cutoff now).Keeps (Db.Wrapped C) :=
  keeps_elsewhere fun _ => rfl

theorem recordAcquisition_wraps {runId : Uuid} {incomplete : Bool} :
    (recordAcquisition runId incomplete).Keeps (Db.Wrapped C) :=
  keeps_statement fun _ => keeps_elsewhere fun _ => rfl

theorem insertManifest_wraps {row : Manifest} : (insertManifest row).Keeps (Db.Wrapped C) := by
  refine Tx.keeps_attempt fun d s d' hd he => ?_
  split_ifs at he <;> cases he <;> exact hd

theorem insertManifestSources_wraps {links : List ManifestSourceLink} :
    (insertManifestSources links).Keeps (Db.Wrapped C) := by
  refine Tx.keeps_attempt fun d s d' hd he => ?_
  split_ifs at he
  cases he
  exact hd

/-! ## Publishing -/

theorem publish_wraps {outboxId : Uuid} :
    (updateOutbox outboxId OutboxMessage.publish).Keeps (Db.Wrapped C) :=
  keeps_statement fun m => Tx.keeps_change fun d hd => hd.update fun row _ hrow => by
    unfold OutboxMessage.Wrapped
    rw [wrapOutboxRow_publish]
    exact hrow

theorem backOff_wraps {outboxId : Uuid} :
    (updateOutbox outboxId OutboxMessage.backOff).Keeps (Db.Wrapped C) :=
  keeps_statement fun m => Tx.keeps_change fun d hd => hd.update fun row _ hrow => by
    unfold OutboxMessage.Wrapped
    rw [wrapOutboxRow_backOff]
    exact hrow

theorem publishRows_wraps (rows : List OutboxMessage) (refused : Bool) :
    (publishRows C rows refused).Keeps (Db.Wrapped C) := by
  induction rows generalizing refused with
  | nil => exact Prog.keeps_pure _
  | cons row rows ih =>
    unfold publishRows
    split
    · exact Prog.keeps_fail _
    · refine (Prog.keeps_question (S := service) _).bind fun acked => .ite (fun _ => ?_) fun _ => ?_
      · exact publish_wraps.bind fun _ => ih refused
      · exact backOff_wraps.bind fun _ => ih true

theorem publishOutbox_wraps : (publishOutbox C).Keeps (Db.Wrapped C) :=
  (keeps_statement fun _ => Tx.keeps_read _ _).bind fun rows => (publishRows_wraps rows _).bind
    fun _ => .ite (fun _ => Prog.keeps_fail _) fun _ => Prog.keeps_pure _

section
variable (href : ∀ r, C.reference r = true) (henc : ∀ m, C.encodes m = true)
include href henc

/-- a report is queued only when it was accepted. -/
theorem enqueue_keeps {ε : Type} [FromReportError ε] {row : OperationReportRow} {id : Uuid}
    {now : Instant} (hid : row.report.operationId = row.operationId) :
    (row.enqueue C id now : Sql ε Unit).Keeps (Db.Wrapped C) := by
  intro d hd
  simp only [OperationReportRow.enqueue, Tx.wp_bind, Tx.wp_check, insertOutboxOnce, Tx.wp_attempt]
  refine ⟨fun hv => ⟨fun _ => trivial, fun _ d' he => ?_, fun _ _ => trivial⟩, fun _ => trivial⟩
  split_ifs at he
  · cases he
    exact hd
  · cases he
    exact hd.append (report_wrapped href henc hid hv)

theorem reportOwned_keeps {ε : Type} [FromReportError ε] {runId ownerId id : Uuid} {now : Instant}
    {report : Uuid → OperationReportRow}
    (hid : ∀ operation, (report operation).report.operationId = (report operation).operationId) :
    (reportOwned C runId ownerId report id now : Sql ε Unit).Keeps (Db.Wrapped C) := by
  refine (Tx.keeps_read _ _).bind fun owned => ?_
  cases owned with
  | none => exact Tx.keeps_pure _
  | some operation => exact enqueue_keeps href henc (hid operation)

/-! ## Intake -/

theorem reject_wraps (r : Rejection) : (reject C r).Keeps (Db.Wrapped C) :=
  keeps_transaction fun _ => (Tx.keeps_mark _ _).bind fun _ => keeps_insertInbox.bind fun _ =>
    .ite (fun _ => Tx.keeps_rollback _ _) fun _ =>
      (enqueue_keeps href henc rfl).bind fun _ => Tx.keeps_commit _ _

theorem acceptSubscription_wraps (messageId : Uuid) (payload : C.Bytes) :
    (acceptSubscription C messageId payload).Keeps (Db.Wrapped C) := by
  unfold acceptSubscription
  split
  · exact Prog.keeps_fail _
  refine .ite (fun _ => reject_wraps href henc _) fun _ => ?_
  refine Prog.Keeps.bind (keeps_transaction fun m => ?_) fun v => ?_
  · refine (Tx.keeps_mark _ _).bind fun _ => keeps_insertInbox.bind fun _ =>
      .ite (fun _ => Tx.keeps_rollback _ _) fun _ => setSubscription_wraps.bind fun set => ?_
    cases set with
    | none => exact Tx.keeps_rollback _ _
    | some s =>
      exact (enqueue_keeps href henc rfl).bind fun _ => keeps_completeInbox.bind fun _ =>
        Tx.keeps_commit _ _
  · cases v with
    | outcome o => exact Prog.keeps_pure _
    | refused => exact reject_wraps href henc _

theorem reportQueued_wraps {c : RunRequested} {messageId : Uuid} {m : Moment} :
    (reportQueued C c messageId m).Keeps (Db.Wrapped C) :=
  .ite (fun _ => enqueue_keeps href henc rfl) fun _ => Tx.keeps_pure _

theorem acceptRun_wraps (messageId : Uuid) (payload : C.Bytes) :
    (acceptRun C messageId payload).Keeps (Db.Wrapped C) := by
  unfold acceptRun
  split
  · exact Prog.keeps_fail _
  refine .ite (fun _ => reject_wraps href henc _) fun _ => ?_
  refine Prog.Keeps.bind (keeps_transaction fun m => ?_) fun v => ?_
  · exact (Tx.keeps_mark _ _).bind fun _ => keeps_insertInbox.bind fun _ =>
      .ite (fun _ => Tx.keeps_rollback _ _) fun _ => createDigestRun_wraps.bind fun _ =>
        .ite (fun _ => Tx.keeps_rollback _ _) fun _ =>
          keeps_setOutputLanguage.bind fun _ => (reportQueued_wraps href henc).bind fun _ =>
            keeps_completeInbox.bind fun _ => Tx.keeps_commit _ _
  · cases v with
    | outcome o => exact Prog.keeps_pure _
    | refused => exact reject_wraps href henc _

/-! ## The coordinator -/

theorem acceptOccurrence_wraps (o : OccurrenceRequest) :
    (acceptOccurrence C o).Keeps (Db.Wrapped C) :=
  .ite (fun _ => Prog.keeps_fail _) fun _ => keeps_transaction fun _ =>
    (Tx.keeps_mark _ _).bind fun _ => keeps_insertInbox.bind fun _ =>
      .ite (fun _ => Tx.keeps_rollback _ _) fun _ =>
        ((Tx.keeps_read _ _).bind fun _ => fanOutOwners_wraps _ _).bind fun _ =>
          (enqueue_keeps href henc rfl).bind fun _ => keeps_completeInbox.bind fun _ =>
            Tx.keeps_commit _ _

theorem settleCompletion_wraps (messageId : Uuid) (completion : C.Bytes) :
    (settleCompletion C messageId completion).Keeps (Db.Wrapped C) := by
  unfold settleCompletion
  split
  · exact Prog.keeps_fail _
  refine .ite (fun _ => Prog.keeps_fail _) fun _ => ?_
  split
  · exact Prog.keeps_fail _
  refine readDb_wraps.bind fun incomplete => readDb_wraps.bind fun stored => ?_
  cases stored with
  | some stored =>
    exact .ite (fun _ => Prog.keeps_fail _) fun _ =>
      .ite (fun _ => Prog.keeps_pure _) fun _ => Prog.keeps_fail _
  | none =>
    refine readDb_wraps.bind fun durable => ?_
    cases durable with
    | none => exact Prog.keeps_fail _
    | some durable =>
      refine .ite (fun _ => Prog.keeps_fail _) fun _ => keeps_transaction fun m => ?_
      refine (Tx.keeps_mark _ _).bind fun _ => keeps_insertInbox.bind fun _ =>
        .ite (fun _ => Tx.keeps_rollback _ _) fun _ => (Tx.keeps_read _ _).bind fun joined => ?_
      cases joined with
      | none => exact Tx.keeps_throw _
      | some joined =>
        exact insertResult_wraps.bind fun _ => keeps_updateRuns.bind fun _ =>
          .ite (fun _ => Tx.keeps_throw _) fun _ =>
            (reportOwned_keeps href henc fun _ => completionReport_operation _ _ _ _ _ _).bind
              fun _ => keeps_completeInbox.bind fun _ => Tx.keeps_commit _ _

theorem settleFailure_wraps (messageId : Uuid) (failure : C.Bytes) :
    (settleFailure C messageId failure).Keeps (Db.Wrapped C) := by
  unfold settleFailure
  split
  · exact Prog.keeps_fail _
  refine .ite (fun _ => Prog.keeps_fail _) fun _ => readDb_wraps.bind fun durable => ?_
  cases durable with
  | none => exact Prog.keeps_fail _
  | some durable =>
    exact .ite (fun _ => Prog.keeps_pure _) fun _ => .ite (fun _ => Prog.keeps_fail _) fun _ =>
      keeps_transaction fun _ => (Tx.keeps_mark _ _).bind fun _ => keeps_insertInbox.bind fun _ =>
        .ite (fun _ => Tx.keeps_rollback _ _) fun _ => insertResult_wraps.bind fun _ =>
          keeps_updateRuns.bind fun _ => .ite (fun _ => Tx.keeps_throw _) fun _ =>
            (reportOwned_keeps href henc fun _ => rfl).bind fun _ =>
              keeps_completeInbox.bind fun _ => Tx.keeps_commit _ _

/-- a served message keeps the outbox wrapped, and so does every delivery. -/
theorem handle_wraps (language : OutputLanguage) (transport : String) (bytes : C.Bytes) :
    (handle C language transport bytes).Keeps (Db.Wrapped C) := by
  have intake : ∀ {p}, p.Keeps (Db.Wrapped C) → (intakeDisposition p).Keeps (Db.Wrapped C) :=
    fun hp => hp.next fun r => by rcases r with (_ | _) | _ <;> trivial
  have coordinator : ∀ {p}, p.Keeps (Db.Wrapped C) →
      (coordinatorDisposition p).Keeps (Db.Wrapped C) :=
    fun hp => hp.next fun r => by rcases r with (_ | _) | _ <;> trivial
  have hserve := handle_serves (C := C) language transport bytes
  rcases hm : received C language transport bytes with _ | message <;> rw [hm] at hserve
  · rw [show handle C language transport bytes = pure .term from hserve]
    trivial
  · revert hserve
    generalize handle C language transport bytes = p
    intro hserve
    cases (show Serves C message p from hserve) with
    | subscription _ => exact intake (acceptSubscription_wraps href henc _ _)
    | run _ => exact intake (acceptRun_wraps href henc _ _)
    | unreadable => exact intake (reject_wraps href henc _)
    | occurrence => exact coordinator (acceptOccurrence_wraps href henc _)
    | completed _ => exact coordinator (settleCompletion_wraps href henc _ _)
    | failed _ => exact coordinator (settleFailure_wraps href henc _ _)

/-! ## The executor, the reaper and registration -/

theorem beginAcquisition_wraps (run : PendingRun) :
    (beginAcquisition C run).Keeps (Db.Wrapped C) :=
  keeps_transaction fun _ => (Tx.keeps_mark _ _).bind fun _ => keeps_updateRuns.bind fun _ =>
    .ite (fun _ => Tx.keeps_drop _) fun _ =>
      (reportOwned_keeps href henc fun _ => rfl).bind fun _ => Tx.keeps_commit _ _

theorem failWith_wraps (run : PendingRun) (failure : RunFailure) :
    (failWith C run failure).Keeps (Db.Wrapped C) :=
  Prog.Keeps.mapError <| keeps_transaction fun _ => (Tx.keeps_mark _ _).bind fun _ =>
    keeps_updateRuns.bind fun _ => .ite (fun _ => Tx.keeps_throw _) fun _ =>
      (reportOwned_keeps href henc fun _ => rfl).bind fun _ => Tx.keeps_commit _ _

theorem completeEmptyRun_wraps (runId ownerId : Uuid) :
    (completeEmptyRun C runId ownerId).Keeps (Db.Wrapped C) :=
  keeps_transaction fun _ => (Tx.keeps_mark _ _).bind fun _ => keeps_updateRuns.bind fun _ =>
    .ite (fun _ => Tx.keeps_throw _) fun _ =>
      (reportOwned_keeps href henc fun _ => rfl).bind fun _ => Tx.keeps_commit _ _

/-- a recap request is queued only when it was validated. -/
theorem commitManifest_wraps (manifest : CanonicalManifest) (raw : C.Bytes) :
    (commitManifest C manifest raw).Keeps (Db.Wrapped C) := by
  unfold commitManifest checkedRecapRequest
  rcases C.recapRequest.fromSlice raw with _ | request
  · exact Prog.keeps_fail _
  dsimp only
  by_cases hv : C.recapRequest.validForPublish request = true
  · rw [hv]
    by_cases ha : request.announces manifest = true
    · rw [ha]
      refine keeps_transaction fun m => (Tx.keeps_mark _ _).bind fun _ =>
        (Tx.keeps_check _ _).bind fun _ => insertManifest_wraps.bind fun _ =>
        .ite (fun _ => (Tx.keeps_read _ _).bind fun _ => (Tx.keeps_mark _ _).bind fun _ =>
          .ite (fun _ => Tx.keeps_drop _) fun _ => Tx.keeps_throw _) fun _ =>
        insertManifestSources_wraps.bind fun _ => Tx.Keeps.bind ?_ fun _ =>
        keeps_updateRuns.bind fun _ => .ite (fun _ => Tx.keeps_throw _) fun _ => Tx.keeps_commit _ _
      refine Tx.keeps_attempt fun d s d' hd he => ?_
      split_ifs at he
      cases he
      exact hd.append (recapRequest_wrapped href henc hv)
    · rw [Bool.not_eq_true _ |>.mp ha]
      exact Prog.keeps_fail _
  · rw [Bool.not_eq_true _ |>.mp hv]
    exact Prog.keeps_fail _

theorem commit_wraps (run : PendingRun) (sources : List ManifestSource) (incomplete : Bool) :
    (commit C run sources incomplete).Keeps (Db.Wrapped C) := by
  refine .ite (fun _ => .ite (fun _ => failWith_wraps href henc _ _) fun _ =>
    (completeEmptyRun_wraps href henc _ _).mapError) fun _ =>
      Prog.Keeps.bind (fun _ => trivial) fun manifestId => ?_
  unfold commitSources
  split
  · exact failWith_wraps href henc _ _
  · split
    · exact Prog.keeps_fail _
    · exact (commitManifest_wraps href henc _ _).mapError.bind fun _ => Prog.keeps_pure _

theorem executeOne_wraps (sourceCount : Nat) : (executeOne C sourceCount).Keeps (Db.Wrapped C) := by
  have hacquire : ∀ run, (acquireRun C sourceCount run).Keeps (Db.Wrapped C) := fun run => by
    refine (keeps_statement fun _ => Tx.keeps_read _ _).bind fun ⟨listed, channels⟩ =>
      (acquire_wraps _).bind fun outcomes => ?_
    have hproceed : (proceed C sourceCount run listed outcomes).Keeps (Db.Wrapped C) :=
      (keeps_statement fun _ => Tx.keeps_read _ _).bind fun ⟨seen, selection⟩ =>
        recordAcquisition_wraps.bind fun _ =>
          (commit_wraps href henc _ _ _).bind fun _ => Prog.keeps_pure _
    cases acquired outcomes with
    | deferred => exact Prog.keeps_pure _
    | unavailable => exact (failWith_wraps href henc _ _).bind fun _ => Prog.keeps_pure _
    | incomplete => exact hproceed
    | complete => exact hproceed
  refine Prog.Keeps.bind ?_ fun t => by cases t <;> exact Prog.keeps_pure _
  refine (keeps_statement fun _ => Tx.keeps_read _ _).bind fun pending => ?_
  cases pending with
  | none => exact Prog.keeps_pure _
  | some run =>
    exact .ite (fun _ => (beginAcquisition_wraps href henc _).bind fun _ =>
      .ite (fun _ => hacquire run) fun _ => Prog.keeps_pure _) fun _ => hacquire run

theorem reapOnce_wraps (deadline : Int) (now : Instant) :
    (reapOnce C deadline now).Keeps (Db.Wrapped C) := by
  have hreport : ∀ (m : Moment) (runs : List Run) (n : Nat),
      (reportReaped C m runs n).Keeps (Db.Wrapped C) := by
    intro m runs
    induction runs with
    | nil => exact fun _ => Tx.keeps_pure _
    | cons run runs ih =>
      exact fun n => (Tx.Keeps.ite (fun _ => enqueue_keeps href henc rfl) fun _ =>
        Tx.keeps_pure _).bind fun _ => ih (n + 1)
  exact keeps_transaction fun m => (Tx.keeps_mark _ _).bind fun _ =>
    reapRuns_wraps.bind fun _ => (hreport m _ _).bind fun _ => Tx.keeps_commit _ _

theorem register_wraps (schedule : Option ScheduleConfig) :
    (enqueueScheduleRegistration C schedule).Keeps (Db.Wrapped C) := by
  unfold enqueueScheduleRegistration
  split
  · exact Prog.keeps_pure _
  next schedule =>
  refine .ite (fun _ => Prog.keeps_fail _) fun _ => keeps_transaction fun m =>
    (Tx.keeps_mark _ _).bind fun _ => (Tx.keeps_read _ _).bind fun _ =>
      .ite (fun _ => Tx.keeps_drop _) fun _ => Tx.Keeps.bind ?_ fun _ => Tx.keeps_commit _ _
  refine Tx.keeps_attempt fun d s d' hd he => ?_
  split at he
  · cases he
  next d₁ hup =>
  cases he
  dsimp only [Db.upsertRegistration] at hup
  split_ifs at hup
  · cases hup
    refine hd.update fun row hrow _ => ?_
    exact registration_wrapped href henc (of_decide_eq_true hrow) rfl
  · cases hup
    exact hd.append (registration_wrapped href henc rfl rfl)

/-- every program of the worker keeps the outbox wrapped. -/
theorem body_wraps (language : OutputLanguage) (t : Task C) :
    (t.body language).Keeps (Db.Wrapped C) := by
  cases t with
  | deliver calm transport bytes => exact (handle_wraps href henc _ _ _).next fun _ => trivial
  | acceptSubscription messageId payload =>
    exact (acceptSubscription_wraps href henc _ _).next fun _ => trivial
  | acceptRun messageId payload => exact (acceptRun_wraps href henc _ _).next fun _ => trivial
  | acceptOccurrence o => exact (acceptOccurrence_wraps href henc _).next fun _ => trivial
  | settleCompletion messageId completion =>
    exact (settleCompletion_wraps href henc _ _).next fun _ => trivial
  | settleFailure messageId failure =>
    exact (settleFailure_wraps href henc _ _).next fun _ => trivial
  | executeOne sourceCount => exact (executeOne_wraps href henc _).next fun _ => trivial
  | reapOnce deadline now => exact (reapOnce_wraps href henc _ _).next fun _ => trivial
  | sweepOnce bodyDays now => exact (sweepOnce_wraps _ _).next fun _ => trivial
  | publishOutbox => exact publishOutbox_wraps.next fun _ => trivial
  | register schedule => exact (register_wraps href henc _).next fun _ => trivial

/-- **Every row of a reachable outbox wraps**, with the row's identity, its owner as tenant and, for
reports and recap requests, its operation as correlation. -/
theorem reachable_wrapped {S : Setting} {d : Db} (h : Reachable C S d) : d.Wrapped C := by
  obtain ⟨ts, h⟩ := h
  exact (Prog.Keeps.reach (fun t => body_wraps href henc S.language t) (by simp) (.empty C) h).1

end

end

/-- the outbox of the sample wraps: reports of two operations and a recap request. -/
theorem settled_wrapped : Sample.settled.outbox.length = 5 ∧ Sample.settled.Wrapped Sample.contracts :=
  ⟨by decide +kernel, reachable_wrapped (fun _ => rfl) (fun _ => rfl) Sample.settled_reachable⟩

end ChannelDigests
