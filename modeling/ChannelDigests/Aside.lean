import ChannelDigests.Lib.Invariant
import ChannelDigests.Worker

/-!
# What a tick does beside its walks

A tick reads, moves its run, records, reports and commits a manifest; only its walks write leases
and revisions.

* `keeps_transaction`, `keeps_statement`   invariants of one transaction of the service;
* `Aside`            channels, subscriptions, revisions and leases stay as they are;
* `Overlooks`        an invariant that does not see the other tables;
* `Tolerates`        an invariant that sees their failure classes only, and allows some;
* `failWith_aside` … `commit_aside`   what the rest of a tick keeps.
-/

namespace ChannelDigests
open Lib

theorem keeps_transaction {ε α : Type} {I : Db → Prop} {t : Moment → Sql ε (Fate α)}
    (h : ∀ m, (t m).Keeps I) : (transaction t).Keeps I :=
  fun m => Prog.keeps_transact (h m)

theorem keeps_statement {ε α : Type} {I : Db → Prop} {t : Moment → Sql ε α}
    (h : ∀ m, (t m).Keeps I) : (statement t).Keeps I :=
  keeps_transaction fun m => (h m).bind fun _ => Tx.keeps_pure _

/-- what the walks read and write stays as it is. -/
structure Aside (d d' : Db) : Prop where
  channels : d'.channels = d.channels
  subscriptions : d'.subscriptions = d.subscriptions
  revisions : d'.revisions = d.revisions
  leases : d'.leases = d.leases

theorem Aside.refl (d : Db) : Aside d d := ⟨rfl, rfl, rfl, rfl⟩

theorem Aside.trans {a b c : Db} (h : Aside a b) (h' : Aside b c) : Aside a c :=
  ⟨h'.channels.trans h.channels, h'.subscriptions.trans h.subscriptions,
    h'.revisions.trans h.revisions, h'.leases.trans h.leases⟩

/-- the invariant looks at nothing else. -/
def Overlooks (I : Db → Prop) : Prop := ∀ {d d'}, Aside d d' → I d → I d'

/-- the failure class of each run is one that was there, or that of an allowed failure. -/
def ClassesFrom (allowed : RunFailure → Prop) (d d' : Db) : Prop :=
  ∀ r' ∈ d'.runs, (∃ r ∈ d.runs, r'.safeFailureClass = r.safeFailureClass) ∨
    ∃ failure, allowed failure ∧ r'.safeFailureClass = some failure.failureClass

theorem ClassesFrom.of_eq {allowed : RunFailure → Prop} {d d' : Db} (h : d'.runs = d.runs) :
    ClassesFrom allowed d d' := fun r hr => .inl ⟨r, h ▸ hr, rfl⟩

/-- an update that keeps failure classes, or sets an allowed one. -/
theorem ClassesFrom.update {allowed : RunFailure → Prop} {d d' : Db} {p : Run → Bool}
    {u : Run → Run} (h : d'.runs = updateWhere p u d.runs)
    (hu : ∀ r, (u r).safeFailureClass = r.safeFailureClass ∨
      ∃ failure, allowed failure ∧ (u r).safeFailureClass = some failure.failureClass) :
    ClassesFrom allowed d d' := fun r' hr' => by
  rw [h] at hr'
  obtain ⟨r, hr, ⟨-, rfl⟩ | ⟨-, rfl⟩⟩ := mem_updateWhere.mp hr'
  · exact (hu r).imp_left fun he => ⟨r, hr, he⟩
  · exact .inl ⟨_, hr, rfl⟩

/-- the invariant looks at nothing else but failure classes. -/
def Tolerates (allowed : RunFailure → Prop) (I : Db → Prop) : Prop :=
  ∀ {d d'}, Aside d d' → ClassesFrom allowed d d' → I d → I d'

section
variable {C : Contracts} {allowed : RunFailure → Prop} {I : Db → Prop} (hI : Tolerates allowed I)
include hI

theorem updateRuns_aside {ε : Type} {lost : ε} {p : Run → Bool} {u : Run → Run}
    (hu : ∀ r, (u r).safeFailureClass = r.safeFailureClass ∨
      ∃ failure, allowed failure ∧ (u r).safeFailureClass = some failure.failureClass) :
    (updateRuns lost p u).Keeps I :=
  Tx.keeps_change fun _ => hI ⟨rfl, rfl, rfl, rfl⟩ (.update rfl hu)

theorem enqueue_aside {ε : Type} [FromReportError ε] {row : OperationReportRow} {id : Uuid}
    {now : Instant} : (row.enqueue C id now : Sql ε Unit).Keeps I := by
  refine (Tx.keeps_check _ _).bind fun _ => Tx.keeps_attempt fun d a d' hd he => ?_
  split_ifs at he
  · cases he
    exact hd
  · cases he
    exact hI (d := d) ⟨rfl, rfl, rfl, rfl⟩ (.of_eq rfl) hd

theorem reportOwned_aside {ε : Type} [FromReportError ε] {runId ownerId id : Uuid} {now : Instant}
    {report : Uuid → OperationReportRow} :
    (reportOwned C runId ownerId report id now : Sql ε Unit).Keeps I := by
  refine (Tx.keeps_read _ _).bind fun owned => ?_
  cases owned with
  | none => exact Tx.keeps_pure _
  | some operation => exact enqueue_aside hI

theorem beginAcquisition_aside (run : PendingRun) : (beginAcquisition C run).Keeps I :=
  keeps_transaction fun _ => (Tx.keeps_mark _ _).bind fun _ =>
    (updateRuns_aside (u := Run.enter _ _) hI fun _ => .inl rfl).bind fun _ =>
    .ite (fun _ => Tx.keeps_drop _) fun _ =>
      (reportOwned_aside hI).bind fun _ => Tx.keeps_commit _ _

theorem failWith_aside (run : PendingRun) {failure : RunFailure} (hf : allowed failure) :
    (failWith C run failure).Keeps I :=
  Prog.Keeps.mapError <| keeps_transaction fun _ => (Tx.keeps_mark _ _).bind fun _ =>
    (updateRuns_aside (u := Run.fail _ _) hI fun _ => .inr ⟨failure, hf, rfl⟩).bind fun _ => .ite (fun _ => Tx.keeps_throw _) fun _ =>
      (reportOwned_aside hI).bind fun _ => Tx.keeps_commit _ _

theorem completeEmptyRun_aside (runId ownerId : Uuid) : (completeEmptyRun C runId ownerId).Keeps I :=
  keeps_transaction fun _ => (Tx.keeps_mark _ _).bind fun _ =>
    (updateRuns_aside (u := Run.enter _ _) hI fun _ => .inl rfl).bind fun _ =>
    .ite (fun _ => Tx.keeps_throw _) fun _ =>
      (reportOwned_aside hI).bind fun _ => Tx.keeps_commit _ _

theorem recordAcquisition_aside (runId : Uuid) (incomplete : Bool) :
    (recordAcquisition runId incomplete).Keeps I :=
  keeps_statement fun _ => Tx.keeps_change fun _ =>
    hI ⟨rfl, rfl, rfl, rfl⟩ (.update rfl fun _ => .inl rfl)

theorem insertManifest_aside {row : Manifest} : (insertManifest row).Keeps I := by
  refine Tx.keeps_attempt fun d a d' hd he => ?_
  split_ifs at he
  · cases he
    exact hd
  · cases he
    exact hI (d := d) ⟨rfl, rfl, rfl, rfl⟩ (.of_eq rfl) hd

theorem insertManifestSources_aside {links : List ManifestSourceLink} :
    (insertManifestSources links).Keeps I := by
  refine Tx.keeps_attempt fun d a d' hd he => ?_
  split_ifs at he
  cases he
  exact hI (d := d) ⟨rfl, rfl, rfl, rfl⟩ (.of_eq rfl) hd

theorem insertOutbox_aside {row : OutboxMessage} : (insertOutbox row).Keeps I := by
  refine Tx.keeps_attempt fun d a d' hd he => ?_
  split_ifs at he
  cases he
  exact hI (d := d) ⟨rfl, rfl, rfl, rfl⟩ (.of_eq rfl) hd

theorem commitManifest_aside (manifest : CanonicalManifest) (raw : C.Bytes) :
    (commitManifest C manifest raw).Keeps I := by
  refine (Prog.keeps_lift _).bind fun request => keeps_transaction fun m => ?_
  refine (Tx.keeps_mark _ _).bind fun _ => (Tx.keeps_check _ _).bind fun _ =>
    (insertManifest_aside hI).bind fun _ => .ite (fun _ => ?_) fun _ => ?_
  · exact (Tx.keeps_read _ _).bind fun _ => (Tx.keeps_mark _ _).bind fun _ =>
      .ite (fun _ => Tx.keeps_drop _) fun _ => Tx.keeps_throw _
  · exact (insertManifestSources_aside hI).bind fun _ => (insertOutbox_aside hI).bind fun _ =>
      (updateRuns_aside (u := Run.enter _ _) hI fun _ => .inl rfl).bind fun _ =>
      .ite (fun _ => Tx.keeps_throw _) fun _ => Tx.keeps_commit _ _

/-- a commit may fail its run for missing pages, and for a manifest that does not build. -/
theorem commit_aside (run : PendingRun) {sources : List ManifestSource} (incomplete : Bool)
    (hp : allowed .providerUnavailable)
    (hb : sources ≠ [] → ∀ manifestId x, build C manifestId run.ownerId run.runId run.windowStart
      run.windowEnd sources = .error x → allowed .manifestInvalid) :
    (commit C run sources incomplete).Keeps I := by
  refine .ite (fun _ => .ite (fun _ => failWith_aside hI _ hp) fun _ =>
    (completeEmptyRun_aside hI _ _).mapError) fun hne =>
      Prog.Keeps.bind (fun _ => trivial) fun manifestId => ?_
  unfold commitSources
  split
  · next x hx => exact failWith_aside hI _ (hb (fun he => hne (by rw [he]; rfl)) _ x hx)
  · split
    · exact Prog.keeps_fail _
    · exact (commitManifest_aside hI _ _).mapError.bind fun _ => Prog.keeps_pure _

/-- the rest of a tick, after its walks. -/
theorem proceed_aside (ha : ∀ failure, allowed failure) (sourceCount : Nat) (run : PendingRun)
    (listed : Db) (outcomes : Outcomes) : (proceed C sourceCount run listed outcomes).Keeps I :=
  (keeps_statement fun _ => Tx.keeps_read _ _).bind fun _ =>
    (recordAcquisition_aside hI _ _).bind fun _ =>
      (commit_aside hI _ _ (ha _) fun _ _ _ _ => ha _).bind fun _ => Prog.keeps_pure _

end

end ChannelDigests
